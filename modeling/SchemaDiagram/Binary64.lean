import SchemaDiagram.Text.Basic

/-!
Double precision numbers. A decimal is read as the nearest of them, a tie going to the even mantissa, and
written with the fewest digits that are read back as the same number, of two such the nearer one and at a
tie the greater, never with an exponent.
-/

set_option autoImplicit false

namespace SchemaDiagram

inductive Binary64 where
  | nan
  | infinite (negative : Bool)
  -- `mantissa · 2 ^ exponent`.
  | finite (negative : Bool) (mantissa : Nat) (exponent : Int)
deriving DecidableEq, Repr

namespace Binary64

def isZero : Binary64 → Bool
  | finite _ 0 _ => true
  | _ => false

-- The natural number nearest to `n / d`, of two of them the even one.
def nearestEven (n d : Nat) : Nat :=
  let q := n / d
  let twice := 2 * (n % d)
  if twice < d || (twice = d && q % 2 = 0) then q else q + 1

-- The natural number nearest to `n / d`, of two of them the greater one.
def nearestUp (n d : Nat) : Nat := (2 * n + d) / (2 * d)

def scaled (base n d : Nat) (exponent : Int) : Nat × Nat :=
  if exponent < 0 then (n * Nat.pow base (-exponent).toNat, d) else (n, d * Nat.pow base exponent.toNat)

-- Mantissas are below this; normal ones are at least half of it.
def mantissaEnd : Nat := Nat.pow 2 53

def leastNormal : Nat := Nat.pow 2 52

def minExponent : Int := -1074
def maxExponent : Int := 971

def ofFraction (negative : Bool) (n d : Nat) : Binary64 :=
  let near : Int := (Nat.log2 n : Int) - Nat.log2 d - 53
  let (a, b) := scaled 2 n d near
  let exponent := max minExponent (if mantissaEnd * b ≤ a then near + 1 else near)
  let (a, b) := scaled 2 n d exponent
  let mantissa := nearestEven a b
  let (mantissa, exponent) := if mantissa = mantissaEnd then (leastNormal, exponent + 1) else (mantissa, exponent)
  if maxExponent < exponent then infinite negative else finite negative mantissa exponent

def digitCount (n : Nat) : Nat := (Nat.toDigits 10 n).length

-- The number nearest to `digits · 10 ^ exponent`. Far beyond the range no power is computed.
def ofDecimal (negative : Bool) (digits : Nat) (exponent : Int) : Binary64 :=
  let top := exponent + digitCount digits
  if digits = 0 || top < -400 then finite negative 0 0
  else if 400 < top then infinite negative
  else if exponent < 0 then ofFraction negative digits (Nat.pow 10 (-exponent).toNat)
  else ofFraction negative (digits * Nat.pow 10 exponent.toNat) 1

def places (n d : Nat) : Int :=
  let near : Int := (digitCount n : Int) - digitCount d
  let (a, b) := scaled 10 n d near
  if b ≤ a then near + 1 else near

-- The digits of a number on the grid of `count` digits, if one there is read back as the number. All
-- values are in quarters of the last binary place, and the bounds belong to the range when `even`.
def onGrid? (value low high : Nat) (exponent : Int) (even : Bool) (count : Nat) : Option (Nat × Int) :=
  let (n, d) := scaled 2 value 1 (-exponent)
  let grid := places n d - count
  let (n, d) := scaled 10 n d grid
  let down := n / d
  let inside (digits : Nat) : Bool :=
    let (l, ld) := scaled 2 low 1 (-exponent)
    let (l, ld) := scaled 10 l ld grid
    let (h, hd) := scaled 2 high 1 (-exponent)
    let (h, hd) := scaled 10 h hd grid
    if even then l ≤ digits * ld && digits * hd ≤ h else l < digits * ld && digits * hd < h
  let nearest := nearestUp n d
  if inside nearest then some (nearest, grid)
  else if inside down then some (down, grid)
  else if inside (down + 1) then some (down + 1, grid)
  else none

-- The fewest digits that are read back; seventeen are always enough.
def shortest (mantissa : Nat) (exponent : Int) : Nat × Int :=
  let below := if mantissa = leastNormal && minExponent < exponent then 1 else 2
  (((List.range 17).map (· + 1)).findSome?
    (onGrid? (4 * mantissa) (4 * mantissa - below) (4 * mantissa + 2) (exponent - 2)
      (mantissa % 2 = 0))).getD (mantissa, 0)

def positional (all : Text) (place : Int) : Text :=
  let digits := (all.reverse.dropWhile (· = '0')).reverse
  let exponent := place + (all.length - digits.length : Nat)
  if 0 ≤ exponent then digits ++ List.replicate exponent.toNat '0'
  else
    let behind := (-exponent).toNat
    if behind < digits.length then
      digits.take (digits.length - behind) ++ '.' :: digits.drop (digits.length - behind)
    else '0' :: '.' :: List.replicate (behind - digits.length) '0' ++ digits

def sign (negative : Bool) : Text := if negative then ['-'] else []

def text : Binary64 → Text
  | nan => "NaN"
  | infinite negative => sign negative ++ "inf".toList
  | finite negative mantissa exponent =>
    if mantissa = 0 then sign negative ++ ['0']
    else
      let (digits, grid) := shortest mantissa exponent
      sign negative ++ positional (Nat.toDigits 10 digits) grid

end Binary64

end SchemaDiagram
