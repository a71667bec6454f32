import SchemaDiagram.Toml.Moment

/-!
The literals of TOML: strings in their four notations, numbers, and dates and times. Each reader takes its
literal off the front of a text and answers with the rest; `steps` bounds how many characters it may take.
-/

set_option autoImplicit false

namespace SchemaDiagram

namespace Toml

def numbered? (count : Nat) (t : Text) : Option (Char × Text) :=
  if (t.take count).length < count then none
  else
    match digits? 16 (t.take count) with
    | none => none
    | some n => if n.isValidChar then some (Char.ofNat n, t.drop count) else none

def escape? : Text → Option (Char × Text)
  | 'b' :: rest => some ('\x08', rest)
  | 't' :: rest => some ('\t', rest)
  | 'n' :: rest => some ('\n', rest)
  | 'f' :: rest => some ('\x0C', rest)
  | 'r' :: rest => some ('\r', rest)
  | '"' :: rest => some ('"', rest)
  | '\\' :: rest => some ('\\', rest)
  | 'u' :: rest => numbered? 4 rest
  | 'U' :: rest => numbered? 8 rest
  | _ => none

def lead (c : Char) (read : Option (Text × Text)) : Option (Text × Text) :=
  read.map fun (value, rest) => (c :: value, rest)

def basic? (steps : Nat) (t : Text) : Option (Text × Text) :=
  match steps, t with
  | _, '"' :: rest => some ([], rest)
  | steps + 1, '\\' :: rest => (escape? rest).bind fun (c, rest) => lead c (basic? steps rest)
  | steps + 1, c :: rest => if isPlain c then lead c (basic? steps rest) else none
  | _, _ => none

def literal? (t : Text) : Option (Text × Text) :=
  match t.dropWhile fun c => isPlain c && c ≠ '\'' with
  | '\'' :: rest => some (t.takeWhile fun c => isPlain c && c ≠ '\'', rest)
  | _ => none

def lineEnd? : Text → Option Text
  | '\n' :: rest => some rest
  | '\r' :: '\n' :: rest => some rest
  | _ => none

def afterBlankLines : Text → Text
  | ' ' :: rest | '\t' :: rest | '\n' :: rest => afterBlankLines rest
  | '\r' :: '\n' :: rest => afterBlankLines rest
  | t => t

-- The inside of a string over several lines. Up to two quotes may stand in it, in front of the three that
-- close it too; line ends become line feeds; and in double quotes a backslash takes back the line end and
-- the blanks that follow it.
def multiline? (quote : Char) (escapes : Bool) (steps : Nat) (t : Text) : Option (Text × Text) :=
  match steps with
  | 0 => none
  | steps + 1 =>
    let more (c : Char) (rest : Text) := lead c (multiline? quote escapes steps rest)
    match t with
    | [] => none
    | c :: rest =>
      let run := (t.takeWhile (· = quote)).length
      if c = quote then
        if 3 ≤ run then
          let inner := min (run - 3) 2
          some (List.replicate inner quote, t.drop (inner + 3))
        else more c rest
      else if escapes && c = '\\' then
        match lineEnd? (rest.dropWhile isGap) with
        | some below => multiline? quote escapes steps (afterBlankLines below)
        | none => (escape? rest).bind fun (c, rest) => more c rest
      else
        match lineEnd? t with
        | some below => more '\n' below
        | none => if isPlain c then more c rest else none

-- A line end directly after the opening quotes is no part of the string.
def openedMultiline? (quote : Char) (escapes : Bool) (t : Text) : Option (Text × Text) :=
  multiline? quote escapes (t.length + 1) ((lineEnd? t).getD t)

def string? (t : Text) : Option (Text × Text) :=
  match t with
  | '"' :: '"' :: '"' :: rest => openedMultiline? '"' true rest
  | '\'' :: '\'' :: '\'' :: rest => openedMultiline? '\'' false rest
  | '"' :: rest => basic? rest.length rest
  | '\'' :: rest => literal? rest
  | _ => none

def ungrouped? (isDigit : Char → Bool) (t : Text) : Option Text :=
  let groups := Text.fields (· = '_') t
  if groups.all fun group => !group.isEmpty && group.all isDigit then some groups.flatten else none

def signed : Text → Bool × Text
  | '+' :: rest => (false, rest)
  | '-' :: rest => (true, rest)
  | t => (false, t)

def withSign (negative : Bool) (n : Nat) : Int := if negative then -n else n

def fits (n : Int) : Bool := -9223372036854775808 ≤ n && n ≤ 9223372036854775807

def natural? (t : Text) : Option Text :=
  (ungrouped? Char.isDigit t).filter fun digits => digits.length = 1 || digits.head? ≠ some '0'

def based? (base : Nat) (t : Text) : Option Int :=
  (ungrouped? (fun c => (digits? base [c]).isSome) t).bind fun digits =>
    (digits? base digits).bind fun n => if fits n then some (n : Int) else none

def integer? (t : Text) : Option Int :=
  match t with
  | '0' :: 'x' :: rest => based? 16 rest
  | '0' :: 'o' :: rest => based? 8 rest
  | '0' :: 'b' :: rest => based? 2 rest
  | _ =>
    let (negative, rest) := signed t
    (natural? rest).bind fun digits => (digits? 10 digits).bind fun n =>
      if fits (withSign negative n) then some (withSign negative n) else none

def splitAt? (separates : Char → Bool) (t : Text) : Option (Text × Text) :=
  match t.dropWhile (!separates ·) with
  | [] => none
  | _ :: rest => some (t.takeWhile (!separates ·), rest)

def exponent? (part : Option Text) : Option Int :=
  match part with
  | none => some 0
  | some t =>
    let (negative, rest) := signed t
    (ungrouped? Char.isDigit rest).bind fun digits => (digits? 10 digits).map (withSign negative)

def fraction? (part : Option Text) : Option Text :=
  match part with
  | none => some []
  | some t => ungrouped? Char.isDigit t

-- A decimal beyond the range is none.
def decimal? (t : Text) : Option Binary64 :=
  let (negative, rest) := signed t
  if rest = "inf".toList then some (.infinite negative)
  else if rest = "nan".toList then some .nan
  else
    let isE (c : Char) := c = 'e' || c = 'E'
    let (significand, power) := match splitAt? isE rest with
      | some (front, back) => (front, some back)
      | none => (rest, none)
    let (whole, behind) := match splitAt? (· = '.') significand with
      | some (front, back) => (front, some back)
      | none => (significand, none)
    if power.isNone && behind.isNone then none
    else
      match natural? whole, fraction? behind, exponent? power with
      | some whole, some behind, some power =>
        ((digits? 10 (whole ++ behind)).map fun n =>
          Binary64.ofDecimal negative n (power - behind.length)).filter (· ≠ .infinite false)
      | _, _, _ => none

def isScalarChar (c : Char) : Bool := c.isAlphanum || c = '_' || c = '+' || c = '-' || c = '.' || c = ':'

def word? (t : Text) : Option Scalar :=
  if t = "true".toList then some (.flag true)
  else if t = "false".toList then some (.flag false)
  else
    match integer? t with
    | some n => some (.integer n)
    | none => (decimal? t).map .decimal

def scalar? (t : Text) : Option (Toml × Text) :=
  match string? t with
  | some (value, rest) => some (scalar (.text value), rest)
  | none =>
    match moment? t with
    | some (value, rest) => some (moment value, rest)
    | none => (word? (t.takeWhile isScalarChar)).map fun value => (scalar value, t.dropWhile isScalarChar)

end Toml

end SchemaDiagram
