import SchemaDiagram.Toml.Basic

/-!
Dates and times of TOML. They are kept in one notation: a `T` between date and time, no zeros at the end of
a second, and `Z` or a sign with hours and minutes for the offset.
-/

set_option autoImplicit false

namespace SchemaDiagram

namespace Toml

def field? (width low high : Nat) (t : Text) : Option (Text × Text) :=
  let digits := t.take width
  if digits.length = width && digits.all Char.isDigit then
    match digits? 10 digits with
    | some n => if low ≤ n && n ≤ high then some (digits, t.drop width) else none
    | none => none
  else none

def daysIn (year month : Nat) : Nat :=
  if month = 2 then
    if year % 4 = 0 && (year % 100 ≠ 0 || year % 400 = 0) then 29 else 28
  else if month = 4 || month = 6 || month = 9 || month = 11 then 30
  else 31

def date? (t : Text) : Option (Text × Text) := do
  let (year, rest) ← field? 4 0 9999 t
  let (month, rest) ← field? 2 1 12 (← Text.after? "-" rest)
  let most := daysIn ((digits? 10 year).getD 0) ((digits? 10 month).getD 0)
  let (day, rest) ← field? 2 1 most (← Text.after? "-" rest)
  return (year ++ '-' :: month ++ '-' :: day, rest)

def subseconds (t : Text) : Text × Text :=
  match t with
  | '.' :: rest =>
    let digits := rest.takeWhile Char.isDigit
    let kept := ((digits.take 9).reverse.dropWhile (· = '0')).reverse
    if digits.isEmpty then ([], t)
    else (if kept.isEmpty then [] else '.' :: kept, rest.dropWhile Char.isDigit)
  | _ => ([], t)

def time? (lastHour : Nat) (t : Text) : Option (Text × Text) := do
  let (hour, rest) ← field? 2 0 lastHour t
  let (minute, rest) ← field? 2 0 59 (← Text.after? ":" rest)
  let (second, rest) ← field? 2 0 60 (← Text.after? ":" rest)
  let (behind, rest) := subseconds rest
  return (hour ++ ':' :: minute ++ ':' :: second ++ behind, rest)

def twoDigits (n : Nat) : Text := if n < 10 then '0' :: Nat.toDigits 10 n else Nat.toDigits 10 n

-- An offset of no minutes is written with a plus.
def offsetText (sign : Char) (minutes : Nat) : Text :=
  (if minutes = 0 then '+' else sign) :: twoDigits (minutes / 60) ++ ':' :: twoDigits (minutes % 60)

-- An offset goes no further than a day.
def offset? (lastHour lastMinute : Nat) : Text → Option (Text × Text)
  | 'Z' :: rest | 'z' :: rest => some (['Z'], rest)
  | c :: rest =>
    if c = '+' || c = '-' then do
      let (hour, rest) ← field? 2 0 lastHour rest
      let (minute, rest) ← field? 2 0 lastMinute (← Text.after? ":" rest)
      let minutes := 60 * (← digits? 10 hour) + (← digits? 10 minute)
      if minutes ≤ 24 * 60 then some (offsetText c minutes, rest) else none
    else none
  | [] => none

def isBeforeTime (c : Char) : Bool := c = 'T' || c = 't' || c = ' '

def moment? (t : Text) : Option (Text × Text) :=
  match date? t with
  | none => time? 23 t
  | some (date, []) => some (date, [])
  | some (date, c :: clock) =>
    match if isBeforeTime c then time? 23 clock else none with
    | none => some (date, c :: clock)
    | some (time, rest) =>
      match offset? 23 59 rest with
      | none => some (date ++ 'T' :: time, rest)
      | some (offset, rest) => some (date ++ 'T' :: time ++ offset, rest)

def toEnd? (read : Option (Text × Text)) : Option Text :=
  (read.filter fun (_, rest) => rest.isEmpty).map Prod.fst

-- All of a text as a date, a time or both. Here an hour may be the twenty-fourth, and the minutes of an
-- offset more than an hour.
def wholeMoment? (t : Text) : Option Text :=
  match date? t with
  | none => toEnd? (time? 24 t)
  | some (date, []) => some date
  | some (date, c :: clock) =>
    match if isBeforeTime c then time? 24 clock else none with
    | none => none
    | some (time, []) => some (date ++ 'T' :: time)
    | some (time, rest) => (toEnd? (offset? 99 99 rest)).map (date ++ 'T' :: time ++ ·)

end Toml

end SchemaDiagram
