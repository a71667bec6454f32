import SchemaDiagram.Text.Basic

/-!
JSON values without numbers, and their text over several lines. Fields keep their order; an array or object
that holds nothing stays on its line.
-/

set_option autoImplicit false

namespace SchemaDiagram

namespace Json

inductive Value where
  | flag (value : Bool)
  | text (value : Text)
  | array (items : List Value)
  | object (fields : List (Text × Value))
deriving Repr

def hex2 (n : Nat) : Text :=
  let digits := Nat.toDigits 16 n
  List.replicate (2 - digits.length) '0' ++ digits

def escaped (c : Char) : Text :=
  if c = '"' || c = '\\' then ['\\', c]
  else if c = '\x08' then ['\\', 'b']
  else if c = '\t' then ['\\', 't']
  else if c = '\n' then ['\\', 'n']
  else if c = '\x0C' then ['\\', 'f']
  else if c = '\r' then ['\\', 'r']
  else if c.toNat < 0x20 then "\\u00".toList ++ hex2 c.toNat
  else [c]

def quoted (t : Text) : Text := '"' :: t.flatMap escaped ++ ['"']

def newLine (depth : Nat) : Text := '\n' :: List.replicate (2 * depth) ' '

def enclosed (depth : Nat) (opening closing : Char) (parts : List Text) : Text :=
  if parts.isEmpty then [opening, closing]
  else
    opening :: [','].intercalate (parts.map fun part => newLine (depth + 1) ++ part) ++ newLine depth ++
      [closing]

mutual

def render (depth : Nat) : Value → Text
  | .flag value => if value then "true" else "false"
  | .text value => quoted value
  | .array items => enclosed depth '[' ']' (renderItems (depth + 1) items)
  | .object fields => enclosed depth '\x7b' '\x7d' (renderFields (depth + 1) fields)

def renderItems (depth : Nat) : List Value → List Text
  | [] => []
  | item :: rest => render depth item :: renderItems depth rest

def renderFields (depth : Nat) : List (Text × Value) → List Text
  | [] => []
  | (name, value) :: rest => (quoted name ++ ": ".toList ++ render depth value) :: renderFields depth rest

end

end Json

end SchemaDiagram
