import SchemaDiagram.Text.Basic
import SchemaDiagram.Text.Escaped

/-! Text between quotes as messages show it, with escapes for what cannot be seen. -/

set_option autoImplicit false

namespace SchemaDiagram

namespace Text

def hexDigits (n : Nat) : Text := Nat.toDigits 16 n

def isShownByNumber (c : Char) : Bool :=
  if c.toNat < 0x80 then c.toNat < 0x20 || c.toNat = 0x7F else escapedCharacters.covers c.toNat

def shownChar (c : Char) : Text :=
  if c = '\x00' then ['\\', '0']
  else if c = '\t' then ['\\', 't']
  else if c = '\n' then ['\\', 'n']
  else if c = '\r' then ['\\', 'r']
  else if c = '"' || c = '\\' then ['\\', c]
  else if isShownByNumber c then ['\\', 'u', '{'] ++ hexDigits c.toNat ++ ['}']
  else [c]

def quoted (t : Text) : Text := '"' :: t.flatMap shownChar ++ ['"']

end Text

end SchemaDiagram
