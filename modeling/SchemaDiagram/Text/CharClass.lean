import SchemaDiagram.Text.Alphanumeric
import SchemaDiagram.Text.WordUnit

/-!
The classes of characters that schema text is read by. ASCII is decided by comparison; only beyond it
are the tables of the Unicode properties consulted.
-/

set_option autoImplicit false

namespace SchemaDiagram

def whiteSpace : Ranges := [
  (0x09, 0x0D), (0x20, 0x20), (0x85, 0x85), (0xA0, 0xA0), (0x1680, 0x1680), (0x2000, 0x200A),
  (0x2028, 0x2029), (0x202F, 0x202F), (0x205F, 0x205F), (0x3000, 0x3000)]

def isWhite (c : Char) : Bool := whiteSpace.covers c.toNat

def isAlphanumeric (c : Char) : Bool :=
  if c.toNat < 0x80 then c.isAlphanum else alphanumerics.covers c.toNat

def isWordUnit (c : Char) : Bool :=
  if c.toNat < 0x80 then c.isAlphanum || c = '_' else wordUnits.covers c.toNat

end SchemaDiagram
