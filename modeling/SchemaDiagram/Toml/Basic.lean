import SchemaDiagram.Scalar

/-! Values of the TOML format. A table remembers how it came about, which decides what may be added to it. -/

set_option autoImplicit false

namespace SchemaDiagram

namespace Toml

inductive Form where
  -- Written between braces; closed.
  | inline
  -- Opened by a header of its own.
  | header
  -- Named on the way to a header below it.
  | implicit
  -- Named on the way of a dotted key.
  | dotted
deriving DecidableEq, Repr

end Toml

inductive Toml where
  | scalar (value : Scalar)
  | moment (value : Text)
  | list (items : List Toml)
  | table (form : Toml.Form) (entries : List (Text × Toml))
  | tables (items : List (List (Text × Toml)))
deriving Repr

namespace Toml

abbrev Entries := List (Text × Toml)

def isGap (c : Char) : Bool := c = ' ' || c = '\t'

-- Characters that stand for themselves in text and comments; controls other than the tab do not.
def isPlain (c : Char) : Bool := c = '\t' || (0x20 ≤ c.toNat && c.toNat ≠ 0x7F)

def isBareKeyChar (c : Char) : Bool := c.isAlphanum || c = '_' || c = '-'

def hexValue? (c : Char) : Option Nat :=
  if '0' ≤ c && c ≤ '9' then some (c.toNat - '0'.toNat)
  else if 'a' ≤ c && c ≤ 'f' then some (c.toNat - 'a'.toNat + 10)
  else if 'A' ≤ c && c ≤ 'F' then some (c.toNat - 'A'.toNat + 10)
  else none

def digits? (base : Nat) (t : Text) : Option Nat :=
  t.foldlM (fun n c => (hexValue? c).bind fun d => if d < base then some (base * n + d) else none) 0

end Toml

end SchemaDiagram
