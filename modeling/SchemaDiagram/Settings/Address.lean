import SchemaDiagram.Settings.Setting

/-!
Places in a tree of settings. An address is written as a name with further names behind dots and with
indices in brackets, as in `source.convention` or `source[0]`.
-/

set_option autoImplicit false

namespace SchemaDiagram

inductive Step where
  | name (name : Text)
  | item (index : Int)
deriving DecidableEq, Repr

abbrev Address := List Step

namespace Step

-- The key of a setting as seen from one step above it. No dot stands in front of a bracket.
def before (step : Step) (key : Text) : Text :=
  match step, key with
  | .name above, [] => above
  | .name above, '[' :: rest => above ++ '[' :: rest
  | .name above, key => above ++ '.' :: key
  | .item index, key => '[' :: Scalar.integerText index ++ ']' :: key

end Step

namespace Address

def isNameChar (c : Char) : Bool := c.isAlphanum || c = '_' || c = '-' || c = ' '

def isBlank (c : Char) : Bool := c = ' ' || c = '\t' || c = '\n' || c = '\r'

def name? (t : Text) : Option (Step × Text) :=
  let name := t.takeWhile isNameChar
  if name.isEmpty then none else some (.name name, t.dropWhile isNameChar)

def item? (t : Text) : Option (Step × Text) :=
  let start := t.dropWhile isBlank
  let negative := start.head? = some '-'
  let digits := if negative then start.drop 1 else start
  match digits.takeWhile Char.isDigit, (digits.dropWhile Char.isDigit).dropWhile isBlank with
  | [], _ => none
  | shown, ']' :: rest =>
    ((Toml.digits? 10 shown).map (Toml.withSign negative)).bind fun index =>
      if Toml.fits index then some (.item index, rest) else none
  | _, _ => none

def further? (steps : Nat) (t : Text) : Option Address :=
  match steps, t with
  | _, [] => some []
  | steps + 1, '.' :: rest => (name? rest).bind fun (step, rest) => (further? steps rest).map (step :: ·)
  | steps + 1, '[' :: rest => (item? rest).bind fun (step, rest) => (further? steps rest).map (step :: ·)
  | _, _ => none

def parse? (t : Text) : Option Address :=
  (name? t).bind fun (step, rest) => (further? rest.length rest).map (step :: ·)

-- A text that is no address is a name as a whole.
def ofText (t : Text) : Address := (parse? t).getD [.name t]

-- Puts a setting at an address. Behind a name it is laid over what is there; an item of a list it replaces.
def put (new : Setting) : Address → Setting → Setting
  | [], _ => new
  | [.name name], old => old.put name (new.overlay ((old.find? name).getD .empty))
  | .name name :: rest, old => old.put name (put new rest ((old.find? name).getD .nothing))
  | .item index :: rest, old => old.changeItem index (put new rest)

end Address

end SchemaDiagram
