import SchemaDiagram.Text.Lowercase
import SchemaDiagram.Toml.Document

/-!
A tree of settings. A setting is laid over another entry by entry, so that what it does not mention stays.
Names are kept in small letters as far as they are laid; what stands in a list stays as it is.
-/

set_option autoImplicit false

namespace SchemaDiagram

-- A setting knows the layer that it comes from, unless it was made to hold others.
inductive Setting where
  -- An item of a list that is not set.
  | nothing
  | scalar (value : Scalar) (origin : Text)
  | list (items : List Setting) (origin : Option Text)
  | table (entries : List (Text × Setting)) (origin : Option Text)
deriving Repr

namespace Setting

def empty : Setting := table [] none

def momentName : Text := "$__toml_private_datetime"

def momentOf? (origin : Text) : Toml → Option Setting
  | .scalar (.text value) => (Toml.wholeMoment? value).map fun value => scalar (.text value) origin
  | _ => none

-- A table of which the entries are known, unless it stands for a date or time.
def tableOf? (origin : Text) (written : Toml.Entries) (entries : Option (List (Text × Setting))) :
    Option Setting :=
  match written with
  | [] => entries.map fun entries => table entries origin
  | (name, first) :: _ =>
    if name = momentName then momentOf? origin first else entries.map fun entries => table entries origin

mutual

def ofToml? (origin : Text) : Toml → Option Setting
  | .scalar value => some (scalar value origin)
  | .moment value => some (scalar (.text value) origin)
  | .list items => (ofItems? origin items).map fun items => list items origin
  | .table _ entries => tableOf? origin entries (ofEntries? origin entries)
  | .tables items => (ofTables? origin items).map fun items => list items origin

def ofItems? (origin : Text) : List Toml → Option (List Setting)
  | [] => some []
  | item :: rest => (ofToml? origin item).bind fun item => (ofItems? origin rest).map (item :: ·)

def ofEntries? (origin : Text) : List (Text × Toml) → Option (List (Text × Setting))
  | [] => some []
  | (name, value) :: rest =>
    (ofToml? origin value).bind fun value => (ofEntries? origin rest).map ((name, value) :: ·)

def ofTables? (origin : Text) : List (List (Text × Toml)) → Option (List Setting)
  | [] => some []
  | entries :: rest =>
    (tableOf? origin entries (ofEntries? origin entries)).bind fun item =>
      (ofTables? origin rest).map (item :: ·)

end

def find? (setting : Setting) (name : Text) : Option Setting :=
  match setting with
  | table entries _ => entries.lookup name
  | _ => none

def putEntry (name : Text) (inner : Setting) : List (Text × Setting) → List (Text × Setting)
  | [] => [(name, inner)]
  | entry :: others => if entry.1 = name then (name, inner) :: others else entry :: putEntry name inner others

-- A setting becomes a table as soon as something is put into it by name.
def put (setting : Setting) (name : Text) (inner : Setting) : Setting :=
  match setting with
  | table entries origin => table (putEntry name inner entries) origin
  | _ => table [(name, inner)] none

mutual

def overlay : (new old : Setting) → Setting
  | table entries _, old => overlayAll entries old
  | new, _ => new

def overlayAll : List (Text × Setting) → Setting → Setting
  | [], old => old
  | (name, new) :: rest, old =>
    let name := Text.lower name
    overlayAll rest (old.put name (overlay new ((old.find? name).getD empty)))

end

-- The place of an item in a list; indices below zero count from the end.
def place (index : Int) (length : Nat) : Nat := (if index < 0 then length + index else index).toNat

-- A setting becomes a list as soon as one of its items is changed, and grows until it has that item.
def changeItem (setting : Setting) (index : Int) (change : Setting → Setting) : Setting :=
  match setting with
  | list items origin =>
    let place := place index items.length
    list ((items ++ List.replicate (place + 1 - items.length) nothing).modify place change) origin
  | _ =>
    let place := place index 0
    list ((List.replicate (place + 1) nothing).modify place change) none

end Setting

end SchemaDiagram
