import SchemaDiagram.Declaration
import SchemaDiagram.Path

/-! Entities as the diagram shows them. -/

set_option autoImplicit false

namespace SchemaDiagram

structure Attribute where
  name : Text
  -- The type as written, less what says nothing of it.
  rawType : Text
  label : Text
  connects : Bool
deriving DecidableEq, Repr

inductive Member where
  | typed (element : Attribute)
  | verbatim (line : Text)
deriving DecidableEq, Repr

structure Entity where
  name : Text
  kind : DeclarationKind
  members : List Member
  source : Option Path
deriving DecidableEq, Repr

def Member.typed? : Member → Option Attribute
  | typed element => some element
  | verbatim _ => none

def Member.line : Member → Text
  | typed ⟨name, _, label, _⟩ => ' ' :: ' ' :: name ++ " : ".toList ++ label
  | verbatim line => line

namespace Entity

def attributes (entity : Entity) : List Attribute := entity.members.filterMap Member.typed?

def block (entity : Entity) : Text :=
  "class ".toList ++ entity.name ++ " \x7b\n".toList ++
    (if entity.kind = .typeAlias then "  <<type>>\n".toList else []) ++
    entity.members.flatMap (fun member => member.line ++ ['\n']) ++ "\x7d\n".toList

end Entity

end SchemaDiagram
