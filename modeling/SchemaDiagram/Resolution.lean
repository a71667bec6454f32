import SchemaDiagram.SourceFile
import SchemaDiagram.TypeClause
import SchemaDiagram.TypeTable
import SchemaDiagram.Worklist

/-!
What the type of an element means in its file: the label to show, the entity it connects to, and the
declaration to look for in other files. Names that are known nowhere become labels as they stand.
-/

set_option autoImplicit false

namespace SchemaDiagram

structure Relation where
  kind : EdgeKind
  target : Text
deriving DecidableEq, Repr

structure Resolution where
  label : Text
  relation : Option Relation := none
  pending : Option Reference := none
deriving DecidableEq, Repr

namespace Resolution

def structLabel : Text := "struct"

def arraySuffix : Text := "[]"

def ofName (types : TypeTable) (file : SourceFile) (name : Text) : Text × Option Reference :=
  let base := (TypeClause.withoutParameters name).trim
  match types.lookup? base with
  | some label => (label, none)
  | none =>
    match Reference.ofQualified? base with
    | none => (base, none)
    | some reference => (reference.name, if file.declares reference.name then none else some reference)

def targetName (target : Text) : Text :=
  TypeClause.withoutParameters ((Text.words target).head?.getD target)

def isStruct (target : Text) : Bool := target.isEmpty || target.head? = some '{'

def ofRelationship (types : TypeTable) (file : SourceFile) (kind : EdgeKind) (target : Text) :
    Resolution :=
  if isStruct target then ⟨structLabel, none, none⟩
  else
    let (entity, pending) := ofName types file (targetName target)
    ⟨entity, some ⟨kind, entity⟩, pending⟩

-- Arrays of primitive types connect to nothing.
def ofArray (types : TypeTable) (file : SourceFile) (element : Text) : Resolution :=
  if isStruct element then ⟨structLabel ++ arraySuffix, none, none⟩
  else
    match TypeTable.primitive? (targetName element) with
    | some label => ⟨label ++ arraySuffix, none, none⟩
    | none =>
      let (entity, pending) := ofName types file (targetName element)
      ⟨entity ++ arraySuffix, some ⟨.arrayDerived, entity⟩, pending⟩

def resolve (types : TypeTable) (file : SourceFile) (raw : Text) : Resolution :=
  match TypeClause.ofText raw with
  | .relationship kind target => ofRelationship types file kind target
  | .array element => ofArray types file element
  | .struct => ⟨structLabel, none, none⟩
  | .name text =>
    let (label, pending) := ofName types file text
    ⟨label, none, pending⟩

-- A label without the marks of arrays, given in reverse.
def dropArrayMarks : Text → Text
  | ']' :: '[' :: rest => dropArrayMarks rest
  | label => label

-- Whether nothing is known of a type that asks for nothing elsewhere.
def isOpaque (resolution : Resolution) (types : TypeTable) (file : SourceFile) : Bool :=
  let base := (dropArrayMarks resolution.label.reverse).reverse
  resolution.relation.isNone && resolution.pending.isNone && base ≠ structLabel &&
    (types.lookup? base).isNone && !file.declares base

end Resolution

end SchemaDiagram
