import SchemaDiagram.BodyLine
import SchemaDiagram.Diagnostic
import SchemaDiagram.Entity
import SchemaDiagram.Resolution
import SchemaDiagram.Statement

/-!
The rendering of one declaration in its own file: the entity, the edges and requests that its elements
give rise to, and the findings on the way. Nothing outside the file takes part in it.
-/

set_option autoImplicit false

namespace SchemaDiagram

structure Yield where
  member : Option Member := none
  edge : Option Edge := none
  request : Option Reference := none
  finding : Option Diagnostic := none
deriving Repr

namespace Yield

-- An element's edge leads to another entity; the clause is the statement without its remarks.
def ofElement (types : TypeTable) (file : SourceFile) (owner statement name rawType : Text) : Yield :=
  let resolution := Resolution.resolve types file rawType
  let outward := resolution.relation.filter (·.target ≠ owner)
  { member := some (.typed ⟨name, rawType, resolution.label, outward.isSome⟩)
    edge := outward.map fun relation =>
      Edge.ofClause (withoutRemarks statement) owner relation.target relation.kind
    request := resolution.pending
    finding :=
      if resolution.isOpaque types file then some (Diagnostic.unknownType owner name resolution.label)
      else none }

def ofStatement (types : TypeTable) (file : SourceFile) (owner statement : Text) : Yield :=
  match BodyLine.read statement with
  | .element name rawType => ofElement types file owner statement name rawType
  | .verbatim text => { member := some (.verbatim text) }
  | .skip .unusable => { finding := some (Diagnostic.unusable owner statement) }
  | .skip _ => {}

end Yield

structure Rendering where
  entity : Entity
  edges : List Edge
  requests : List Reference
  findings : List Diagnostic
deriving Repr

namespace Fragment

def statements (fragment : Fragment) : List Text := SchemaDiagram.statements (fragment.body?.getD [])

def yields (types : TypeTable) (file : SourceFile) (fragment : Fragment) : List Yield :=
  fragment.statements.map (Yield.ofStatement types file fragment.name)

def render (types : TypeTable) (file : SourceFile) (fragment : Fragment) : Rendering :=
  let yields := fragment.yields types file
  ⟨⟨fragment.name, fragment.kind, yields.filterMap Yield.member, file.path⟩,
    yields.filterMap Yield.edge, yields.filterMap Yield.request, yields.filterMap Yield.finding⟩

end Fragment

end SchemaDiagram
