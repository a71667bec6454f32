import SchemaDiagram.Json
import SchemaDiagram.Report

/-! Reports as JSON. What is not known is left out. -/

set_option autoImplicit false

namespace SchemaDiagram

def Json.known (name : Text) (value : Option Text) : List (Text × Json.Value) :=
  value.toList.map fun value => (name, .text value)

def EdgeKind.json : EdgeKind → Json.Value
  | composition => .text "composition"
  | association => .text "association"
  | arrayDerived => .text "array_derived"

def Cardinality.json : Cardinality → Json.Value
  | oneToMany => .text "one_to_many"
  | manyToOne => .text "many_to_one"
  | oneToOptional => .text "one_to_optional"
  | optionalToOne => .text "optional_to_one"

def Edge.json (edge : Edge) : Json.Value :=
  .object [
    ("primary", .text edge.owner),
    ("secondary", .text edge.target),
    ("kind", edge.kind.json),
    ("cardinality", edge.cardinality.json),
    ("connection_label", .text edge.label)]

def Member.json : Member → Json.Value
  | typed element =>
    .object [
      ("member", .text "attribute"),
      ("name", .text element.name),
      ("raw_type", .text element.rawType),
      ("resolved_type", .text element.label),
      ("is_relationship", .flag element.connects)]
  | verbatim line => .object [("member", .text "verbatim"), ("line", .text line)]

def DeclarationKind.json : DeclarationKind → Json.Value
  | entity => .text "entity"
  | typeAlias => .text "type_alias"

def Entity.json (entity : Entity) : Json.Value :=
  let source := Json.known "source_file" (entity.source.map Path.text)
  .object ([
    ("name".toList, .text entity.name),
    ("kind".toList, entity.kind.json),
    ("members".toList, .array (entity.members.map Member.json))] ++ source)

def DiagnosticCode.json : DiagnosticCode → Json.Value
  | unreadableSource => .text "UnreadableSource"
  | unparsableLine => .text "UnparsableLine"
  | unresolvedType => .text "UnresolvedType"
  | orphanRelationship => .text "OrphanRelationship"

def Diagnostic.json (diagnostic : Diagnostic) : Json.Value :=
  let entity := Json.known "entity" diagnostic.entity
  .object ([("code".toList, diagnostic.code.json)] ++ entity ++
    [("message".toList, .text diagnostic.message)])

def Report.json (report : Report) : Json.Value :=
  .object [
    ("document", .text report.document),
    ("entities", .array (report.entities.map Entity.json)),
    ("edges", .array (report.edges.map Edge.json)),
    ("diagnostics", .object [("items", .array (report.diagnostics.map Diagnostic.json))])]

end SchemaDiagram
