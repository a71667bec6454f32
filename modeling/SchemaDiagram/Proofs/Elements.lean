import Mathlib.Data.List.Basic
import SchemaDiagram.Proofs.Resolution
import SchemaDiagram.Rendering

/-!
A declaration as the list of its elements. Attributes, edges and requests of its rendering are told element
by element, by nothing but the file and the name of the declaration.
-/

set_option autoImplicit false

namespace SchemaDiagram

structure Element where
  statement : Text
  name : Text
  rawType : Text
deriving DecidableEq, Repr

namespace Element

def ofStatement? (statement : Text) : Option Element :=
  match BodyLine.read statement with
  | .element name rawType => some ⟨statement, name, rawType⟩
  | _ => none

variable (types : TypeTable) (file : SourceFile) (owner : Text) (element : Element)

-- The relation to another entity than the owner.
def outward? : Option Relation :=
  (Resolution.resolve types file element.rawType).relation.filter (·.target ≠ owner)

def shown : Attribute :=
  ⟨element.name, element.rawType, (Resolution.resolve types file element.rawType).label,
    (element.outward? types file owner).isSome⟩

def request? : Option Reference := (Resolution.resolve types file element.rawType).pending

def edge? : Option Edge :=
  (element.outward? types file owner).map fun relation =>
    Edge.ofClause (withoutRemarks element.statement) owner relation.target relation.kind

theorem edge_ends (edge : Edge) (declares : element.edge? types file owner = some edge) :
    edge.owner = owner ∧ edge.target ≠ owner := by
  obtain ⟨relation, outward, rfl⟩ := Option.map_eq_some_iff.mp declares
  have apart : relation.target ≠ owner := by simpa using (Option.filter_eq_some_iff.mp outward).2
  exact ⟨rfl, apart⟩

end Element

theorem Yield.finding_of_statement (types : TypeTable) (file : SourceFile) (owner statement : Text)
    (finding : Diagnostic) (yields : (Yield.ofStatement types file owner statement).finding = some finding) :
    finding.code = .unparsableLine ∨ finding.code = .unresolvedType := by
  unfold Yield.ofStatement at yields
  cases line : BodyLine.read statement with
  | element name rawType =>
    simp only [line, Yield.ofElement] at yields
    split at yields
    · cases yields
      exact .inr rfl
    · contradiction
  | verbatim text =>
    rw [line] at yields
    contradiction
  | skip reason =>
    rw [line] at yields
    cases reason with
    | unusable =>
      cases yields
      exact .inl rfl
    | blank => contradiction
    | remarks => contradiction

namespace Fragment

def elements (fragment : Fragment) : List Element := fragment.statements.filterMap Element.ofStatement?

variable (types : TypeTable) (file : SourceFile) (fragment : Fragment)

-- What a rendering holds of one kind is told by the elements, when nothing else has any of that kind.
theorem items_of_elements {α : Type} (item : Yield → Option α) (told : Element → Option α)
    (element : ∀ statement name rawType,
      item (Yield.ofElement types file fragment.name statement name rawType) = told ⟨statement, name, rawType⟩)
    (verbatim : ∀ text, item { member := some (.verbatim text) } = none)
    (unusable : ∀ finding, item { finding := some finding } = none) (skip : item {} = none) :
    (fragment.yields types file).filterMap item = fragment.elements.filterMap told := by
  rw [yields, List.filterMap_map, elements, List.filterMap_filterMap]
  apply List.filterMap_congr
  intro statement _
  change item (Yield.ofStatement types file fragment.name statement) = (Element.ofStatement? statement).bind told
  unfold Yield.ofStatement Element.ofStatement?
  cases BodyLine.read statement with
  | element name rawType => exact element statement name rawType
  | verbatim text => exact verbatim text
  | skip reason =>
    cases reason with
    | blank => exact skip
    | remarks => exact skip
    | unusable => exact unusable _

theorem edges_of_elements :
    (fragment.render types file).edges = fragment.elements.filterMap (Element.edge? types file fragment.name) := by
  apply items_of_elements types file fragment Yield.edge <;> intros <;> rfl

theorem requests_of_elements :
    (fragment.render types file).requests = fragment.elements.filterMap (Element.request? types file) := by
  apply items_of_elements types file fragment Yield.request <;> intros <;> rfl

theorem attributes_of_elements :
    (fragment.render types file).entity.attributes =
      fragment.elements.map (Element.shown types file fragment.name) := by
  change ((fragment.yields types file).filterMap Yield.member).filterMap Member.typed? = _
  rw [List.filterMap_filterMap, ← List.filterMap_eq_map]
  apply items_of_elements types file fragment (fun yield => yield.member.bind Member.typed?) <;> intros <;> rfl

theorem request_pending (reference : Reference) (member : reference ∈ (fragment.render types file).requests) :
    reference.progress = .pending := by
  rw [requests_of_elements] at member
  obtain ⟨element, _, asks⟩ := List.mem_filterMap.mp member
  obtain ⟨qualified, read, _⟩ := Resolution.resolve_asks types file element.rawType reference asks
  exact Reference.of_qualified_pending qualified reference read

theorem edge_ends (edge : Edge) (member : edge ∈ (fragment.render types file).edges) :
    edge.owner = fragment.name ∧ edge.target ≠ fragment.name := by
  rw [edges_of_elements] at member
  obtain ⟨element, _, declares⟩ := List.mem_filterMap.mp member
  exact Element.edge_ends types file fragment.name element edge declares

theorem finding_code (finding : Diagnostic) (member : finding ∈ (fragment.render types file).findings) :
    finding.code = .unparsableLine ∨ finding.code = .unresolvedType := by
  obtain ⟨yield, inside, yields⟩ := List.mem_filterMap.mp member
  obtain ⟨statement, _, rfl⟩ := List.mem_map.mp inside
  exact Yield.finding_of_statement types file fragment.name statement finding yields

end Fragment

end SchemaDiagram
