import SchemaDiagram.Proofs.Clauses
import SchemaDiagram.Proofs.Relationships
import SchemaDiagram.Proofs.Requests

/-!
Edges between the entities of one text that has no candidates beside it. A plain clause connects its owner to
whatever label the table of types has for the name in it. Where that is the name itself the entity of that name
is reached, and an edge whose label names nothing in the text is dropped.
-/

set_option autoImplicit false

namespace SchemaDiagram

namespace Element

variable (types : TypeTable) (file : SourceFile) (owner : Text) (element : Element)

theorem edge_of_relation (relation : Relation) (outward : relation.target ≠ owner)
    (relates : (Resolution.resolve types file element.rawType).relation = some relation) :
    ∃ edge, element.edge? types file owner = some edge ∧ edge.pair = (owner, relation.target) := by
  refine ⟨Edge.ofClause (withoutRemarks element.statement) owner relation.target relation.kind, ?_, rfl⟩
  rw [edge?, outward?, relates, Option.filter_some, if_pos (by simpa using outward), Option.map_some]

theorem of_statement (statement name rawType : Text) (read : BodyLine.read statement = .element name rawType) :
    ofStatement? statement = some ⟨statement, name, rawType⟩ := by
  rw [ofStatement?, read]

end Element

theorem Fragment.pair_of_statement (types : TypeTable) (file : SourceFile) (fragment : Fragment)
    (statement name rawType : Text) (among : statement ∈ fragment.statements)
    (read : BodyLine.read statement = .element name rawType) (relation : Relation)
    (relates : (Resolution.resolve types file rawType).relation = some relation)
    (outward : relation.target ≠ fragment.name) :
    (fragment.name, relation.target) ∈ (fragment.render types file).edges.map Edge.pair := by
  obtain ⟨edge, declares, pair⟩ :=
    Element.edge_of_relation types file fragment.name ⟨statement, name, rawType⟩ relation outward relates
  rw [← pair, fragment.edges_of_elements types file]
  apply List.mem_map_of_mem
  have element : (⟨statement, name, rawType⟩ : Element) ∈ fragment.elements :=
    List.mem_filterMap.mpr ⟨statement, among, Element.of_statement statement name rawType read⟩
  exact List.mem_filterMap.mpr ⟨_, element, declares⟩

section

variable (source : Source) (settings : Settings) (given : Text) (title : Option Text)

-- A text with nothing to look its references up in.
def Input.alone (given : Text) (title : Option Text) : Input := .text given [] title

variable (visits : List Visit) (rendered : List Rendering)
  (ledger : Run.Ledger settings.types ((Input.alone given title).library source settings)
    ((Input.alone given title).sourceFile source) ((Input.alone given title).sourceFile source).fragments visits
    rendered [] ((Input.alone given title).run source settings))

include ledger

theorem Input.alone_rendered (rendering : Rendering) (member : rendering ∈ rendered) :
    ∃ fragment, ((Input.alone given title).sourceFile source).fragment? fragment.name = some fragment ∧
      rendering = fragment.render settings.types ((Input.alone given title).sourceFile source) := by
  obtain ⟨origin, fragment, same, first, place⟩ :=
    Run.emitted_origin _ _ _ _ rendered ledger.emitted rendering member
  rcases place with rfl | candidate
  · exact ⟨fragment, first, same⟩
  · cases candidate

theorem Input.alone_renders (fragment : Fragment)
    (first : ((Input.alone given title).sourceFile source).fragment? fragment.name = some fragment) :
    fragment.render settings.types ((Input.alone given title).sourceFile source) ∈ rendered := by
  have shown := ledger.shown fragment (SourceFile.fragment_found _ fragment.name fragment first).1
  obtain ⟨rendering, member, named⟩ := List.mem_map.mp shown
  obtain ⟨other, found, rfl⟩ := Input.alone_rendered source settings given title visits rendered ledger rendering member
  have called : other.name = fragment.name := named
  rw [called, first] at found
  cases found
  exact member

theorem Input.alone_names (name : Text) :
    name ∈ rendered.map Rendering.name ↔ name ∈ (Input.alone given title).ownNames source := by
  constructor
  · intro shown
    obtain ⟨rendering, member, rfl⟩ := List.mem_map.mp shown
    obtain ⟨fragment, first, rfl⟩ :=
      Input.alone_rendered source settings given title visits rendered ledger rendering member
    exact List.mem_map_of_mem (SourceFile.fragment_found _ fragment.name fragment first).1
  · intro own
    obtain ⟨fragment, declared, rfl⟩ := List.mem_map.mp own
    exact ledger.shown fragment declared

theorem Input.alone_pair (owner : Fragment)
    (first : ((Input.alone given title).sourceFile source).fragment? owner.name = some owner)
    (statement name rawType : Text) (among : statement ∈ owner.statements)
    (read : BodyLine.read statement = .element name rawType) (relation : Relation)
    (relates : (Resolution.resolve settings.types ((Input.alone given title).sourceFile source)
      rawType).relation = some relation) :
    (owner.name, relation.target) ∈ ((Input.alone given title).report source settings).edges.map Edge.pair ↔
      relation.target ≠ owner.name ∧ relation.target ∈ (Input.alone given title).ownNames source := by
  obtain ⟨told, named, edges, _⟩ :=
    (Input.alone given title).report_registered source settings visits rendered ledger
  rw [edges, Edge.pair_among_kept, key_of_firsts, named,
    Input.alone_names source settings given title visits rendered ledger,
    (Input.alone given title).report_entities source settings visits rendered ledger,
    (Input.alone given title).edges_told_by_entities source settings _ rendered ledger.emitted]
  constructor
  · rintro ⟨pair, shown⟩
    obtain ⟨edge, member, same⟩ := List.mem_map.mp pair
    obtain ⟨_, apart⟩ :=
      (Input.alone given title).emitted_edge_ends source settings _ rendered ledger.emitted edge member
    obtain ⟨own, reached⟩ := Prod.mk.inj same
    rw [own, reached] at apart
    exact ⟨apart, shown⟩
  · rintro ⟨outward, shown⟩
    refine ⟨?_, shown⟩
    have pair := owner.pair_of_statement settings.types ((Input.alone given title).sourceFile source) statement name
      rawType among read relation relates outward
    obtain ⟨edge, member, same⟩ := List.mem_map.mp pair
    rw [← same]
    apply List.mem_map_of_mem
    exact List.mem_flatMap.mpr
      ⟨_, Input.alone_renders source settings given title visits rendered ledger owner first, member⟩

end

-- A relationship between two entities of a text, of which a project shows the second under another label.
def genres : Text := "entity A{g:Association to Genre;}entity Genre{}"

def genreOwner : Fragment := ⟨.entity, ['A'], "entity A{g:Association to Genre;}"⟩

def genreTarget : Fragment := ⟨.entity, "Genre", "entity Genre{}"⟩

def relabelling : Settings := { projectTypes := [("Genre", "Kind")] }

theorem genres_declared :
    ((Input.alone genres none).sourceFile twoFiles).fragment? genreOwner.name = some genreOwner ∧
      ((Input.alone genres none).sourceFile twoFiles).fragment? genreTarget.name = some genreTarget ∧
      "g:Association to Genre".toList ∈ genreOwner.statements ∧
      BodyLine.read "g:Association to Genre" = .element ['g'] "Association to Genre" ∧
      ((Input.alone genres none).report twoFiles relabelling).edges = [] := by
  decide +kernel

end SchemaDiagram
