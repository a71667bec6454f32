import SchemaDiagram.Proofs.Candidates
import SchemaDiagram.Proofs.Entities

/-!
What following references brings into a report. Of the requests for a name only the first is looked up. If a
candidate answers it, the name is shown; and nothing is shown that the input does not declare unless it was
asked for earlier, and then it is read from the first candidate that answers.
-/

set_option autoImplicit false

namespace SchemaDiagram

namespace Run

variable (types : TypeTable) (library : Library) (file : SourceFile) (seen : List Fragment) (visits : List Visit)
  (rendered : List Rendering) (run : Run)

-- The first request for a name is the one that the run kept, and looked up.
theorem ledger_first (ledger : Ledger types library file seen visits rendered [] run) (name : Text) :
    run.worklist.find? name =
      ((rendered.flatMap Rendering.requests).find? (·.name = name)).map Reference.drained := by
  have asked := ledger.asked
  rw [List.append_nil] at asked
  rw [← find_firsts Reference.name, ← asked, ledger.worklist, Worklist.find?, Worklist.after, List.append_nil,
    List.find?_map]
  rfl

theorem ledger_answered (ledger : Ledger types library file seen visits rendered [] run) (reference : Reference)
    (first : (rendered.flatMap Rendering.requests).find? (·.name = reference.name) = some reference)
    (answer : (library.find? reference).isSome = true) : reference.name ∈ rendered.map Rendering.name := by
  by_contra absent
  have asked := mem_firsts_of_find Reference.name _ reference.name reference first
  rw [ledger_unanswered types library file seen visits rendered run ledger reference.name absent reference asked
    rfl] at answer
  contradiction

-- A request that came first among some renderings stays the first when others come behind them.
theorem first_stays (earlier later : List Rendering) (reference : Reference)
    (asked : reference ∈ firsts Reference.name (earlier.flatMap Rendering.requests)) :
    ((earlier ++ later).flatMap Rendering.requests).find? (·.name = reference.name) = some reference := by
  rw [List.flatMap_append, List.find?_append, find_of_mem_firsts Reference.name _ reference asked]
  rfl

end Run

namespace Input

variable (source : Source) (settings : Settings) (input : Input)

def ownNames : List Text := (input.sourceFile source).fragments.map Fragment.name

-- The input's own entity of a name, as it is without any other file.
def own? (name : Text) : Option Entity :=
  ((input.sourceFile source).fragment? name).map fun fragment =>
    (fragment.render settings.types (input.sourceFile source)).entity

-- One of the entities before it asks for the name, and of all requests for it the run kept that one. The file
-- is the first candidate that answers.
def AskedFor (earlier : List Entity) (entity : Entity) : Prop :=
  ∃ reference path,
    (∃ asker ∈ earlier, reference ∈ input.requests source settings asker) ∧
    reference.name = entity.name ∧
    (input.run source settings).worklist.find? entity.name = some reference.drained ∧
    (input.candidates source settings).find? (source.answers reference) = some path ∧
    entity.source = some path

variable (visits : List Visit) (rendered : List Rendering)
  (ledger : Run.Ledger settings.types (input.library source settings) (input.sourceFile source)
    (input.sourceFile source).fragments visits rendered [] (input.run source settings))

include ledger

theorem report_requests :
    (input.report source settings).entities.flatMap (input.requests source settings) =
      rendered.flatMap Rendering.requests := by
  rw [input.report_entities source settings visits rendered ledger]
  exact input.requests_of_entities source settings _ rendered rendered ledger.emitted (List.Subset.refl _)

theorem report_names :
    (input.report source settings).entities.map Entity.name = rendered.map Rendering.name := by
  rw [input.report_entities source settings visits rendered ledger, List.map_map]
  rfl

theorem origin_at (earlier later : List Rendering) (rendering : Rendering)
    (split : rendered = earlier ++ rendering :: later) :
    (rendering.name ∈ input.ownNames source ∧
      input.own? source settings rendering.name = some rendering.entity) ∨
    ∃ reference path, reference ∈ earlier.flatMap Rendering.requests ∧ reference.name = rendering.name ∧
      (rendered.flatMap Rendering.requests).find? (·.name = rendering.name) = some reference ∧
      (input.candidates source settings).find? (source.answers reference) = some path ∧
      rendering.entity.source = some path := by
  rcases Run.emitted_at _ _ _ _ rendered ledger.emitted earlier later rendering split with
    ⟨fragment, declared, rfl, _⟩ | ⟨reference, asked, origin, fragment, answer, rfl⟩
  · refine .inl ⟨List.mem_map_of_mem (SourceFile.fragment_found _ fragment.name fragment declared).1, ?_⟩
    change input.own? source settings fragment.name = _
    rw [own?, declared]
    rfl
  · have named : (fragment.render settings.types origin).name = reference.name :=
      (Library.mem_fragments_of_find _ reference origin fragment answer).2
    obtain ⟨path, chosen, located⟩ :=
      source.first_answer reference (input.candidates source settings) origin fragment answer
    have first := Run.first_stays earlier (fragment.render settings.types origin :: later) reference asked
    rw [← split, ← named] at first
    exact .inr ⟨reference, path, mem_of_mem_firsts Reference.name _ reference asked, named.symm, first, chosen,
      located⟩

theorem first_decides (first : Reference)
    (found : (rendered.flatMap Rendering.requests).find? (·.name = first.name) = some first) :
    first.name ∈ rendered.map Rendering.name ↔
      first.name ∈ input.ownNames source ∨
        ∃ path ∈ input.candidates source settings, source.answers first path = true := by
  constructor
  · intro inside
    obtain ⟨rendering, among, called⟩ := List.mem_map.mp inside
    obtain ⟨earlier, later, split⟩ := List.append_of_mem among
    rcases input.origin_at source settings visits rendered ledger earlier later rendering split with
      ⟨own, _⟩ | ⟨reference, path, _, _, asked, chosen, _⟩
    · exact .inl (called ▸ own)
    · rw [called, found] at asked
      cases asked
      exact .inr ⟨path, List.mem_of_find?_eq_some chosen, List.find?_some chosen⟩
  · rintro (own | ⟨path, candidate, answers⟩)
    · obtain ⟨fragment, declared, called⟩ := List.mem_map.mp own
      exact called ▸ ledger.shown fragment declared
    · apply Run.ledger_answered _ _ _ _ visits rendered _ ledger first found
      by_contra silent
      rw [Option.not_isSome_iff_eq_none] at silent
      have refused := (source.no_answer_iff first _).mp silent path candidate
      rw [answers] at refused
      contradiction

end Input

-- Of all requests for a name the first decides. What later ones ask for makes no difference.
theorem requested_shown_iff (source : Source) (settings : Settings) (input : Input) (entity : Entity)
    (reference : Reference) (shown : entity ∈ (input.report source settings).entities)
    (asks : reference ∈ input.requests source settings entity) :
    let report := input.report source settings
    let asked := report.entities.flatMap (input.requests source settings)
    ∃ first, asked.find? (·.name = reference.name) = some first ∧
      (input.run source settings).worklist.find? reference.name = some first.drained ∧
      (reference.name ∈ report.entities.map Entity.name ↔
        reference.name ∈ input.ownNames source ∨
          ∃ path ∈ input.candidates source settings, source.answers first path = true) := by
  intro report asked
  obtain ⟨visits, rendered, _, ledger⟩ := input.run_ledger source settings
  have told : asked = rendered.flatMap Rendering.requests :=
    input.report_requests source settings visits rendered ledger
  have some : (asked.find? (·.name = reference.name)).isSome = true :=
    List.find?_isSome.mpr ⟨reference, List.mem_flatMap.mpr ⟨entity, shown, asks⟩, decide_eq_true rfl⟩
  obtain ⟨first, found⟩ := Option.isSome_iff_exists.mp some
  have same : first.name = reference.name := by simpa using List.find?_some found
  have kept := Run.ledger_first _ _ _ _ visits rendered _ ledger reference.name
  rw [← told, found] at kept
  have decides := input.first_decides source settings visits rendered ledger first
    (by rw [same, ← told]; exact found)
  rw [same, ← input.report_names source settings visits rendered ledger] at decides
  exact ⟨first, found, kept, decides⟩

-- A text that asks for `B` in two namespaces, the second of which has it.
def twoNamespaces : Input := .text "entity A{x:p.B;y:q.B;}" [⟨"d/c.cds"⟩, ⟨"d/d.cds"⟩] none

def askingTwice : Entity :=
  ⟨['A'], .entity, [.typed ⟨['x'], "p.B", ['B'], false⟩, .typed ⟨['y'], "q.B", ['B'], false⟩], none⟩

theorem asks_twice :
    askingTwice ∈ (twoNamespaces.report twoFiles {}).entities ∧
      ⟨['q'], ['B'], .pending⟩ ∈ twoNamespaces.requests twoFiles {} askingTwice := by
  decide +kernel

theorem second_request_decided :
    (askingTwice ∈ (twoNamespaces.report twoFiles {}).entities ∧
      ⟨['q'], ['B'], .pending⟩ ∈ twoNamespaces.requests twoFiles {} askingTwice) ∧
    ∃ first,
      ((twoNamespaces.report twoFiles {}).entities.flatMap (twoNamespaces.requests twoFiles {})).find?
          (·.name = ['B']) = some first ∧
        (twoNamespaces.run twoFiles {}).worklist.find? ['B'] = some first.drained ∧
        (['B'] ∈ (twoNamespaces.report twoFiles {}).entities.map Entity.name ↔
          ['B'] ∈ twoNamespaces.ownNames twoFiles ∨
            ∃ path ∈ twoNamespaces.candidates twoFiles {}, twoFiles.answers first path = true) :=
  ⟨asks_twice, requested_shown_iff twoFiles {} twoNamespaces askingTwice _ asks_twice.1 asks_twice.2⟩

theorem answered_not_always_shown :
    ¬ ∀ (source : Source) (settings : Settings) (input : Input),
      ∀ entity ∈ (input.report source settings).entities,
        ∀ reference ∈ input.requests source settings entity,
          (∃ path ∈ input.candidates source settings, source.answers reference path = true) →
            reference.name ∈ (input.report source settings).entities.map Entity.name := by
  intro always
  have answered : twoFiles.answers ⟨['q'], ['B'], .pending⟩ ⟨"d/d.cds"⟩ = true := by decide +kernel
  have absent : ['B'] ∉ (twoNamespaces.report twoFiles {}).entities.map Entity.name := by decide +kernel
  apply absent
  apply always twoFiles {} twoNamespaces askingTwice asks_twice.1 ⟨['q'], ['B'], .pending⟩ asks_twice.2
  exact ⟨⟨"d/d.cds"⟩, by simp [twoNamespaces, Input.candidates], answered⟩

theorem own_or_requested (source : Source) (settings : Settings) (input : Input) (earlier later : List Entity)
    (entity : Entity) (split : (input.report source settings).entities = earlier ++ entity :: later) :
    (entity.name ∈ input.ownNames source ∧ input.own? source settings entity.name = some entity) ∨
      input.AskedFor source settings earlier entity := by
  obtain ⟨visits, rendered, _, ledger⟩ := input.run_ledger source settings
  rw [input.report_entities source settings visits rendered ledger] at split
  obtain ⟨before, rest, parts, rfl, behind⟩ := List.map_eq_append_iff.mp split
  obtain ⟨rendering, others, rfl, rfl, rfl⟩ := List.map_eq_cons_iff.mp behind
  rcases input.origin_at source settings visits rendered ledger before others rendering parts with
    own | ⟨reference, path, asked, named, first, chosen, located⟩
  · exact .inl own
  · have kept := Run.ledger_first _ _ _ _ visits rendered _ ledger rendering.name
    rw [first] at kept
    rw [← input.requests_of_entities source settings _ rendered before ledger.emitted
      (parts ▸ List.subset_append_left _ _)] at asked
    exact .inr ⟨reference, path, List.mem_flatMap.mp asked, named, kept, chosen, located⟩

-- A text that asks for `C`, which asks for `B`.
def chain : Input := .text "entity A{x:q.C;}" [⟨"d/c.cds"⟩, ⟨"d/d.cds"⟩] none

def chainHead : List Entity :=
  [⟨['A'], .entity, [.typed ⟨['x'], "q.C", ['C'], false⟩], none⟩,
    ⟨['C'], .entity, [.typed ⟨['z'], "q.B", ['B'], false⟩], some ⟨"d/c.cds"⟩⟩]

def chainEnd : Entity := ⟨['B'], .entity, [], some ⟨"d/d.cds"⟩⟩

theorem chain_end_asked_for :
    (chain.report twoFiles {}).entities = chainHead ++ chainEnd :: [] ∧
      chainEnd.name ∉ chain.ownNames twoFiles ∧ chain.AskedFor twoFiles {} chainHead chainEnd := by
  have split : (chain.report twoFiles {}).entities = chainHead ++ chainEnd :: [] := by decide +kernel
  have foreign : chainEnd.name ∉ chain.ownNames twoFiles := by decide +kernel
  refine ⟨split, foreign, ?_⟩
  rcases own_or_requested twoFiles {} chain chainHead [] chainEnd split with own | asked
  · exact absurd own.1 foreign
  · exact asked

end SchemaDiagram
