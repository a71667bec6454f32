import SchemaDiagram.Proofs.Elements
import SchemaDiagram.Proofs.Input

/-!
Which declaration an entity of a report stands for. A name is shown once, as its own file alone has it. A
declaration of the input stands unless one that was shown before it asked for its name elsewhere, and was
answered.
-/

set_option autoImplicit false

namespace SchemaDiagram

theorem entities_shown_once (source : Source) (settings : Settings) (input : Input) :
    let entities := (input.report source settings).entities
    (entities.map Entity.name).Nodup ∧
      ∀ entity ∈ entities, ∃ origin fragment,
        input.fileOf? source entity.source = some origin ∧
        origin.fragment? entity.name = some fragment ∧
        entity = (fragment.render settings.types origin).entity ∧
        entity.attributes = fragment.elements.map (Element.shown settings.types origin entity.name) := by
  intro entities
  obtain ⟨visits, rendered, _, ledger⟩ := input.run_ledger source settings
  have shown : entities = rendered.map Rendering.entity :=
    input.report_entities source settings visits rendered ledger
  refine ⟨?_, ?_⟩
  · have distinct := ledger.distinct
    rw [shown, List.map_map]
    exact distinct
  · rw [shown]
    intro entity member
    obtain ⟨rendering, inside, rfl⟩ := List.mem_map.mp member
    obtain ⟨origin, fragment, located, rfl⟩ :=
      input.fragment_of_emitted source settings _ rendered ledger.emitted rendering inside
    obtain ⟨file, opened, declared⟩ := Option.bind_eq_some_iff.mp located
    obtain ⟨first, found, same⟩ := Option.map_eq_some_iff.mp declared
    cases same
    exact ⟨origin, fragment, opened, found, rfl, fragment.attributes_of_elements settings.types origin⟩

-- What comes after `earlier` under the name of a declaration of the input: what answers the first of their
-- requests for that name, or else the declaration itself.
def Input.standing (source : Source) (settings : Settings) (input : Input) (earlier : List Entity)
    (fragment : Fragment) : Entity :=
  match ((earlier.flatMap (input.requests source settings)).find? (·.name = fragment.name)).bind
    (input.library source settings).find? with
  | none => (fragment.render settings.types (input.sourceFile source)).entity
  | some (origin, other) => (other.render settings.types origin).entity

-- A rendering of the input came about with no request for its name answered; any other answers the first.
theorem Input.standing_at (source : Source) (settings : Settings) (input : Input) (fragment : Fragment)
    (seen : List Fragment) (rendered earlier later : List Rendering) (rendering : Rendering)
    (emitted : Run.Emitted settings.types (input.library source settings) (input.sourceFile source) seen rendered)
    (split : rendered = earlier ++ rendering :: later) (named : rendering.name = fragment.name)
    (first : (input.sourceFile source).fragment? fragment.name = some fragment) :
    input.standing source settings (earlier.map Rendering.entity) fragment = rendering.entity := by
  have before : earlier ⊆ rendered := by
    rw [split]
    exact List.subset_append_left _ _
  rw [standing, input.requests_of_entities source settings seen rendered earlier emitted before]
  rcases Run.emitted_at _ _ _ seen rendered emitted earlier later rendering split with
    ⟨own, declared, rfl, unanswered⟩ | ⟨reference, request, origin, other, answer, rfl⟩
  · have called : own.name = fragment.name := named
    rw [called, first] at declared
    cases declared
    cases asks : (earlier.flatMap Rendering.requests).find? (·.name = fragment.name) with
    | none => rfl
    | some reference =>
      have request := mem_firsts_of_find Reference.name _ fragment.name reference asks
      have wanted : reference.name = fragment.name := by simpa using List.find?_some asks
      rw [Option.bind_some, unanswered reference request wanted]
  · have called : other.name = fragment.name := named
    have wanted := (Library.mem_fragments_of_find _ reference origin other answer).2
    have found := find_of_mem_firsts Reference.name _ reference request
    rw [← wanted, called] at found
    rw [found, Option.bind_some, answer]

theorem own_unless_asked_for (source : Source) (settings : Settings) (input : Input) (fragment : Fragment)
    (first : (input.sourceFile source).fragment? fragment.name = some fragment) :
    ∃ earlier later,
      (input.report source settings).entities =
        earlier ++ input.standing source settings earlier fragment :: later ∧
      (input.standing source settings earlier fragment).name = fragment.name ∧
      ∀ other ∈ earlier ++ later, other.name ≠ fragment.name := by
  obtain ⟨visits, rendered, _, ledger⟩ := input.run_ledger source settings
  have shown : fragment.name ∈ rendered.map Rendering.name :=
    ledger.shown fragment (SourceFile.fragment_found _ fragment.name fragment first).1
  obtain ⟨rendering, inside, named⟩ := List.mem_map.mp shown
  obtain ⟨earlier, later, split⟩ := List.append_of_mem inside
  have stands := input.standing_at source settings fragment _ rendered earlier later rendering ledger.emitted
    split named first
  have distinct := ledger.distinct
  rw [split, List.map_append, List.map_cons, List.nodup_middle, List.nodup_cons, ← List.map_append] at distinct
  refine ⟨earlier.map Rendering.entity, later.map Rendering.entity, ?_, ?_, ?_⟩
  · rw [stands, input.report_entities source settings visits rendered ledger, split]
    simp
  · rw [stands]
    exact named
  · intro other member same
    rw [← List.map_append] at member
    obtain ⟨another, among, rfl⟩ := List.mem_map.mp member
    apply distinct.1
    rw [named, ← same]
    exact List.mem_map_of_mem among

-- Two files of a namespace, of which the first refers to the second.
def twoFiles : Source where
  list _ := []
  read path :=
    if path = ⟨"d/c.cds"⟩ then some "namespace q;entity C{z:q.B;}"
    else if path = ⟨"d/d.cds"⟩ then some "namespace q;entity B{}"
    else none

-- A text that comes to the entity `B` of the second file before its own.
def namesake : Input :=
  .text "entity A{x:q.C;}entity B{y:UUID;}" [⟨"d/c.cds"⟩, ⟨"d/d.cds"⟩] none

def ownNamesake : Fragment := ⟨.entity, ['B'], "entity B{y:UUID;}"⟩

theorem foreign_namesake_stands :
    (namesake.sourceFile twoFiles).fragment? ownNamesake.name = some ownNamesake ∧
      ∃ earlier later,
        (namesake.report twoFiles {}).entities =
          earlier ++ namesake.standing twoFiles {} earlier ownNamesake :: later ∧
        (namesake.standing twoFiles {} earlier ownNamesake).name = ownNamesake.name ∧
        ∀ other ∈ earlier ++ later, other.name ≠ ownNamesake.name := by
  have first : (namesake.sourceFile twoFiles).fragment? ownNamesake.name = some ownNamesake := by
    decide +kernel
  exact ⟨first, own_unless_asked_for twoFiles {} namesake ownNamesake first⟩

theorem own_not_always_shown :
    ¬ ∀ (source : Source) (settings : Settings) (input : Input) (fragment : Fragment),
      (input.sourceFile source).fragment? fragment.name = some fragment →
        ∃ entity ∈ (input.report source settings).entities, entity.name = fragment.name ∧
          entity.source = input.path? ∧
          entity = (fragment.render settings.types (input.sourceFile source)).entity := by
  intro always
  have first : (namesake.sourceFile twoFiles).fragment? ownNamesake.name = some ownNamesake := by
    decide +kernel
  obtain ⟨entity, member, _, _, rfl⟩ := always twoFiles {} namesake ownNamesake first
  have absent : (ownNamesake.render (Settings.types {}) (namesake.sourceFile twoFiles)).entity ∉
      (namesake.report twoFiles {}).entities := by
    decide +kernel
  exact absent member

end SchemaDiagram
