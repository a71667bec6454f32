import SchemaDiagram.Proofs.Course
import SchemaDiagram.Proofs.Elements
import SchemaDiagram.Proofs.Worklist

/-!
What a run has to show at any moment, told by the renderings it took in and the references it handed out.
Catalog, registry and list of references are functions of these two lists, and each rendering is that of
a declaration in its own file.
-/

set_option autoImplicit false

namespace SchemaDiagram

namespace Rendering

def name (rendering : Rendering) : Text := rendering.entity.name
def entry (rendering : Rendering) : Entity × Text := (rendering.entity, rendering.entity.block)

theorem still_named (rendered : List Rendering) (rendering : Rendering) (name : Text)
    (member : name ∈ rendered.map Rendering.name) : name ∈ (rendered ++ [rendering]).map Rendering.name := by
  rw [List.map_append]
  exact List.mem_append_left _ member

end Rendering

namespace Catalog

theorem contains_iff (catalog : Catalog) (name : Text) :
    catalog.contains name = true ↔ name ∈ catalog.entities.map Entity.name := by
  simp [contains, find?, entities]

theorem insert_fresh (catalog : Catalog) (entity : Entity) (text : Text)
    (fresh : catalog.contains entity.name = false) :
    (catalog.insert entity text).entries = catalog.entries ++ [(entity, text)] := by
  rw [insert, if_neg (by simp [fresh])]

end Catalog

namespace Run

variable (types : TypeTable) (library : Library) (file : SourceFile)

-- The order in which renderings come about. One of the input is the first of its name there, and no request
-- for the name that was made earlier has an answer. Any other answers the first request for its name.
inductive Emitted (seen : List Fragment) : List Rendering → Prop
  | none : Emitted seen []
  | own (rendered : List Rendering) (fragment : Fragment) (before : Emitted seen rendered)
      (member : fragment ∈ seen) (first : file.fragment? fragment.name = some fragment)
      (unanswered : ∀ reference ∈ firsts Reference.name (rendered.flatMap Rendering.requests),
        reference.name = fragment.name → library.find? reference = none) :
      Emitted seen (rendered ++ [fragment.render types file])
  | foreign (rendered : List Rendering) (reference : Reference) (origin : SourceFile) (fragment : Fragment)
      (before : Emitted seen rendered)
      (asked : reference ∈ firsts Reference.name (rendered.flatMap Rendering.requests))
      (answer : library.find? reference = some (origin, fragment)) :
      Emitted seen (rendered ++ [fragment.render types origin])

structure Ledger (seen : List Fragment) (visits : List Visit) (rendered : List Rendering)
    (waiting : List Reference) (run : Run) : Prop where
  emitted : Emitted types library file seen rendered
  distinct : (rendered.map Rendering.name).Nodup
  catalog : run.catalog.entries = rendered.map Rendering.entry
  registry : run.registry.edges = firsts Edge.pair (rendered.flatMap Rendering.edges)
  asked : visits.map Visit.reference ++ waiting = firsts Reference.name (rendered.flatMap Rendering.requests)
  worklist : run.worklist = Worklist.after (visits.map Visit.reference) waiting
  shown : ∀ fragment ∈ seen, fragment.name ∈ rendered.map Rendering.name
  answered : ∀ visit ∈ visits,
    visit.reference.name ∈ rendered.map Rendering.name ∨ library.find? visit.reference = none

theorem emitted_more (seen more : List Fragment) (rendered : List Rendering)
    (emitted : Emitted types library file seen rendered) :
    Emitted types library file (seen ++ more) rendered := by
  induction emitted with
  | none => exact .none
  | own rendered fragment _ member first unanswered ih =>
    exact .own rendered fragment ih (List.mem_append_left _ member) first unanswered
  | foreign rendered reference origin fragment _ asked answer ih =>
    exact .foreign rendered reference origin fragment ih asked answer

theorem last_or_before (rendered earlier later : List Rendering) (last rendering : Rendering)
    (split : rendered ++ [last] = earlier ++ rendering :: later) :
    (rendered = earlier ∧ last = rendering) ∨ ∃ before, rendered = earlier ++ rendering :: before := by
  rcases List.eq_nil_or_concat later with rfl | ⟨before, _, rfl⟩
  · obtain ⟨same, one⟩ := List.append_inj' split rfl
    exact .inl ⟨same, List.head_eq_of_cons_eq one⟩
  · rw [List.concat_eq_append, ← List.cons_append, ← List.append_assoc] at split
    exact .inr ⟨before, (List.append_inj' split rfl).1⟩

theorem emitted_at (seen : List Fragment) (rendered : List Rendering)
    (emitted : Emitted types library file seen rendered) (earlier later : List Rendering) (rendering : Rendering)
    (split : rendered = earlier ++ rendering :: later) :
    (∃ fragment, file.fragment? fragment.name = some fragment ∧ rendering = fragment.render types file ∧
      ∀ reference ∈ firsts Reference.name (earlier.flatMap Rendering.requests),
        reference.name = fragment.name → library.find? reference = none) ∨
    ∃ reference ∈ firsts Reference.name (earlier.flatMap Rendering.requests), ∃ origin fragment,
      library.find? reference = some (origin, fragment) ∧ rendering = fragment.render types origin := by
  induction emitted generalizing later with
  | none => simp at split
  | own rendered fragment _ member first unanswered ih =>
    rcases last_or_before rendered earlier later _ rendering split with ⟨rfl, rfl⟩ | ⟨before, inside⟩
    · exact .inl ⟨fragment, first, rfl, unanswered⟩
    · exact ih before inside
  | foreign rendered reference origin fragment _ asked answer ih =>
    rcases last_or_before rendered earlier later _ rendering split with ⟨rfl, rfl⟩ | ⟨before, inside⟩
    · exact .inr ⟨reference, asked, origin, fragment, answer, rfl⟩
    · exact ih before inside

theorem emitted_origin (seen : List Fragment) (rendered : List Rendering)
    (emitted : Emitted types library file seen rendered) (rendering : Rendering)
    (member : rendering ∈ rendered) :
    ∃ origin fragment, rendering = fragment.render types origin ∧
      origin.fragment? fragment.name = some fragment ∧ (origin = file ∨ origin ∈ library.files) := by
  obtain ⟨earlier, later, split⟩ := List.append_of_mem member
  rcases emitted_at types library file seen rendered emitted earlier later rendering split with
    ⟨fragment, first, same, _⟩ | ⟨reference, _, origin, fragment, answer, same⟩
  · exact ⟨file, fragment, same, first, .inl rfl⟩
  · obtain ⟨candidate, _, first⟩ := Library.origin_of_find library reference origin fragment answer
    have named := (Library.mem_fragments_of_find library reference origin fragment answer).2
    rw [← named] at first
    exact ⟨origin, fragment, same, first, .inr candidate⟩

theorem emitted_pending (seen : List Fragment) (rendered : List Rendering)
    (emitted : Emitted types library file seen rendered) (reference : Reference)
    (member : reference ∈ firsts Reference.name (rendered.flatMap Rendering.requests)) :
    reference.progress = .pending := by
  obtain ⟨rendering, inside, asks⟩ := List.mem_flatMap.mp (mem_of_mem_firsts Reference.name _ reference member)
  obtain ⟨origin, fragment, rfl, _⟩ := emitted_origin types library file seen rendered emitted rendering inside
  exact Fragment.request_pending types origin fragment reference asks

theorem ledger_start (start : Run) (catalog : start.catalog = {}) (registry : start.registry = {})
    (worklist : start.worklist = {}) : Ledger types library file [] [] [] [] start where
  emitted := .none
  distinct := List.nodup_nil
  catalog := by rw [catalog]; rfl
  registry := by rw [registry]; rfl
  asked := rfl
  worklist := worklist
  shown := by simp
  answered := by simp

variable (seen : List Fragment) (visits : List Visit) (rendered : List Rendering) (waiting : List Reference)
  (run : Run)

theorem ledger_contains (ledger : Ledger types library file seen visits rendered waiting run) (name : Text) :
    run.catalog.contains name = true ↔ name ∈ rendered.map Rendering.name := by
  rw [Catalog.contains_iff, Catalog.entities, ledger.catalog]
  simp [Rendering.entry, Rendering.name, Function.comp_def]

theorem ledger_absent (ledger : Ledger types library file seen visits rendered waiting run) (name : Text)
    (absent : run.catalog.contains name = false) : name ∉ rendered.map Rendering.name := by
  intro member
  rw [(ledger_contains types library file seen visits rendered waiting run ledger name).mpr member] at absent
  contradiction

theorem ledger_held (held : Reference) (later : List Reference)
    (ledger : Ledger types library file seen visits rendered (held :: later) run) :
    run.worklist.next? = some (held, Worklist.holding (visits.map Visit.reference) held later) ∧
      ((visits.map Visit.reference ++ held :: later).map Reference.name).Nodup := by
  have distinct := firsts_nodup Reference.name (rendered.flatMap Rendering.requests)
  have pending : held.progress = .pending := by
    apply emitted_pending types library file seen rendered ledger.emitted
    rw [← ledger.asked]
    simp
  rw [← ledger.asked] at distinct
  rw [ledger.worklist]
  exact ⟨Worklist.next_after _ later held distinct pending, distinct⟩

theorem ledger_next (ledger : Ledger types library file seen visits rendered waiting run)
    (reference : Reference) (rest : Worklist) (next : run.worklist.next? = some (reference, rest)) :
    ∃ later, waiting = reference :: later ∧
      rest = Worklist.holding (visits.map Visit.reference) reference later ∧
      ((visits.map Visit.reference ++ reference :: later).map Reference.name).Nodup := by
  cases waiting with
  | nil =>
    rw [ledger.worklist, Worklist.next_after_all] at next
    contradiction
  | cons held later =>
    obtain ⟨handed, distinct⟩ := ledger_held types library file seen visits rendered run held later ledger
    rw [handed] at next
    cases next
    exact ⟨later, rfl, rfl, distinct⟩

-- What one more rendering changes, whatever it does to the references.
theorem ledger_add (ledger : Ledger types library file seen visits rendered waiting run) (rendering : Rendering)
    (fresh : run.catalog.contains rendering.name = false) (worklist : Worklist) :
    let after := add { run with worklist } rendering
    ((rendered ++ [rendering]).map Rendering.name).Nodup ∧
      after.catalog.entries = (rendered ++ [rendering]).map Rendering.entry ∧
      after.registry.edges = firsts Edge.pair ((rendered ++ [rendering]).flatMap Rendering.edges) ∧
      firsts Reference.name ((rendered ++ [rendering]).flatMap Rendering.requests) =
        visits.map Visit.reference ++ (waiting ++ firstsBeyond Reference.name
          ((visits.map Visit.reference ++ waiting).map Reference.name) rendering.requests) := by
  refine ⟨?_, ?_, ?_, ?_⟩
  · rw [List.map_append, List.map_cons, List.map_nil, ← List.concat_eq_append]
    exact ledger.distinct.concat
      (ledger_absent types library file seen visits rendered waiting run ledger rendering.name fresh)
  · rw [add, Catalog.insert_fresh _ _ _ fresh, ledger.catalog, List.map_append]
    rfl
  · rw [add, Registry.add_all_edges, List.flatMap_append, firsts_append, ledger.registry]
    simp
  · rw [List.flatMap_append, firsts_append, ← ledger.asked]
    simp

-- A round that renders nothing only moves a reference from those that wait to those handed out.
theorem ledger_pass (reference : Reference) (later : List Reference) (searched : Bool) (after : Run)
    (ledger : Ledger types library file seen visits rendered (reference :: later) run)
    (distinct : ((visits.map Visit.reference ++ reference :: later).map Reference.name).Nodup)
    (catalog : after.catalog = run.catalog) (registry : after.registry = run.registry)
    (worklist : after.worklist =
      (Worklist.holding (visits.map Visit.reference) reference later).mark reference.name .drained)
    (answered : reference.name ∈ rendered.map Rendering.name ∨ library.find? reference = none) :
    Ledger types library file seen (visits ++ [⟨reference, searched⟩]) rendered later after where
  emitted := ledger.emitted
  distinct := ledger.distinct
  catalog := by rw [catalog, ledger.catalog]
  registry := by rw [registry, ledger.registry]
  asked := by simpa using ledger.asked
  worklist := by
    rw [worklist, List.map_append]
    exact Worklist.settle_held _ later reference reference.progress distinct
  shown := ledger.shown
  answered := by
    intro visit member
    rcases List.mem_append.mp member with old | new
    · exact ledger.answered visit old
    · rw [List.mem_singleton.mp new]
      exact answered

theorem ledger_found (reference : Reference) (later : List Reference) (origin : SourceFile)
    (fragment : Fragment) (ledger : Ledger types library file seen visits rendered (reference :: later) run)
    (distinct : ((visits.map Visit.reference ++ reference :: later).map Reference.name).Nodup)
    (absent : run.catalog.contains reference.name = false)
    (answer : library.find? reference = some (origin, fragment)) :
    ∃ new, Ledger types library file seen (visits ++ [⟨reference, true⟩])
      (rendered ++ [fragment.render types origin]) (later ++ new)
      (((mark { run with worklist := Worklist.holding (visits.map Visit.reference) reference later }
        reference.name .resolved).add (fragment.render types origin)).mark reference.name .drained) := by
  have named : (fragment.render types origin).name = reference.name :=
    (Library.mem_fragments_of_find library reference origin fragment answer).2
  obtain ⟨unique, catalog, registry, asked⟩ :=
    ledger_add types library file seen visits rendered _ run ledger (fragment.render types origin)
      (by rw [named]; exact absent)
      ((Worklist.holding (visits.map Visit.reference) reference later).mark reference.name .resolved)
  refine ⟨firstsBeyond Reference.name ((visits.map Visit.reference ++ reference :: later).map Reference.name)
    (fragment.render types origin).requests, ⟨?_, unique, catalog, registry, ?_, ?_, ?_, ?_⟩⟩
  · apply Emitted.foreign rendered reference origin fragment ledger.emitted _ answer
    rw [← ledger.asked]
    simp
  · rw [asked]
    simp
  · have extended := firsts_nodup Reference.name
      ((rendered ++ [fragment.render types origin]).flatMap Rendering.requests)
    rw [asked, List.cons_append] at extended
    simp only [mark, add]
    rw [Worklist.advance_held _ later reference .resolved distinct, Worklist.add_all_holding,
      Worklist.settle_held _ _ reference .resolved extended]
    simp
  · intro fragment member
    exact Rendering.still_named rendered _ fragment.name (ledger.shown fragment member)
  · intro visit member
    rcases List.mem_append.mp member with old | new
    · rcases ledger.answered visit old with inside | missing
      · exact .inl (Rendering.still_named rendered _ visit.reference.name inside)
      · exact .inr missing
    · rw [List.mem_singleton.mp new]
      refine .inl ?_
      rw [← named]
      simp

theorem round_ledger (ledger : Ledger types library file seen visits rendered waiting run) (visit : Visit)
    (after : Run) (round : Round types library run visit after) :
    ∃ rendered' waiting', Ledger types library file seen (visits ++ [visit]) rendered' waiting' after := by
  cases round with
  | known reference rest next shown =>
    obtain ⟨later, rfl, rfl, distinct⟩ :=
      ledger_next types library file seen visits rendered waiting run ledger reference rest next
    have inside := (ledger_contains types library file seen visits rendered _ run ledger _).mp shown
    exact ⟨rendered, later, ledger_pass types library file seen visits rendered run reference later false _
      ledger distinct rfl rfl rfl (.inl inside)⟩
  | found reference rest origin fragment next absent answer =>
    obtain ⟨later, rfl, rfl, distinct⟩ :=
      ledger_next types library file seen visits rendered waiting run ledger reference rest next
    obtain ⟨new, found⟩ := ledger_found types library file seen visits rendered run reference later origin
      fragment ledger distinct absent answer
    exact ⟨_, _, found⟩
  | missing reference rest next absent answer =>
    obtain ⟨later, rfl, rfl, distinct⟩ :=
      ledger_next types library file seen visits rendered waiting run ledger reference rest next
    exact ⟨rendered, later, ledger_pass types library file seen visits rendered run reference later true _
      ledger distinct rfl rfl rfl (.inr answer)⟩

theorem rounds_ledger (more : List Visit) (final : Run) (rounds : Rounds types library run more final)
    (ledger : Ledger types library file seen visits rendered waiting run) :
    ∃ rendered', Ledger types library file seen (visits ++ more) rendered' [] final := by
  induction rounds generalizing visits rendered waiting with
  | idle run next =>
    cases waiting with
    | nil =>
      have nothing := ledger.worklist
      refine ⟨rendered, ?_⟩
      rw [List.append_nil, nothing, Worklist.exhausted_after_all, ← nothing]
      exact ledger
    | cons held later =>
      rw [(ledger_held types library file seen visits rendered run held later ledger).1] at next
      contradiction
  | round run middle final visit later first _ ih =>
    obtain ⟨rendered', waiting', middleLedger⟩ :=
      round_ledger types library file seen visits rendered waiting run ledger visit middle first
    obtain ⟨rendered'', finalLedger⟩ := ih (visits ++ [visit]) rendered' waiting' middleLedger
    exact ⟨rendered'', by simpa using finalLedger⟩

theorem first_unseen (fragment : Fragment) (rest : List Fragment)
    (next : file.fragments = seen ++ fragment :: rest)
    (unseen : ∀ earlier ∈ seen, earlier.name ≠ fragment.name) :
    file.fragment? fragment.name = some fragment := by
  have absent : seen.find? (·.name = fragment.name) = none := by
    rw [List.find?_eq_none]
    intro earlier member same
    exact unseen earlier member (of_decide_eq_true same)
  rw [SourceFile.fragment?, next, List.find?_append, absent]
  simp

-- With no reference waiting, whatever was asked for is rendered or has no answer.
theorem ledger_unanswered (ledger : Ledger types library file seen visits rendered [] run) (name : Text)
    (absent : name ∉ rendered.map Rendering.name) (reference : Reference)
    (asked : reference ∈ firsts Reference.name (rendered.flatMap Rendering.requests))
    (named : reference.name = name) : library.find? reference = none := by
  rw [← ledger.asked, List.append_nil] at asked
  obtain ⟨visit, member, rfl⟩ := List.mem_map.mp asked
  rcases ledger.answered visit member with shown | missing
  · exact absurd (named ▸ shown) absent
  · exact missing

-- The next declaration of the input comes up when no reference waits.
theorem render_ledger (fragment : Fragment) (rest : List Fragment)
    (next : file.fragments = seen ++ fragment :: rest)
    (ledger : Ledger types library file seen visits rendered [] run) :
    ∃ rendered' waiting', Ledger types library file (seen ++ [fragment]) visits rendered' waiting'
      (run.render types file fragment) := by
  have emitted := emitted_more types library file seen [fragment] rendered ledger.emitted
  cases shown : run.catalog.contains fragment.name with
  | true =>
    rw [render_known types file fragment run shown]
    refine ⟨rendered, [], ⟨emitted, ledger.distinct, ledger.catalog, ledger.registry, ledger.asked,
      ledger.worklist, ?_, ledger.answered⟩⟩
    intro earlier member
    rcases List.mem_append.mp member with old | new
    · exact ledger.shown earlier old
    · rw [List.mem_singleton.mp new]
      exact (ledger_contains types library file seen visits rendered [] run ledger _).mp shown
  | false =>
    rw [render_fresh types file fragment run shown]
    have absent := ledger_absent types library file seen visits rendered [] run ledger fragment.name shown
    have first := first_unseen file seen fragment rest next fun earlier member same =>
      absent (same ▸ ledger.shown earlier member)
    obtain ⟨unique, catalog, registry, asked⟩ := ledger_add types library file seen visits rendered [] run
      ledger (fragment.render types file) shown run.worklist
    refine ⟨rendered ++ [fragment.render types file], _, ⟨?_, unique, catalog, registry, asked.symm, ?_, ?_, ?_⟩⟩
    · apply Emitted.own rendered fragment emitted (by simp) first
      exact ledger_unanswered types library file seen visits rendered run ledger fragment.name absent
    · rw [add, ledger.worklist, Worklist.add_all_after]
    · intro earlier member
      rcases List.mem_append.mp member with old | new
      · exact Rendering.still_named rendered _ earlier.name (ledger.shown earlier old)
      · rw [List.mem_singleton.mp new]
        simp [Rendering.name, Fragment.render]
    · intro visit member
      rcases ledger.answered visit member with inside | missing
      · exact .inl (Rendering.still_named rendered _ visit.reference.name inside)
      · exact .inr missing

theorem course_ledger (fragments rest : List Fragment) (more : List Visit) (final : Run)
    (course : Course types library file fragments run more final)
    (split : file.fragments = seen ++ fragments ++ rest)
    (ledger : Ledger types library file seen visits rendered [] run) :
    ∃ rendered', Ledger types library file (seen ++ fragments) (visits ++ more) rendered' [] final := by
  induction course generalizing seen visits rendered with
  | nil run => exact ⟨rendered, by simpa using ledger⟩
  | cons fragment others run middle final here later rounds _ ih =>
    obtain ⟨declared, waiting, opened⟩ := render_ledger types library file seen visits rendered run
      fragment (others ++ rest) (by simpa using split) ledger
    obtain ⟨drained, closed⟩ := rounds_ledger types library file (seen ++ [fragment]) visits declared
      waiting _ here middle rounds opened
    obtain ⟨finished, final⟩ := ih (seen ++ [fragment]) (visits ++ here) drained (by simpa using split) closed
    exact ⟨finished, by simpa using final⟩

-- With no reference waiting there is nothing left for a call of `drain` to do.
theorem settled_rounds (ledger : Ledger types library file seen visits rendered [] run) :
    Rounds types library run [] run ∧ run.drain types library = run := by
  have next : run.worklist.next? = none := by rw [ledger.worklist, Worklist.next_after_all]
  have same : { run with worklist := run.worklist.exhausted } = run := by
    rw [ledger.worklist, Worklist.exhausted_after_all, ← ledger.worklist]
  refine ⟨?_, ?_⟩
  · have idle : Rounds types library run [] { run with worklist := run.worklist.exhausted } := .idle run next
    rwa [same] at idle
  · rw [drain_idle types library run next, same]

end Run

end SchemaDiagram
