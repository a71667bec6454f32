import SchemaDiagram.Proofs.Ledger

/-!
How a run grows: by the rendering of a declaration that is the first of its name in its file and was not shown
before. What such an addition keeps, and what searching and bookkeeping leave alone, a whole run keeps.
-/

set_option autoImplicit false

namespace SchemaDiagram

namespace Run

variable (types : TypeTable) (library : Library) (file : SourceFile)

structure Grows (Keeps : Run → Prop) : Prop where
  add : ∀ (run : Run) (origin : SourceFile) (fragment : Fragment), origin = file ∨ origin ∈ library.files →
    origin.fragment? fragment.name = some fragment → run.catalog.contains fragment.name = false → Keeps run →
      Keeps (run.add (fragment.render types origin))
  report : ∀ (run : Run) (reference : Reference),
    Keeps run → Keeps (run.report (Diagnostic.notFound reference library.candidates))
  requeue : ∀ (run : Run) (worklist : Worklist), Keeps run → Keeps { run with worklist }

variable (Keeps : Run → Prop) (grows : Grows types library file Keeps)

section

include grows

theorem round_grows (run after : Run) (visit : Visit) (round : Round types library run visit after)
    (holds : Keeps run) : Keeps after := by
  cases round with
  | known reference rest _ _ => exact grows.requeue run _ holds
  | found reference rest origin fragment _ absent answer =>
    obtain ⟨member, _, first⟩ := Library.origin_of_find library reference origin fragment answer
    have named := (origin.fragment_found reference.name fragment first).2
    rw [← named] at absent first
    have queued := grows.requeue run (rest.mark reference.name .resolved) holds
    have added := grows.add (mark { run with worklist := rest } reference.name .resolved) origin fragment (.inr member)
      first absent queued
    exact grows.requeue _ _ added
  | missing reference rest _ _ _ =>
    apply grows.requeue
    apply grows.report
    exact grows.requeue run rest holds

theorem drain_grows (run : Run) (holds : Keeps run) : Keeps (run.drain types library) := by
  obtain ⟨visits, rounds, bound⟩ := drain_rounds types library run
  clear bound
  generalize run.drain types library = final at rounds
  induction rounds with
  | idle run _ => exact grows.requeue run _ holds
  | round run middle final visit visits first _ ih =>
    exact ih (round_grows types library file Keeps grows run middle visit first holds)

end

-- A name that is shown stays shown.
theorem contains_stable (name : Text) : Stable types library fun run => run.catalog.contains name = true where
  add run origin fragment shown := by
    rw [Run.add, Catalog.contains_insert, shown]
    rfl
  report _ _ shown := shown
  requeue _ _ shown := shown

theorem render_contains (fragment : Fragment) (run : Run) :
    (run.render types file fragment).catalog.contains fragment.name = true := by
  cases known : run.catalog.contains fragment.name with
  | true => rw [render_known types file fragment run known, known]
  | false =>
    rw [render_fresh types file fragment run known, Run.add, Catalog.contains_insert]
    simp [Fragment.render]

include grows

theorem render_each_grows (seen fragments : List Fragment) (split : file.fragments = seen ++ fragments) (run : Run)
    (shown : ∀ earlier ∈ seen, run.catalog.contains earlier.name = true) (holds : Keeps run) :
    Keeps (renderEach types library file fragments run) := by
  induction fragments generalizing seen run with
  | nil => exact holds
  | cons fragment rest ih =>
    have rendered : Keeps (run.render types file fragment) := by
      cases known : run.catalog.contains fragment.name with
      | true =>
        rw [render_known types file fragment run known]
        exact holds
      | false =>
        rw [render_fresh types file fragment run known]
        apply grows.add run file fragment (.inl rfl) _ known holds
        apply first_unseen file seen fragment rest split
        intro earlier member same
        rw [← same, shown earlier member] at known
        contradiction
    apply ih (seen ++ [fragment]) (by simpa using split)
    · intro earlier member
      apply drain_stable types library _ (contains_stable types library earlier.name)
      rcases List.mem_append.mp member with old | new
      · exact render_stable types library file _ (contains_stable types library earlier.name) fragment run
          (shown earlier old)
      · rw [List.mem_singleton.mp new]
        exact render_contains types file fragment run
    · exact drain_grows types library file Keeps grows _ rendered

theorem of_file_grows (start : Run) (holds : Keeps start) : Keeps (ofFile types library file start) := by
  apply drain_grows types library file Keeps grows
  apply render_each_grows types library file Keeps grows [] file.fragments rfl start _ holds
  simp

end Run

end SchemaDiagram
