import SchemaDiagram.Run

/-!
The course of a run, round by round. A round of draining hands out one reference and settles it; the library
is searched for it unless its name is rendered. What every round keeps, a whole run keeps.
-/

set_option autoImplicit false

namespace SchemaDiagram

-- A reference that was handed out, and whether the library was searched for it.
structure Visit where
  reference : Reference
  searched : Bool
deriving DecidableEq, Repr

namespace Run

variable (types : TypeTable) (library : Library) (file : SourceFile)

inductive Round (run : Run) : Visit → Run → Prop
  | known (reference : Reference) (rest : Worklist)
      (next : run.worklist.next? = some (reference, rest))
      (rendered : run.catalog.contains reference.name = true) :
      Round run ⟨reference, false⟩ (mark { run with worklist := rest } reference.name .drained)
  | found (reference : Reference) (rest : Worklist) (origin : SourceFile) (fragment : Fragment)
      (next : run.worklist.next? = some (reference, rest))
      (absent : run.catalog.contains reference.name = false)
      (answer : library.find? reference = some (origin, fragment)) :
      Round run ⟨reference, true⟩
        (((mark { run with worklist := rest } reference.name .resolved).add
          (fragment.render types origin)).mark reference.name .drained)
  | missing (reference : Reference) (rest : Worklist)
      (next : run.worklist.next? = some (reference, rest))
      (absent : run.catalog.contains reference.name = false)
      (answer : library.find? reference = none) :
      Round run ⟨reference, true⟩
        ((report { run with worklist := rest }
          (Diagnostic.notFound reference library.candidates)).mark reference.name .drained)

-- The rounds of one call of `drain`.
inductive Rounds : Run → List Visit → Run → Prop
  | idle (run : Run) (next : run.worklist.next? = none) :
      Rounds run [] { run with worklist := run.worklist.exhausted }
  | round (run middle final : Run) (visit : Visit) (visits : List Visit)
      (first : Round types library run visit middle) (others : Rounds middle visits final) :
      Rounds run (visit :: visits) final

-- The declarations of the input in order, each followed by its rounds.
inductive Course : List Fragment → Run → List Visit → Run → Prop
  | nil (run : Run) : Course [] run [] run
  | cons (fragment : Fragment) (rest : List Fragment) (run middle final : Run) (visits others : List Visit)
      (rounds : Rounds types library (run.render types file fragment) visits middle)
      (course : Course rest middle others final) : Course (fragment :: rest) run (visits ++ others) final

theorem settle_round (run : Run) (reference : Reference) (rest : Worklist)
    (next : run.worklist.next? = some (reference, rest)) :
    ∃ searched, Round types library run ⟨reference, searched⟩
      (settle types library reference { run with worklist := rest }) := by
  unfold settle
  cases rendered : run.catalog.contains reference.name with
  | true => exact ⟨false, .known reference rest next rendered⟩
  | false =>
    refine ⟨true, ?_⟩
    cases answer : library.find? reference with
    | none => exact .missing reference rest next rendered answer
    | some entry =>
      obtain ⟨origin, fragment⟩ := entry
      have named := (Library.mem_fragments_of_find library reference origin fragment answer).2
      have fresh : (mark { run with worklist := rest } reference.name .resolved).catalog.contains
          fragment.name = false := by rw [named]; exact rendered
      have step : Round types library run ⟨reference, true⟩ _ :=
        .found reference rest origin fragment next rendered answer
      rw [← render_fresh types origin fragment _ fresh] at step
      exact step

theorem drain_rounds (run : Run) :
    ∃ visits, Rounds types library run visits (run.drain types library) ∧
      visits.length ≤ run.distance types library := by
  induction run using drain.induct types library with
  | case1 run next =>
    rw [drain_idle types library run next]
    exact ⟨[], .idle run next, Nat.zero_le _⟩
  | case2 run reference rest next closer ih =>
    obtain ⟨visits, rounds, bound⟩ := ih
    obtain ⟨searched, first⟩ := settle_round types library run reference rest next
    rw [drain_round types library run reference rest next]
    exact ⟨⟨reference, searched⟩ :: visits, .round run _ _ _ visits first rounds,
      Nat.lt_of_le_of_lt bound closer⟩

theorem render_each_course (fragments : List Fragment) (start : Run) :
    ∃ visits, Course types library file fragments start visits
      (renderEach types library file fragments start) := by
  induction fragments generalizing start with
  | nil => exact ⟨[], .nil start⟩
  | cons fragment rest ih =>
    obtain ⟨visits, rounds, _⟩ := drain_rounds types library (start.render types file fragment)
    obtain ⟨others, course⟩ := ih ((start.render types file fragment).drain types library)
    exact ⟨visits ++ others, .cons fragment rest start _ _ visits others rounds course⟩

-- A run goes one way: the visits are determined by where it starts.
theorem round_unique (run a b : Run) (visit other : Visit) (first : Round types library run visit a)
    (second : Round types library run other b) : visit = other ∧ a = b := by
  cases first <;> cases second <;> simp_all

theorem rounds_unique (run a b : Run) (visits others : List Visit)
    (first : Rounds types library run visits a) (second : Rounds types library run others b) :
    visits = others ∧ a = b := by
  induction first generalizing others b with
  | idle run next =>
    cases second with
    | idle _ _ => exact ⟨rfl, rfl⟩
    | round _ middle _ visit visits step _ => cases step <;> simp_all
  | round run middle final visit visits step _ ih =>
    cases second with
    | idle _ next => cases step <;> simp_all
    | round _ another _ visit' visits' step' rest =>
      obtain ⟨sameVisit, sameRun⟩ := round_unique types library run middle another visit visit' step step'
      subst sameVisit sameRun
      obtain ⟨sameVisits, sameEnd⟩ := ih b visits' rest
      exact ⟨by rw [sameVisits], sameEnd⟩

theorem course_unique (fragments : List Fragment) (run a b : Run) (visits others : List Visit)
    (first : Course types library file fragments run visits a)
    (second : Course types library file fragments run others b) : visits = others ∧ a = b := by
  induction first generalizing others b with
  | nil run =>
    cases second
    exact ⟨rfl, rfl⟩
  | cons fragment rest run middle final visits later rounds _ ih =>
    cases second with
    | cons _ _ _ another _ visits' later' rounds' course' =>
      obtain ⟨sameVisits, sameRun⟩ := rounds_unique types library _ middle another visits visits' rounds rounds'
      subst sameVisits sameRun
      obtain ⟨sameLater, sameEnd⟩ := ih b later' course'
      exact ⟨by rw [sameLater], sameEnd⟩

-- What a run does to its catalog, registry and findings it does by these two; all else is bookkeeping.
structure Stable (Keeps : Run → Prop) : Prop where
  add : ∀ (run : Run) (origin : SourceFile) (fragment : Fragment),
    Keeps run → Keeps (run.add (fragment.render types origin))
  report : ∀ (run : Run) (reference : Reference),
    Keeps run → Keeps (run.report (Diagnostic.notFound reference library.candidates))
  requeue : ∀ (run : Run) (worklist : Worklist), Keeps run → Keeps { run with worklist }

theorem render_stable (Keeps : Run → Prop) (stable : Stable types library Keeps) (fragment : Fragment)
    (run : Run) (holds : Keeps run) : Keeps (run.render types file fragment) := by
  cases known : run.catalog.contains fragment.name with
  | true =>
    rw [render_known types file fragment run known]
    exact holds
  | false =>
    rw [render_fresh types file fragment run known]
    exact stable.add run file fragment holds

theorem round_stable (Keeps : Run → Prop) (stable : Stable types library Keeps) (run after : Run)
    (visit : Visit) (round : Round types library run visit after) (holds : Keeps run) : Keeps after := by
  cases round with
  | known reference rest _ _ => exact stable.requeue run _ holds
  | found reference rest origin fragment _ _ _ =>
    apply stable.requeue
    apply stable.add
    exact stable.requeue run _ holds
  | missing reference rest _ _ _ =>
    apply stable.requeue
    apply stable.report
    exact stable.requeue run rest holds

theorem drain_stable (Keeps : Run → Prop) (stable : Stable types library Keeps) (run : Run)
    (holds : Keeps run) : Keeps (run.drain types library) := by
  obtain ⟨visits, rounds, bound⟩ := drain_rounds types library run
  clear bound
  generalize run.drain types library = final at rounds
  induction rounds with
  | idle run _ => exact stable.requeue run _ holds
  | round run middle final visit visits first _ ih =>
    exact ih (round_stable types library Keeps stable run middle visit first holds)

theorem render_each_stable (Keeps : Run → Prop) (stable : Stable types library Keeps)
    (fragments : List Fragment) (start : Run) (holds : Keeps start) :
    Keeps (renderEach types library file fragments start) := by
  induction fragments generalizing start with
  | nil => exact holds
  | cons fragment rest ih =>
    apply ih
    apply drain_stable types library Keeps stable
    exact render_stable types library file Keeps stable fragment start holds

theorem of_file_stable (Keeps : Run → Prop) (stable : Stable types library Keeps) (start : Run)
    (holds : Keeps start) : Keeps (ofFile types library file start) := by
  apply drain_stable types library Keeps stable
  exact render_each_stable types library file Keeps stable file.fragments start holds

end Run

end SchemaDiagram
