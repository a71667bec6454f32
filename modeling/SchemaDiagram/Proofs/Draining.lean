import SchemaDiagram.Proofs.Input

/-!
Following references ends. Every call of `drain` has finitely many rounds, however the files refer to each
other, and a whole run hands out each name that was ever asked for exactly once.
-/

set_option autoImplicit false

namespace SchemaDiagram

theorem every_request_drained (source : Source) (settings : Settings) (input : Input) :
    let types := settings.types
    let library := input.library source settings
    let file := input.sourceFile source
    let final := input.run source settings
    (∀ run, ∃ visits, Run.Rounds types library run visits (run.drain types library) ∧
        visits.length ≤ run.distance types library) ∧
      ∃ visits,
        (∀ others last, Run.Course types library file file.fragments (input.start source) others last ↔
          others = visits ∧ last = final) ∧
        Run.Rounds types library final [] final ∧
        visits.map Visit.reference =
          firsts Reference.name ((input.report source settings).entities.flatMap (input.requests source settings)) ∧
        ((visits.filter Visit.searched).map (·.reference.name)).Nodup ∧
        final.worklist = ⟨visits.map (·.reference.drained), []⟩ := by
  intro types library file final
  refine ⟨Run.drain_rounds types library, ?_⟩
  obtain ⟨visits, rendered, course, ledger⟩ := input.run_ledger source settings
  have asked : visits.map Visit.reference =
      firsts Reference.name ((input.report source settings).entities.flatMap (input.requests source settings)) := by
    rw [input.report_entities source settings visits rendered ledger,
      input.requests_of_entities source settings _ rendered rendered ledger.emitted (List.Subset.refl _),
      ← ledger.asked, List.append_nil]
  refine ⟨visits, ?_, (Run.settled_rounds _ _ _ _ visits rendered final ledger).1, asked, ?_, ?_⟩
  · intro others last
    constructor
    · intro another
      exact Run.course_unique types library file file.fragments (input.start source) last final others
        visits another course
    · rintro ⟨rfl, rfl⟩
      exact course
  · have all : (visits.map (·.reference.name)).Nodup := by
      have distinct := firsts_nodup Reference.name
        ((input.report source settings).entities.flatMap (input.requests source settings))
      rwa [← asked, List.map_map] at distinct
    exact all.sublist (List.Sublist.map _ List.filter_sublist)
  · rw [ledger.worklist, Worklist.after]
    simp [Function.comp_def]

end SchemaDiagram
