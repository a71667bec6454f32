import SchemaDiagram.Proofs.Mirror
import SchemaDiagram.Proofs.Requests

/-!
The order in which candidates are listed. It tells which of two answers to a request is taken, and nothing else:
where every request has one candidate at most that answers it, reports are the same in any order.
-/

set_option autoImplicit false

namespace SchemaDiagram

theorem find_reordered {α : Type} (test : α → Bool) (items others : List α) (order : items.Perm others)
    (single : ∀ a ∈ items, ∀ b ∈ items, test a = true → test b = true → a = b) :
    others.find? test = items.find? test := by
  cases found : items.find? test with
  | none =>
    rw [List.find?_eq_none] at found ⊢
    intro item member
    exact found item (order.mem_iff.mpr member)
  | some item =>
    have member := List.mem_of_find?_eq_some found
    have passes := List.find?_some found
    cases another : others.find? test with
    | none => exact absurd passes (List.find?_eq_none.mp another item (order.mem_iff.mp member))
    | some other =>
      have among := order.mem_iff.mpr (List.mem_of_find?_eq_some another)
      rw [single other among item member (List.find?_some another) passes]

namespace Source

-- No request has answers in two candidates.
def Unambiguous (source : Source) (candidates : List Path) : Prop :=
  ∀ reference : Reference, ∀ a ∈ candidates, ∀ b ∈ candidates,
    source.answers reference a = true → source.answers reference b = true → a = b

theorem find_in_reordered (source other : Source) (candidates others : List Path)
    (reads : ∀ path, other.read path = source.read path) (order : candidates.Perm others)
    (unambiguous : source.Unambiguous candidates) (reference : Reference) :
    (other.library others).find? reference = (source.library candidates).find? reference := by
  have answers : other.answers reference = source.answers reference := by
    funext path
    rw [Source.answers, Source.answers, reads]
  have answer : other.answer? reference = source.answer? reference := by
    funext path
    rw [Source.answer?, Source.answer?, reads]
  rw [find_in_library, find_in_library, answers, answer,
    find_reordered (source.answers reference) candidates others order (unambiguous reference)]

end Source

-- Two libraries that answer alike and count the same candidates make the same run.
theorem Run.of_file_alike (types : TypeTable) (library other : Library) (file : SourceFile) (start : Run)
    (counts : other.candidates = library.candidates)
    (answers : ∀ reference, other.find? reference = library.find? reference) :
    Run.ofFile types other file start = Run.ofFile types library file start := by
  have mirrors : Run.Mirrors types library other file id id id := by
    constructor
    · exact fun _ => rfl
    · exact fun _ _ => rfl
    · exact fun _ _ => rfl
    · intro run reference
      rw [counts]
      rfl
    · intro reference
      rw [answers]
      exact (Option.map_id_apply).symm
    · exact fun _ _ _ _ _ => rfl
    · exact fun _ => rfl
    · exact (List.map_id _).symm
  exact (Run.of_file_mirrored types library other file id id id mirrors start).symm

-- The same input over two sources, of which the second lists the candidates in another order.
inductive Input.Reordered (source other : Source) (settings : Settings) : Input → Input → Prop
  | file (path : Path)
      (order : (source.list (settings.searchDirFor path)).Perm (other.list (settings.searchDirFor path))) :
      Reordered source other settings (.file path) (.file path)
  | text (given : Text) (title : Option Text) (candidates others : List Path) (order : candidates.Perm others) :
      Reordered source other settings (.text given candidates title) (.text given others title)

theorem candidate_order_irrelevant (source other : Source) (settings : Settings) (input another : Input)
    (reads : ∀ path, other.read path = source.read path)
    (reordered : Input.Reordered source other settings input another)
    (unambiguous : source.Unambiguous (input.candidates source settings)) :
    another.report other settings = input.report source settings := by
  have alike (candidates others : List Path) (order : candidates.Perm others)
      (single : source.Unambiguous candidates) (file : SourceFile) (start : Run) :
      Run.ofFile settings.types (other.library others) file start =
        Run.ofFile settings.types (source.library candidates) file start := by
    apply Run.of_file_alike
    · exact order.length_eq.symm
    · exact Source.find_in_reordered source other candidates others reads order single
  cases reordered with
  | file path order =>
    have runs : (Input.file path).run other settings = (Input.file path).run source settings := by
      rw [Input.run, Input.run, Input.sourceFile, Input.sourceFile, Input.start, Input.start, Input.content,
        Input.content, reads]
      exact alike _ _ order unambiguous _ _
    rw [Input.report_of_run, Input.report_of_run, runs]
  | text given title candidates others order =>
    rw [Input.report_of_run, Input.report_of_run, Input.run, Input.run]
    exact congrArg _ (alike candidates others order unambiguous _ _)

-- The files of `twoFiles`, of which each declares one name.
theorem two_files_unambiguous : twoFiles.Unambiguous [⟨"d/c.cds"⟩, ⟨"d/d.cds"⟩] := by
  have names : (fragments "namespace q;entity C{z:q.B;}").map Fragment.name = [['C']] ∧
      (fragments "namespace q;entity B{}").map Fragment.name = [['B']] := by
    decide +kernel
  have declared (reference : Reference) (path : Path) (answers : twoFiles.answers reference path = true) :
      (path = ⟨"d/c.cds"⟩ → reference.name = ['C']) ∧ (path = ⟨"d/d.cds"⟩ → reference.name = ['B']) := by
    obtain ⟨text, read, both⟩ := (Option.any_eq_true _ _).mp answers
    obtain ⟨fragment, member, named⟩ := List.any_eq_true.mp (Bool.and_eq_true_iff.mp both).2
    have among := List.mem_map_of_mem (f := Fragment.name) member
    rw [of_decide_eq_true named] at among
    constructor
    · rintro rfl
      cases read
      rw [names.1] at among
      exact List.mem_singleton.mp among
    · rintro rfl
      cases read
      rw [names.2] at among
      exact List.mem_singleton.mp among
  intro reference a first b second answered again
  have tellsA := declared reference a answered
  have tellsB := declared reference b again
  simp only [List.mem_cons, List.not_mem_nil, or_false] at first second
  rcases first with rfl | rfl <;> rcases second with rfl | rfl
  · rfl
  · exact absurd ((tellsA.1 rfl).symm.trans (tellsB.2 rfl)) (by decide)
  · exact absurd ((tellsA.2 rfl).symm.trans (tellsB.1 rfl)) (by decide)
  · rfl

-- `chain` finds `C` and `B` in the one file and in the other, whichever is listed first.
theorem chain_reordered :
    twoFiles.Unambiguous (chain.candidates twoFiles {}) ∧
      (Input.text "entity A{x:q.C;}" [⟨"d/d.cds"⟩, ⟨"d/c.cds"⟩] none).report twoFiles {} =
        chain.report twoFiles {} := by
  refine ⟨two_files_unambiguous, ?_⟩
  apply candidate_order_irrelevant twoFiles twoFiles {} chain _ (fun _ => rfl) _ two_files_unambiguous
  exact .text _ _ _ _ (List.Perm.swap _ _ _)

end SchemaDiagram
