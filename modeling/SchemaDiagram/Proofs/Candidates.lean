import SchemaDiagram.Report

/-!
Looking a request up, told by the candidates as they were listed. The first candidate that answers gives the
declaration; a request stays without an answer only if no candidate has one.
-/

set_option autoImplicit false

namespace SchemaDiagram

theorem Library.answer_is_some (reference : Reference) (file : SourceFile) :
    (Library.answer? reference file).isSome =
      (file.qualifier.any (Namespace.accepts · reference.qualifier) &&
        file.fragments.any (·.name = reference.name)) := by
  unfold Library.answer?
  split
  · rename_i accepted
    rw [Option.isSome_map, accepted, Bool.true_and, SourceFile.fragment?, Bool.eq_iff_iff, List.find?_isSome,
      List.any_eq_true]
  · rename_i refused
    rw [Bool.not_eq_true] at refused
    rw [refused, Bool.false_and]
    rfl

namespace Source

variable (source : Source) (reference : Reference)

-- Whether a candidate can be read, belongs to a namespace that the request accepts, and declares the name.
def answers (path : Path) : Bool :=
  (source.read path).any fun text =>
    (Namespace.ofSource? text).any (Namespace.accepts · reference.qualifier) &&
      (fragments text).any (·.name = reference.name)

def answer? (path : Path) : Option (SourceFile × Fragment) :=
  (source.read path).bind fun text => Library.answer? reference (SourceFile.ofText (some path) text)

theorem answer_is_some (path : Path) : (source.answer? reference path).isSome = source.answers reference path := by
  unfold answer? answers
  cases source.read path with
  | none => rfl
  | some text => exact Library.answer_is_some reference (SourceFile.ofText (some path) text)

theorem find_in_library (candidates : List Path) :
    (source.library candidates).find? reference =
      (candidates.find? (source.answers reference)).bind (source.answer? reference) := by
  unfold Library.find? library
  induction candidates with
  | nil => rfl
  | cons path rest ih =>
    have told := source.answer_is_some reference path
    rw [List.find?_cons, ← told, List.filterMap_cons]
    cases readable : source.read path with
    | none => simpa [answer?, readable] using ih
    | some text =>
      have given : source.answer? reference path = Library.answer? reference (SourceFile.ofText (some path) text) := by
        rw [answer?, readable, Option.bind_some]
      rw [Option.map_some, List.findSome?_cons, ← given]
      cases answer : source.answer? reference path with
      | none => exact ih
      | some found => exact answer.symm

theorem first_answer (candidates : List Path) (origin : SourceFile) (fragment : Fragment)
    (found : (source.library candidates).find? reference = some (origin, fragment)) :
    ∃ path, candidates.find? (source.answers reference) = some path ∧ origin.path = some path := by
  rw [find_in_library] at found
  obtain ⟨path, first, answer⟩ := Option.bind_eq_some_iff.mp found
  obtain ⟨text, _, given⟩ := Option.bind_eq_some_iff.mp answer
  refine ⟨path, first, ?_⟩
  unfold Library.answer? at given
  split at given
  · obtain ⟨_, _, same⟩ := Option.map_eq_some_iff.mp given
    cases same
    rfl
  · contradiction

theorem no_answer_iff (candidates : List Path) :
    (source.library candidates).find? reference = none ↔
      ∀ path ∈ candidates, source.answers reference path = false := by
  rw [find_in_library]
  constructor
  · intro missing path member
    cases first : candidates.find? (source.answers reference) with
    | none => simpa using List.find?_eq_none.mp first path member
    | some other =>
      rw [first, Option.bind_some] at missing
      have answers := List.find?_some first
      rw [← source.answer_is_some reference other, missing] at answers
      contradiction
  · intro silent
    rw [List.find?_eq_none.mpr fun path member => by simp [silent path member]]
    rfl

end Source

end SchemaDiagram
