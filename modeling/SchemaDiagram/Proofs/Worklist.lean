import SchemaDiagram.Proofs.Firsts
import SchemaDiagram.Worklist

/-!
The list of references as its history has it: those that were handed out, drained and in order, and behind
them those that wait.
-/

set_option autoImplicit false

namespace SchemaDiagram

def Reference.drained (reference : Reference) : Reference := { reference with progress := .drained }

namespace Worklist

theorem find_is_some (work : Worklist) (name : Text) :
    (work.find? name).isSome = true ↔ name ∈ work.entries.map Reference.name := by
  simp [find?]

theorem add_all_eq (work : Worklist) (references : List Reference) :
    work.addAll references =
      ⟨work.entries ++ firstsBeyond Reference.name (work.entries.map Reference.name) references,
        work.queue ++
          (firstsBeyond Reference.name (work.entries.map Reference.name) references).map Reference.name⟩ := by
  induction references generalizing work with
  | nil => simp [addAll, firstsBeyond]
  | cons reference rest ih =>
    change (work.add reference).addAll rest = _
    rw [ih (work.add reference)]
    by_cases known : reference.name ∈ work.entries.map Reference.name
    · rw [add, if_pos ((find_is_some work reference.name).mpr known), firstsBeyond, if_pos known]
    · rw [add, if_neg (fun found => known ((find_is_some work reference.name).mp found)), firstsBeyond,
        if_neg known]
      simp [List.append_assoc]

-- What is left of the requests when `handed` were handed out and settled and `waiting` are queued.
def after (handed waiting : List Reference) : Worklist :=
  ⟨handed.map Reference.drained ++ waiting, waiting.map Reference.name⟩

-- The same in the middle of a round, while `held` is out.
def holding (handed : List Reference) (held : Reference) (waiting : List Reference) : Worklist :=
  ⟨handed.map Reference.drained ++ held :: waiting, waiting.map Reference.name⟩

theorem names_after (handed waiting : List Reference) :
    (after handed waiting).entries.map Reference.name = (handed ++ waiting).map Reference.name := by
  simp [after, Reference.drained]

theorem next_after_all (handed : List Reference) : (after handed []).next? = none := rfl

theorem exhausted_after_all (handed : List Reference) : (after handed []).exhausted = after handed [] := rfl

theorem apart_from_held (before later : List Reference) (held : Reference)
    (distinct : ((before ++ held :: later).map Reference.name).Nodup) :
    ∀ entry ∈ before ++ later, entry.name ≠ held.name := by
  rw [List.map_append, List.map_cons, List.nodup_middle, ← List.map_append, List.nodup_cons] at distinct
  intro entry member same
  exact distinct.1 (same ▸ List.mem_map_of_mem member)

theorem find_held (before later : List Reference) (held : Reference)
    (distinct : ((before ++ held :: later).map Reference.name).Nodup) :
    (before ++ held :: later).find? (·.name = held.name) = some held :=
  find_of_distinct Reference.name _ distinct held (by simp)

theorem next_after (handed waiting : List Reference) (held : Reference)
    (distinct : ((handed ++ held :: waiting).map Reference.name).Nodup) (pending : held.progress = .pending) :
    (after handed (held :: waiting)).next? = some (held, holding handed held waiting) := by
  have found := find_held (handed.map Reference.drained) waiting held
    (by simpa [Reference.drained, Function.comp_def] using distinct)
  simp [next?, after, holding, takeNext?, found, pending]

theorem mark_apart (entries : List Reference) (held : Reference) (progress : Progress)
    (apart : ∀ entry ∈ entries, entry.name ≠ held.name) :
    entries.map (fun entry => if entry.name = held.name then { entry with progress } else entry) = entries := by
  rw [List.map_congr_left fun entry member => if_neg (apart entry member), List.map_id']

theorem mark_held (before later : List Reference) (held : Reference) (queue : List Text)
    (progress : Progress) (distinct : ((before ++ held :: later).map Reference.name).Nodup) :
    mark ⟨before ++ held :: later, queue⟩ held.name progress =
      ⟨before ++ { held with progress } :: later, queue⟩ := by
  have apart := apart_from_held before later held distinct
  simp only [mark, List.map_append, List.map_cons, if_true]
  rw [mark_apart before held progress fun entry member => apart entry (List.mem_append_left _ member),
    mark_apart later held progress fun entry member => apart entry (List.mem_append_right _ member)]

theorem advance_held (handed waiting : List Reference) (held : Reference) (progress : Progress)
    (distinct : ((handed ++ held :: waiting).map Reference.name).Nodup) :
    (holding handed held waiting).mark held.name progress =
      holding handed { held with progress } waiting :=
  mark_held (handed.map Reference.drained) waiting held (waiting.map Reference.name) progress
    (by simpa [Reference.drained, Function.comp_def] using distinct)

-- However far a held reference has come, in the end it stands behind those handed out before it.
theorem settle_held (handed waiting : List Reference) (held : Reference) (progress : Progress)
    (distinct : ((handed ++ held :: waiting).map Reference.name).Nodup) :
    (holding handed { held with progress } waiting).mark held.name .drained =
      after (handed ++ [held]) waiting := by
  have marked := advance_held handed waiting { held with progress } .drained (by simpa using distinct)
  rw [marked]
  simp [holding, after, Reference.drained]

theorem add_all_holding (handed waiting requests : List Reference) (held : Reference) (progress : Progress) :
    (holding handed { held with progress } waiting).addAll requests =
      holding handed { held with progress }
        (waiting ++ firstsBeyond Reference.name ((handed ++ held :: waiting).map Reference.name) requests) := by
  rw [add_all_eq]
  simp [holding, Reference.drained, Function.comp_def]

theorem add_all_after (handed waiting requests : List Reference) :
    (after handed waiting).addAll requests =
      after handed
        (waiting ++ firstsBeyond Reference.name ((handed ++ waiting).map Reference.name) requests) := by
  rw [add_all_eq, names_after]
  simp [after]

end Worklist

end SchemaDiagram
