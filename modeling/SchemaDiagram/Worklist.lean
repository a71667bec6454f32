import SchemaDiagram.Text.Basic

/-!
References to declarations of other files, in the order of their discovery. Each type name is queued at
most once, for the namespace of its first reference.
-/

set_option autoImplicit false

namespace SchemaDiagram

inductive Progress where
  | pending
  | resolved
  | drained
deriving DecidableEq, Repr

structure Reference where
  qualifier : Text
  name : Text
  progress : Progress := .pending
deriving DecidableEq, Repr

namespace Reference

-- A dotted name asks for its last segment in the namespace before it.
def ofQualified? (qualified : Text) : Option Reference :=
  match Text.splitLast? '.' qualified with
  | none => none
  | some (qualifier, name) =>
    if qualifier.isEmpty || name.isEmpty then none else some ⟨qualifier, name, .pending⟩

end Reference

structure Worklist where
  entries : List Reference := []
  queue : List Text := []
deriving Repr

namespace Worklist

def find? (work : Worklist) (name : Text) : Option Reference := work.entries.find? (·.name = name)

def add (work : Worklist) (reference : Reference) : Worklist :=
  if (work.find? reference.name).isSome then work
  else ⟨work.entries ++ [reference], work.queue ++ [reference.name]⟩

def addAll (work : Worklist) (references : List Reference) : Worklist := references.foldl add work

-- The first queued reference that is not drained, and what stays queued behind it.
def takeNext? (entries : List Reference) : List Text → Option (Reference × List Text)
  | [] => none
  | name :: rest =>
    match entries.find? (·.name = name) with
    | none => takeNext? entries rest
    | some reference =>
      if reference.progress = .drained then takeNext? entries rest else some (reference, rest)

theorem take_next_shorter (entries : List Reference) (queue rest : List Text) (reference : Reference)
    (found : takeNext? entries queue = some (reference, rest)) : rest.length < queue.length := by
  induction queue with
  | nil => simp [takeNext?] at found
  | cons name queue ih =>
    simp only [takeNext?] at found
    split at found
    · exact Nat.lt_succ_of_lt (ih found)
    · split at found
      · exact Nat.lt_succ_of_lt (ih found)
      · simp only [Option.some.injEq, Prod.mk.injEq] at found
        simp [found.2]

def next? (work : Worklist) : Option (Reference × Worklist) :=
  (takeNext? work.entries work.queue).map fun (reference, rest) => (reference, ⟨work.entries, rest⟩)

theorem next_shorter (work rest : Worklist) (reference : Reference)
    (found : work.next? = some (reference, rest)) : rest.queue.length < work.queue.length := by
  unfold next? at found
  cases taken : takeNext? work.entries work.queue with
  | none => simp [taken] at found
  | some pair =>
    simp only [taken, Option.map_some, Option.some.injEq, Prod.mk.injEq] at found
    rw [← found.2]
    exact take_next_shorter _ _ _ pair.1 taken

def exhausted (work : Worklist) : Worklist := ⟨work.entries, []⟩

def mark (work : Worklist) (name : Text) (progress : Progress) : Worklist :=
  ⟨work.entries.map fun entry => if entry.name = name then { entry with progress } else entry,
    work.queue⟩

def hasUndrained (work : Worklist) : Bool := work.entries.any (·.progress ≠ .drained)

theorem add_queue_length (work : Worklist) (reference : Reference) :
    (work.add reference).queue.length ≤ work.queue.length + 1 := by
  unfold add
  split
  · exact Nat.le_succ _
  · simp

theorem add_all_queue_length (work : Worklist) (references : List Reference) :
    (work.addAll references).queue.length ≤ work.queue.length + references.length := by
  induction references generalizing work with
  | nil => exact Nat.le_refl _
  | cons first rest ih =>
    have step := add_queue_length work first
    have others := ih (work.add first)
    simp only [addAll, List.foldl_cons, List.length_cons] at others ⊢
    omega

end Worklist

end SchemaDiagram
