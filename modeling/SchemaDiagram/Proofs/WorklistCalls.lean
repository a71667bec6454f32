import SchemaDiagram.Proofs.Worklist

/-!
The list of references under calls in any order. A name is queued once, for the namespace of its first reference, and is
handed out once at most. Between a call and the next the entries and the queue need not agree: what is handed out has left
the queue and is not drained, and what is marked may still be queued. They agree again at every call that asks for a
reference, as long as each one that was handed out is drained by then.
-/

set_option autoImplicit false

namespace SchemaDiagram

namespace Worklist

inductive Call where
  | add (reference : Reference)
  | next
  | mark (name : Text) (progress : Progress)
deriving DecidableEq, Repr

def Call.added? : Call → Option Reference
  | add reference => some reference
  | _ => none

theorem mem_added (calls : List Call) (reference : Reference) :
    reference ∈ calls.filterMap Call.added? ↔ .add reference ∈ calls := by
  rw [List.mem_filterMap]
  constructor
  · rintro ⟨call, member, added⟩
    cases call with
    | add other => rwa [← Option.some.inj added]
    | next | mark => contradiction
  · exact fun member => ⟨.add reference, member, rfl⟩

-- Whether adding a reference queues it.
def takes (work : Worklist) (reference : Reference) : Bool := (work.find? reference.name).isNone

-- What is left when the next reference is asked for.
def proceed (work : Worklist) : Worklist :=
  match work.next? with
  | none => work.exhausted
  | some (_, rest) => rest

def call (work : Worklist) : Call → Worklist
  | .add reference => work.add reference
  | .next => work.proceed
  | .mark name progress => work.mark name progress

def callAll (work : Worklist) (calls : List Call) : Worklist := calls.foldl call work

def called (calls : List Call) : Worklist := callAll {} calls

-- The reference that a call queues, and the one that it hands out.
def taken? (work : Worklist) : Call → Option Reference
  | .add reference => if work.takes reference then some reference else none
  | _ => none

def handed? (work : Worklist) : Call → Option Reference
  | .next => work.next?.map Prod.fst
  | _ => none

def gather (answer? : Worklist → Call → Option Reference) (work : Worklist) : List Call → List Reference
  | [] => []
  | first :: rest => (answer? work first).toList ++ gather answer? (work.call first) rest

-- Whether each reference that is handed out is marked as drained before the next one is asked for, and nothing that is
-- drained is marked otherwise. Of the references handed out, `held` is the one that is not drained yet.
def disciplined (work : Worklist) (held : Option Text) : List Call → Bool
  | [] => true
  | .add reference :: rest => disciplined (work.add reference) held rest
  | .next :: rest => held.isNone && disciplined work.proceed ((work.handed? .next).map Reference.name) rest
  | .mark name progress :: rest =>
    (progress = .drained || !(work.find? name).any (·.progress = .drained)) &&
      disciplined (work.mark name progress) (if progress = .drained && held = some name then none else held) rest

theorem takes_iff (work : Worklist) (reference : Reference) :
    work.takes reference = true ↔ reference.name ∉ work.entries.map Reference.name := by
  rw [takes, ← find_is_some]
  simp

theorem add_taken (work : Worklist) (reference : Reference) (takes : work.takes reference = true) :
    work.add reference = ⟨work.entries ++ [reference], work.queue ++ [reference.name]⟩ := by
  rw [add, if_neg]
  simpa [Worklist.takes] using takes

theorem add_refused (work : Worklist) (reference : Reference) (refused : work.takes reference = false) :
    work.add reference = work := by
  rw [add, if_pos]
  simpa [takes] using refused

theorem mark_drained (work : Worklist) (name : Text) (progress : Progress) :
    (work.mark name progress).entries.map Reference.drained = work.entries.map Reference.drained := by
  rw [mark, List.map_map]
  refine List.map_congr_left fun entry _ => ?_
  change Reference.drained (if entry.name = name then _ else entry) = _
  split <;> rfl

theorem names_drained (entries : List Reference) :
    (entries.map Reference.drained).map Reference.name = entries.map Reference.name := List.map_map

theorem mark_names (work : Worklist) (name : Text) (progress : Progress) :
    (work.mark name progress).entries.map Reference.name = work.entries.map Reference.name := by
  rw [← names_drained, mark_drained, names_drained]

-- Whether a queued name is passed over.
def Passed (entries : List Reference) (name : Text) : Prop :=
  ∀ entry, entries.find? (·.name = name) = some entry → entry.progress = .drained

theorem take_next_passed (entries : List Reference) (name : Text) (queue : List Text) (passed : Passed entries name) :
    takeNext? entries (name :: queue) = takeNext? entries queue := by
  rw [takeNext?]
  cases known : entries.find? (·.name = name) with
  | none => rfl
  | some entry => exact if_pos (passed entry known)

theorem take_next_open (entries : List Reference) (name : Text) (queue : List Text) (entry : Reference)
    (known : entries.find? (·.name = name) = some entry) (undrained : entry.progress ≠ .drained) :
    takeNext? entries (name :: queue) = some (entry, queue) := by
  rw [takeNext?, known]
  exact if_neg undrained

theorem take_next_some (entries : List Reference) (queue rest : List Text) (reference : Reference)
    (found : takeNext? entries queue = some (reference, rest)) :
    entries.find? (·.name = reference.name) = some reference ∧ reference.progress ≠ .drained ∧
      ∃ before, queue = before ++ reference.name :: rest ∧ ∀ name ∈ before, Passed entries name := by
  induction queue with
  | nil => contradiction
  | cons name queue ih =>
    by_cases passed : Passed entries name
    · rw [take_next_passed entries name queue passed] at found
      obtain ⟨current, undrained, before, split, earlier⟩ := ih found
      exact ⟨current, undrained, name :: before, congrArg _ split, List.forall_mem_cons.mpr ⟨passed, earlier⟩⟩
    · simp only [Passed, not_forall] at passed
      obtain ⟨entry, known, undrained⟩ := passed
      rw [take_next_open entries name queue entry known undrained] at found
      cases found
      have named := List.find?_some known
      rw [of_decide_eq_true named]
      exact ⟨known, undrained, [], rfl, fun _ inside => absurd inside List.not_mem_nil⟩

theorem take_next_none_iff (entries : List Reference) (queue : List Text) :
    takeNext? entries queue = none ↔ ∀ name ∈ queue, Passed entries name := by
  induction queue with
  | nil => exact iff_of_true rfl fun _ inside => absurd inside List.not_mem_nil
  | cons name queue ih =>
    rw [List.forall_mem_cons]
    by_cases passed : Passed entries name
    · rw [take_next_passed entries name queue passed, ih]
      exact (and_iff_right passed).symm
    · refine iff_of_false ?_ fun all => passed all.1
      simp only [Passed, not_forall] at passed
      obtain ⟨entry, known, undrained⟩ := passed
      rw [take_next_open entries name queue entry known undrained]
      exact Option.some_ne_none _

theorem next_none_iff (work : Worklist) : work.next? = none ↔ ∀ name ∈ work.queue, Passed work.entries name := by
  rw [next?, Option.map_eq_none_iff, take_next_none_iff]

-- What is handed out is the entry of its name as it is, and only drained names stand in front of it.
theorem next_some (work rest : Worklist) (reference : Reference) (found : work.next? = some (reference, rest)) :
    work.find? reference.name = some reference ∧ reference.progress ≠ .drained ∧ rest.entries = work.entries ∧
      ∃ before, work.queue = before ++ reference.name :: rest.queue ∧
        ∀ name ∈ before, Passed work.entries name := by
  obtain ⟨⟨first, left⟩, taken, same⟩ := Option.map_eq_some_iff.mp found
  cases same
  obtain ⟨current, undrained, before⟩ := take_next_some work.entries work.queue left reference taken
  exact ⟨current, undrained, rfl, before⟩

theorem proceed_entries (work : Worklist) : work.proceed.entries = work.entries := by
  unfold proceed
  cases next : work.next? with
  | none => rfl
  | some found => exact (work.next_some found.2 found.1 next).2.2.1

-- The entries grow by what is queued and are told apart by their progress alone.
theorem entries_called (work : Worklist) (calls : List Call) :
    (work.callAll calls).entries.map Reference.drained =
      work.entries.map Reference.drained ++ (gather taken? work calls).map Reference.drained := by
  induction calls generalizing work with
  | nil => simp [callAll, gather]
  | cons first rest ih =>
    change ((work.call first).callAll rest).entries.map Reference.drained = _
    rw [ih, gather, List.map_append, ← List.append_assoc]
    congr 1
    cases first with
    | add reference =>
      cases queued : work.takes reference with
      | true =>
        rw [call, add_taken work reference queued, taken?, queued]
        simp
      | false =>
        rw [call, add_refused work reference queued, taken?, queued]
        simp
    | next =>
      rw [call, proceed_entries]
      simp [taken?]
    | mark name progress =>
      rw [call, mark_drained]
      simp [taken?]

theorem qualifier_alike (entries others : List Reference)
    (alike : entries.map Reference.drained = others.map Reference.drained) (name : Text) :
    (entries.find? (·.name = name)).map Reference.qualifier = (others.find? (·.name = name)).map Reference.qualifier := by
  have told (items : List Reference) : (items.find? (·.name = name)).map Reference.qualifier =
      ((items.map Reference.drained).find? (·.name = name)).map Reference.qualifier := by
    rw [List.find?_map, Option.map_map]
    rfl
  rw [told entries, told others, alike]

theorem names_called (work : Worklist) (calls : List Call) :
    (work.callAll calls).entries.map Reference.name =
      work.entries.map Reference.name ++ (gather taken? work calls).map Reference.name := by
  have drained := congrArg (List.map Reference.name) (work.entries_called calls)
  rwa [List.map_append, names_drained, names_drained, names_drained] at drained

-- The references that are queued are the first ones of their names.
theorem taken_called (work : Worklist) (calls : List Call) :
    gather taken? work calls =
      firstsBeyond Reference.name (work.entries.map Reference.name) (calls.filterMap Call.added?) := by
  induction calls generalizing work with
  | nil => rfl
  | cons first rest ih =>
    rw [gather, ih]
    cases first with
    | add reference =>
      change _ = firstsBeyond Reference.name _ (reference :: rest.filterMap Call.added?)
      rw [firstsBeyond, taken?]
      cases queued : work.takes reference with
      | true =>
        rw [if_neg ((work.takes_iff reference).mp queued), call, add_taken work reference queued]
        simp
      | false =>
        have known : reference.name ∈ work.entries.map Reference.name := by
          rw [← not_not (a := reference.name ∈ _), ← takes_iff, queued]
          exact Bool.false_ne_true
        rw [if_pos known, call, add_refused work reference queued]
        rfl
    | next =>
      rw [call, proceed_entries]
      rfl
    | mark name progress =>
      rw [call, mark_names]
      rfl

-- Names are handed out in the order of the queue, and what is queued on the way comes behind it.
theorem handed_called (work : Worklist) (calls : List Call) :
    ((gather handed? work calls).map Reference.name).Sublist
      (work.queue ++ (gather taken? work calls).map Reference.name) := by
  induction calls generalizing work with
  | nil => simp [gather]
  | cons first rest ih =>
    rw [gather, gather, List.map_append, List.map_append]
    have later := ih (work.call first)
    cases first with
    | add reference =>
      cases queued : work.takes reference with
      | true =>
        rw [call, add_taken work reference queued] at later ⊢
        simpa [handed?, taken?, queued] using later
      | false =>
        rw [call, add_refused work reference queued] at later ⊢
        simpa [handed?, taken?, queued] using later
    | next =>
      cases next : work.next? with
      | none =>
        have ended : work.call .next = work.exhausted := by rw [call, proceed, next]
        rw [ended] at later ⊢
        change List.Sublist _ ([] ++ _) at later
        simpa [handed?, taken?, next] using later.trans (List.sublist_append_right work.queue _)
      | some found =>
        obtain ⟨_, _, _, before, queue, _⟩ := work.next_some found.2 found.1 next
        rw [call, proceed, next] at later ⊢
        rw [queue]
        simpa [handed?, taken?, next] using
          ((later.cons_cons found.1.name).trans (List.sublist_append_right before _))
    | mark name progress => simpa [handed?, taken?, call, mark] using later

-- A reference that is not drained waits in the queue, unless it is held.
structure Waits (work : Worklist) (held : Option Text) : Prop where
  distinct : (work.entries.map Reference.name).Nodup
  waiting : ∀ entry ∈ work.entries, entry.progress ≠ .drained → entry.name ∈ work.queue ∨ held = some entry.name

theorem waits_start : Waits {} none := ⟨List.nodup_nil, fun _ inside => absurd inside List.not_mem_nil⟩

section

variable {work : Worklist} {held : Option Text}

theorem Waits.find_entry (waits : Waits work held) (entry : Reference) (member : entry ∈ work.entries) :
    work.find? entry.name = some entry := find_of_distinct Reference.name work.entries waits.distinct entry member

theorem waits_add (waits : Waits work held) (reference : Reference) : Waits (work.add reference) held := by
  cases queued : work.takes reference with
  | false =>
    rw [add_refused work reference queued]
    exact waits
  | true =>
    rw [add_taken work reference queued]
    refine ⟨?_, fun entry member undrained => ?_⟩
    · rw [List.map_append, List.map_singleton, ← List.concat_eq_append]
      exact waits.distinct.concat ((work.takes_iff reference).mp queued)
    · rcases List.mem_append.mp member with earlier | new
      · exact (waits.waiting entry earlier undrained).imp_left (List.mem_append_left _)
      · rw [List.mem_singleton.mp new]
        exact .inl (List.mem_append_right _ List.mem_cons_self)

theorem waits_proceed (waits : Waits work none) :
    Waits work.proceed ((work.handed? .next).map Reference.name) := by
  refine ⟨?_, fun entry member undrained => ?_⟩
  · rw [proceed_entries]
    exact waits.distinct
  · rw [proceed_entries] at member
    have known := waits.find_entry entry member
    have queued := (waits.waiting entry member undrained).resolve_right (Option.some_ne_none _).symm
    unfold proceed handed?
    cases next : work.next? with
    | none => exact absurd ((work.next_none_iff.mp next) entry.name queued entry known) undrained
    | some found =>
      obtain ⟨_, _, _, before, queue, passed⟩ := work.next_some found.2 found.1 next
      rw [queue] at queued
      rcases List.mem_append.mp queued with earlier | later
      · exact absurd (passed entry.name earlier entry known) undrained
      · rcases List.mem_cons.mp later with taken | behind
        · exact .inr (congrArg some taken.symm)
        · exact .inl behind

theorem waits_mark (waits : Waits work held) (name : Text) (progress : Progress)
    (kept : progress = .drained ∨ ∀ entry, work.find? name = some entry → entry.progress ≠ .drained) :
    Waits (work.mark name progress) (if progress = .drained && held = some name then none else held) := by
  refine ⟨?_, fun entry member undrained => ?_⟩
  · rw [mark_names]
    exact waits.distinct
  · obtain ⟨old, stood, rfl⟩ := List.mem_map.mp member
    by_cases named : old.name = name
    · rw [if_pos named] at undrained ⊢
      have open_before := (kept.resolve_left undrained) old (named ▸ waits.find_entry old stood)
      rw [if_neg (by simp [undrained])]
      exact waits.waiting old stood open_before
    · rw [if_neg named] at undrained ⊢
      rcases waits.waiting old stood undrained with queued | holds
      · exact .inl queued
      · rw [holds, if_neg (by simp [named])]
        exact .inr rfl

theorem waits_called (calls later : List Call) (waits : Waits work held)
    (kept : disciplined work held (calls ++ later) = true) :
    ∃ still, Waits (work.callAll calls) still ∧ disciplined (work.callAll calls) still later = true := by
  induction calls generalizing work held with
  | nil => exact ⟨held, waits, kept⟩
  | cons first rest ih =>
    cases first with
    | add reference => exact ih (waits_add waits reference) kept
    | next =>
      rw [List.cons_append, disciplined, Bool.and_eq_true, Option.isNone_iff_eq_none] at kept
      obtain ⟨rfl, kept⟩ := kept
      exact ih (waits_proceed waits) kept
    | mark name progress =>
      rw [List.cons_append, disciplined, Bool.and_eq_true] at kept
      refine ih (waits_mark waits name progress ?_) kept.2
      simpa [Option.any_eq_false] using kept.1

-- With nothing held the queue has all that is not drained.
theorem next_none_iff_drained (waits : Waits work none) : work.next? = none ↔ work.hasUndrained = false := by
  rw [next_none_iff, hasUndrained, List.any_eq_false]
  simp only [ne_eq, decide_not, Bool.not_eq_true', decide_eq_false_iff_not, not_not]
  constructor
  · intro passed entry member
    by_contra undrained
    have queued := (waits.waiting entry member undrained).resolve_right (Option.some_ne_none _).symm
    exact undrained (passed entry.name queued entry (waits.find_entry entry member))
  · intro drained name _ entry known
    exact drained entry (List.mem_of_find?_eq_some known)

end

theorem calls_told (calls : List Call) :
    let work := called calls
    (∀ reference, (work.takes reference = true ↔ ∀ earlier, .add earlier ∈ calls → earlier.name ≠ reference.name) ∧
        (work.takes reference = false → work.add reference = work)) ∧
      (∀ name, (work.find? name).map Reference.qualifier =
        ((calls.filterMap Call.added?).find? (·.name = name)).map Reference.qualifier) ∧
      ((gather taken? {} calls).map Reference.name).Nodup ∧
      ((gather handed? {} calls).map Reference.name).Sublist ((gather taken? {} calls).map Reference.name) ∧
      (∀ reference rest, work.next? = some (reference, rest) →
        work.find? reference.name = some reference ∧ reference.progress ≠ .drained) ∧
      ∀ later, disciplined {} none (calls ++ .next :: later) = true →
        (work.next? = none ↔ work.hasUndrained = false) := by
  intro work
  have taken : gather taken? {} calls = firsts Reference.name (calls.filterMap Call.added?) := taken_called {} calls
  have names : work.entries.map Reference.name = (gather taken? {} calls).map Reference.name := names_called {} calls
  have entries : work.entries.map Reference.drained = (gather taken? {} calls).map Reference.drained :=
    entries_called {} calls
  refine ⟨fun reference => ⟨?_, work.add_refused reference⟩, fun name => ?_, ?_, handed_called {} calls, ?_, ?_⟩
  · rw [takes_iff, names, taken, key_of_firsts]
    simp only [List.mem_map, mem_added, not_exists, not_and, ne_eq]
  · rw [find?, qualifier_alike _ _ entries, taken, find_firsts]
  · rw [taken]
    exact firsts_nodup Reference.name _
  · intro reference rest next
    obtain ⟨current, undrained, _⟩ := work.next_some rest reference next
    exact ⟨current, undrained⟩
  · intro later kept
    obtain ⟨still, waits, asked⟩ := waits_called calls (.next :: later) waits_start kept
    rw [disciplined, Bool.and_eq_true, Option.isNone_iff_eq_none] at asked
    rw [asked.1] at waits
    exact next_none_iff_drained waits

-- A reference of a name that is out, one that is drained while it is queued, and one that waits.
def bookCalls : List Call := [
  .add ⟨"shop", "Book", .pending⟩, .add ⟨"shop", "Author", .pending⟩, .next, .add ⟨"other", "Book", .pending⟩,
  .mark "Book" .resolved, .mark "Author" .drained, .add ⟨"shop", "Store", .pending⟩, .mark "Book" .drained]

theorem book_calls_told :
    let work := called bookCalls
    (disciplined {} none (bookCalls ++ [.next]) = true ∧ work.hasUndrained = true ∧ work.next? ≠ none) ∧
      (work.takes ⟨"other", "Book", .pending⟩ = false ∧ work.add ⟨"other", "Book", .pending⟩ = work) ∧
      work.next?.map Prod.fst = some ⟨"shop", "Store", .pending⟩ ∧
      work.find? "Store" = some ⟨"shop", "Store", .pending⟩ := by
  intro work
  have told := calls_told bookCalls
  have kept : disciplined {} none (bookCalls ++ [.next]) = true := by decide
  have undrained : work.hasUndrained = true := by decide
  have refused : work.takes ⟨"other", "Book", .pending⟩ = false := by decide
  have next : work.next? = some (⟨"shop", "Store", .pending⟩, work.proceed) := rfl
  refine ⟨⟨kept, undrained, fun nothing => ?_⟩, ⟨refused, (told.1 _).2 refused⟩, ?_, ?_⟩
  · have drained := (told.2.2.2.2.2 [] kept).mp nothing
    rw [undrained] at drained
    contradiction
  · rw [next]
    rfl
  · exact (told.2.2.2.2.1 _ _ next).1

end Worklist

end SchemaDiagram
