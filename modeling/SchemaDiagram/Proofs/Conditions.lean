import SchemaDiagram.Proofs.ClauseWords
import SchemaDiagram.Resolution

/-!
Conditions behind a type. A condition that says something on one line is nothing to what the type is resolved to, whatever
it says: the type may have a condition of its own, or be written over several lines.
-/

set_option autoImplicit false

namespace SchemaDiagram

namespace Text

-- A text that white space neither begins nor ends.
structure Trimmed (t : Text) : Prop where
  first : t.head?.any isWhite = false
  last : t.getLast?.any isWhite = false

theorem last_of_tail (c : Char) (t : Text) (filled : t ≠ []) (last : (c :: t).getLast?.any isWhite = false) :
    t.getLast?.any isWhite = false := by
  rwa [← List.singleton_append, List.getLast?_append_of_ne_nil [c] filled] at last

-- White space that is dropped from the front of a text goes no further than that text.
theorem drop_white_append (t rest : Text) (filled : t ≠ []) (last : t.getLast?.any isWhite = false) :
    (t ++ rest).dropWhile isWhite = t.dropWhile isWhite ++ rest := by
  have some_left : t.dropWhile isWhite ≠ [] := by
    intro nothing
    have white := List.dropWhile_eq_nil_iff.mp nothing _ (List.getLast_mem filled)
    rw [List.getLast?_eq_some_getLast filled, Option.any_some, white] at last
    contradiction
  rw [List.dropWhile_append, if_neg (by simpa using some_left)]

theorem Trimmed.trim_append (t rest : Text) (filled : t ≠ []) (trimmed : t.Trimmed) :
    trim (t ++ rest) = t ++ trimEnd rest := by
  obtain ⟨c, front, rfl⟩ := List.exists_cons_of_ne_nil filled
  have start : trimStart (c :: front ++ rest) = c :: front ++ rest :=
    List.dropWhile_cons_of_neg (by simpa using trimmed.first)
  have whole : trimEnd (c :: front) = c :: front := by
    have last : (c :: front).reverse.head?.any isWhite = false := by
      rw [List.head?_reverse]
      exact trimmed.last
    cases back : (c :: front).reverse with
    | nil => simp at back
    | cons d others =>
      rw [back] at last
      rw [trimEnd, back, List.dropWhile_cons_of_neg (by simpa using last), ← back, List.reverse_reverse]
  rw [trim, start, trim_end_append (c :: front) rest whole]

theorem Trimmed.trim_self (t : Text) (filled : t ≠ []) (trimmed : t.Trimmed) : trim t = t := by
  have alone := trimmed.trim_append t [] filled
  rwa [List.append_nil, show trimEnd [] = [] from rfl, List.append_nil] at alone

end Text

namespace TypeClause

open Text

-- What stands on the line behind a condition belongs to it, and behind any other text it makes none of it.
theorem is_condition_append (t rest : Text) (stops : rest.head?.any isWordUnit = false) (line : '\n' ∉ rest) :
    isCondition (t ++ rest) = isCondition t := by
  have units : AllUnits "on" := by decide
  rw [isCondition, isCondition, afterWord?, afterWord?, after_word_front "on" t rest units stops]
  cases after? "on" t with
  | none => rfl
  | some behind =>
    have ends : endsWord (behind ++ rest) = endsWord behind := by
      cases behind with
      | nil => rw [List.nil_append, ends_word_eq, stops]; rfl
      | cons c behind => rfl
    rw [Option.map_some, Option.filter_some, Option.filter_some, ends]
    split <;> simp [line]

-- The first condition is the same with another one behind it: no white space in front of it reaches past the end of `t`.
theorem without_condition_behind (t rest : Text) (last : t.getLast?.any isWhite = false)
    (stops : rest.head?.any isWordUnit = false) (line : '\n' ∉ rest) (condition : withoutCondition rest = []) :
    withoutCondition (t ++ rest) = withoutCondition t := by
  induction t with
  | nil => exact condition
  | cons c t ih =>
    cases white : isWhite c with
    | false =>
      have others : t.getLast?.any isWhite = false := by
        by_cases nothing : t = []
        · rw [nothing]; rfl
        · exact last_of_tail c t nothing last
      rw [List.cons_append, withoutCondition, withoutCondition, white, Bool.false_and, if_neg (by simp), ih others]
      rfl
    | true =>
      have filled : t ≠ [] := by
        rintro rfl
        simp [white] at last
      have others := last_of_tail c t filled last
      rw [List.cons_append, withoutCondition, withoutCondition, drop_white_append t rest filled others,
        is_condition_append _ rest stops line, ih others]

theorem condition_cut (rest : Text) (stops : rest.head?.any isWordUnit = false) (line : '\n' ∉ rest) :
    withoutCondition (" on".toList ++ rest) = [] := by
  have first : ("on".toList ++ rest).dropWhile isWhite = "on".toList ++ rest :=
    trim_start_solid "on" rest (by decide) (by decide)
  have condition : isCondition ("on".toList ++ rest) = true := by
    rw [isCondition, after_word_self "on" rest stops]
    simpa using line
  change withoutCondition (' ' :: ("on".toList ++ rest)) = []
  rw [withoutCondition, first, condition]
  rfl

theorem of_conditioned (raw condition : Text) (filled : raw ≠ []) (trimmed : raw.Trimmed) (line : '\n' ∉ condition) :
    ofText (raw ++ " on ".toList ++ condition) = ofText raw := by
  have shorter : trimEnd (' ' :: condition) <+: ' ' :: condition := trim_end_front _
  have stops : (trimEnd (' ' :: condition)).head?.any isWordUnit = false :=
    stops_front _ _ shorter (white_no_word ' ' (by decide))
  have unbroken : '\n' ∉ trimEnd (' ' :: condition) := by
    intro member
    rcases List.mem_cons.mp (shorter.subset member) with blank | inside
    · contradiction
    · exact line inside
  have trims : (raw ++ " on ".toList ++ condition).trim = raw ++ (" on".toList ++ trimEnd (' ' :: condition)) := by
    have shown := trimmed.trim_append raw (" on".toList ++ ' ' :: condition) filled
    rw [trim_end_append " on" _ (by decide)] at shown
    simpa using shown
  have kept : withoutCondition (raw ++ (" on".toList ++ trimEnd (' ' :: condition))) = withoutCondition raw :=
    without_condition_behind raw _ trimmed.last rfl (by simpa using unbroken)
      (condition_cut _ stops unbroken)
  rw [ofText, ofText, trims, kept, trimmed.trim_self raw filled]

end TypeClause

namespace Resolution

theorem condition_discarded (types : TypeTable) (file : SourceFile) (raw condition : Text) (filled : raw ≠ [])
    (trimmed : raw.Trimmed) (line : '\n' ∉ condition) :
    resolve types file (raw ++ " on ".toList ++ condition) = resolve types file raw := by
  rw [resolve, resolve, TypeClause.of_conditioned raw condition filled trimmed line]

-- A type over two lines that has a condition, and a further one with the words of a clause in it.
theorem twice_conditioned_items :
    let raw : Text := "Composition of\n many shop.Items(9) on a.b"
    let condition : Text := "on many [x] on Association to\t"
    (raw ≠ [] ∧ raw.Trimmed ∧ '\n' ∉ condition) ∧
      resolve {} (SourceFile.ofText none []) (raw ++ " on ".toList ++ condition) =
        ⟨"Items", some ⟨.composition, "Items"⟩, some ⟨"shop", "Items", .pending⟩⟩ := by
  intro raw condition
  have filled : raw ≠ [] := by decide
  have trimmed : raw.Trimmed := ⟨by decide, by decide⟩
  have line : '\n' ∉ condition := by decide
  refine ⟨⟨filled, trimmed, line⟩, ?_⟩
  rw [condition_discarded {} (SourceFile.ofText none []) raw condition filled trimmed line]
  decide +kernel

end Resolution

end SchemaDiagram
