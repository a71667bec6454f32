import Mathlib.Data.List.DropRight
import Mathlib.Data.List.TakeWhile
import SchemaDiagram.Text.Basic

/-!
Texts and the white space around them. Trimming takes white space off both ends and nothing else.
-/

set_option autoImplicit false

namespace SchemaDiagram

namespace Text

-- Texts without white space, such as names.
def Solid (t : Text) : Prop := ∀ c ∈ t, isWhite c = false

instance (t : Text) : Decidable t.Solid :=
  decidable_of_iff (t.all (!isWhite ·) = true) (by simp [Solid])

theorem trim_start_solid (t rest : Text) (filled : t ≠ []) (solid : t.Solid) :
    (t ++ rest).dropWhile isWhite = t ++ rest := by
  cases t with
  | nil => contradiction
  | cons c t => rw [List.cons_append, List.dropWhile_cons_of_neg (by simp [solid c List.mem_cons_self])]

theorem trim_end_solid (lead t : Text) (filled : t ≠ []) (solid : t.Solid) :
    trimEnd (lead ++ t) = lead ++ t := by
  rw [trimEnd, List.reverse_append, trim_start_solid t.reverse lead.reverse (by simpa using filled)
    (fun c member => solid c (List.mem_reverse.mp member)), ← List.reverse_append, List.reverse_reverse]

-- White space inside of a text stays.
theorem trim_between (a inner b : Text) (first : a ≠ []) (last : b ≠ []) (left : a.Solid) (right : b.Solid) :
    trim (a ++ inner ++ b) = a ++ inner ++ b := by
  rw [trim, trimStart, List.append_assoc, trim_start_solid a _ first left, ← List.append_assoc,
    trim_end_solid _ b last right]

theorem trim_solid (t : Text) (filled : t ≠ []) (solid : t.Solid) : trim t = t := by
  have start := trim_start_solid t [] filled solid
  rw [List.append_nil] at start
  rw [trim, trimStart, start]
  exact trim_end_solid [] t filled solid

theorem trim_end_append (t rest : Text) (whole : trimEnd t = t) : trimEnd (t ++ rest) = t ++ trimEnd rest := by
  have last : t.reverse.dropWhile isWhite = t.reverse := by
    rw [← List.reverse_reverse (t.reverse.dropWhile isWhite)]
    exact congrArg List.reverse whole
  rw [trimEnd, trimEnd, List.reverse_append, List.dropWhile_append]
  split
  · rename_i nothing
    rw [last, List.reverse_reverse, List.isEmpty_iff.mp nothing, List.reverse_nil, List.append_nil]
  · rw [List.reverse_append, List.reverse_reverse]

theorem trim_end_behind (t rest : Text) (c : Char) (solid : isWhite c = false) :
    trimEnd (t ++ c :: rest) = t ++ c :: trimEnd rest := by
  have whole : trimEnd (t ++ [c]) = t ++ [c] := trim_end_solid t [c] (by simp) (by simpa [Solid] using solid)
  have last := trim_end_append (t ++ [c]) rest whole
  simpa using last

theorem trim_end_front (t : Text) : trimEnd t <+: t := by
  have back := List.reverse_prefix.mpr (List.dropWhile_suffix (l := t.reverse) isWhite)
  rwa [List.reverse_reverse] at back

-- What a text does not start with, no front of it starts with.
theorem stops_front {test : Char → Bool} (front t : Text) (inside : front <+: t) (ends : t.head?.any test = false) :
    front.head?.any test = false := by
  obtain ⟨more, rfl⟩ := inside
  cases front with
  | nil => rfl
  | cons c front => exact ends

theorem trim_split (t : Text) :
    ∃ a b, t = a ++ (t.trim ++ b) ∧ (∀ c ∈ a, isWhite c = true) ∧ ∀ c ∈ b, isWhite c = true := by
  refine ⟨t.takeWhile isWhite, (t.trimStart.reverse.takeWhile isWhite).reverse, ?_, ?_, ?_⟩
  · have behind : t.trim ++ (t.trimStart.reverse.takeWhile isWhite).reverse = t.trimStart := by
      rw [trim, trimEnd, ← List.reverse_append, List.takeWhile_append_dropWhile, List.reverse_reverse]
    rw [behind]
    exact List.takeWhile_append_dropWhile.symm
  · exact fun c member => List.mem_takeWhile_imp member
  · exact fun c member => List.mem_takeWhile_imp (List.mem_reverse.mp member)

theorem trim_end_split (t : Text) : ∃ b, t = t.trimEnd ++ b ∧ ∀ c ∈ b, isWhite c = true := by
  refine ⟨(t.reverse.takeWhile isWhite).reverse, ?_, ?_⟩
  · rw [trimEnd, ← List.reverse_append, List.takeWhile_append_dropWhile, List.reverse_reverse]
  · exact fun c member => List.mem_takeWhile_imp (List.mem_reverse.mp member)

theorem trim_end_again (t : Text) : t.trimEnd.trimEnd = t.trimEnd := by
  rw [trimEnd, trimEnd, List.reverse_reverse, List.dropWhile_idempotent isWhite]

theorem trim_end_last (t : Text) (c : Char) (last : t.trimEnd.getLast? = some c) : isWhite c = false := by
  rw [trimEnd, List.getLast?_reverse] at last
  have first := List.head?_dropWhile_not isWhite t.reverse
  rw [last] at first
  simpa using first

theorem trim_end_white (t : Text) (white : ∀ c ∈ t, isWhite c = true) : t.trimEnd = [] := by
  rw [trimEnd, List.dropWhile_eq_nil_iff.mpr fun c member => white c (List.mem_reverse.mp member), List.reverse_nil]

-- Behind a text without white space only the end of the others is trimmed.
theorem trim_led (lead rest : Text) (filled : lead ≠ []) (solid : lead.Solid) :
    trim (lead ++ rest) = lead ++ trimEnd rest := by
  rw [trim, trimStart, trim_start_solid lead rest filled solid]
  exact trim_end_append lead rest (trim_end_solid [] lead filled solid)

end Text

end SchemaDiagram
