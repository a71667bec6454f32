import SchemaDiagram.Proofs.Annotations

/-!
Where a group of brackets ends. A count of the brackets outside of literals, one up for each that opens and one down for
each that closes, whatever their kinds, comes back to zero at the bracket that closes the group. Where it never does, the
group is the whole text. So one scan with a count ends where the scan does that goes into the groups inside of the group.
-/

set_option autoImplicit false

namespace SchemaDiagram

namespace Scan

-- What a character adds to the count of the brackets; `quoted` says that a literal is open in front of it.
def rise (quoted : Bool) (c : Char) : Int := if quoted then 0 else if opens c then 1 else if closes c then -1 else 0

-- Whether a literal is open behind a character. One that no quote closes goes on to the end of the text.
def quotedBehind (quoted : Bool) (c : Char) : Bool := if c = '\'' then !quoted else quoted

def bracketCount (quoted : Bool) : Text → Int
  | [] => 0
  | c :: t => rise quoted c + bracketCount (quotedBehind quoted c) t

-- The scan with a count: what is left of a text behind the first place where the count is zero.
def afterZero (quoted : Bool) (count : Int) : Text → Text
  | [] => []
  | c :: t => if count + rise quoted c = 0 then t else afterZero (quotedBehind quoted c) (count + rise quoted c) t

/-! The scan with a count, by the first character. -/

theorem bracket_unquoted (c : Char) (bracket : opens c = true ∨ closes c = true) : quotedBehind false c = false := by
  apply if_neg
  rintro rfl
  rcases bracket with opening | closing <;> contradiction

theorem rise_closes (c : Char) (closing : closes c = true) : rise false c = -1 := by
  have unopened : ¬ opens c = true := fun opening => by simp [opening_open c opening] at closing
  exact (if_neg unopened).trans (if_pos closing)

theorem after_zero_onward (quoted : Bool) (count : Int) (c : Char) (t : Text) (onward : count + rise quoted c ≠ 0) :
    afterZero quoted count (c :: t) = afterZero (quotedBehind quoted c) (count + rise quoted c) t := if_neg onward

theorem after_zero_opens (count : Int) (c : Char) (t : Text) (level : 0 ≤ count) (opening : opens c = true) :
    afterZero false count (c :: t) = afterZero false (count + 1) t := by
  have up : rise false c = 1 := if_pos opening
  rw [after_zero_onward false count c t (by omega), up, bracket_unquoted c (.inl opening)]

theorem after_zero_closes (count : Int) (c : Char) (t : Text) (closing : closes c = true) :
    afterZero false count (c :: t) = if count = 1 then t else afterZero false (count - 1) t := by
  rw [afterZero, rise_closes c closing, bracket_unquoted c (.inr closing), ← Int.sub_eq_add_neg]
  simp only [Int.sub_eq_zero]

theorem after_zero_level (quoted : Bool) (count : Int) (c : Char) (t : Text) (opened : 0 < count)
    (level : rise quoted c = 0) : afterZero quoted count (c :: t) = afterZero (quotedBehind quoted c) count t := by
  rw [after_zero_onward quoted count c t (by omega), level, Int.add_zero]

-- A literal has no part in the count.
theorem after_zero_quoted (count : Int) (t : Text) (opened : 0 < count) :
    afterZero true count t = afterZero false count (afterQuote t) := by
  induction t with
  | nil => rfl
  | cons c t ih =>
    rw [after_zero_level true count c t opened rfl]
    by_cases quote : c = '\''
    · subst quote
      rfl
    · have passed : afterQuote (c :: t) = afterQuote t := by
        rw [afterQuote, List.dropWhile_cons_of_pos (by simpa using quote), afterQuote]
      rw [quotedBehind, if_neg quote, passed, ih]

-- Behind the inside of a group stands the bracket that closes it, or nothing.
theorem after_zero_behind (count : Int) (t : Text) :
    afterZero false count (afterInside t).1 =
      if count = 1 then afterGroup t else afterZero false (count - 1) (afterGroup t) := by
  have stops := inside_stops t
  rw [afterGroup]
  cases left : (afterInside t).1 with
  | nil => exact (ite_self _).symm
  | cons c rest =>
    rw [left] at stops
    exact after_zero_closes count c rest stops

-- What the inside of a group adds to the count it takes back, and the count is not zero before its end.
theorem after_zero_inside (count : Int) (t : Text) (opened : 0 < count) :
    afterZero false count (afterInside t).1 = afterZero false count t := by
  induction t using inside_induction generalizing count with
  | nil => rw [afterInside]
  | closing c inner closing => rw [inside_closes c inner closing]
  | group c inner closing opening within behind =>
    -- The group is passed with one bracket more that is open, which the one at its end closes.
    calc afterZero false count (afterInside (c :: inner)).1
        = afterZero false count (afterInside (afterGroup inner)).1 := by rw [inside_opens c inner closing opening]
      _ = afterZero false count (afterGroup inner) := behind count opened
      _ = afterZero false (count + 1) (afterInside inner).1 := by
          rw [after_zero_behind, if_neg (by omega), Int.add_sub_cancel]
      _ = afterZero false (count + 1) inner := within (count + 1) (by omega)
      _ = afterZero false count (c :: inner) := (after_zero_opens count c inner (by omega) opening).symm
  | literal inner behind =>
    rw [inside_quote '\'' inner rfl rfl rfl, behind count opened, after_zero_level false count '\'' inner opened rfl]
    exact (after_zero_quoted count inner opened).symm
  | other c inner closing opening quote behind =>
    have level : rise false c = 0 := by simp [rise, opening, closing]
    rw [inside_other c inner closing opening quote, behind count opened,
      after_zero_level false count c inner opened level, quotedBehind, if_neg quote]

theorem after_group_counts (c : Char) (t : Text) (opening : opens c = true) :
    afterGroup t = afterZero false 0 (c :: t) := by
  rw [after_zero_opens 0 c t (Int.le_refl 0) opening, Int.zero_add, ← after_zero_inside 1 t Int.one_pos,
    after_zero_behind, if_pos rfl]

-- A beginning of a text with a character at least, at whose end the count is zero.
structure ZeroAt (quoted : Bool) (count : Int) (t front : Text) : Prop where
  begins : front <+: t
  filled : front ≠ []
  zero : count + bracketCount quoted front = 0

-- The shortest of them.
structure FirstZero (quoted : Bool) (count : Int) (t front : Text) : Prop extends ZeroAt quoted count t front where
  shortest : ∀ other, ZeroAt quoted count t other → front.length ≤ other.length

theorem zero_at_onward (quoted : Bool) (count : Int) (c : Char) (t other : Text) (onward : count + rise quoted c ≠ 0) :
    ZeroAt quoted count (c :: t) other ↔
      ∃ more, other = c :: more ∧ ZeroAt (quotedBehind quoted c) (count + rise quoted c) t more := by
  constructor
  · rintro ⟨begins, filled, zero⟩
    rcases List.prefix_cons_iff.mp begins with rfl | ⟨more, rfl, further⟩
    · contradiction
    · rw [bracketCount, ← Int.add_assoc] at zero
      refine ⟨more, rfl, further, ?_, zero⟩
      rintro rfl
      exact onward ((Int.add_zero _).symm.trans zero)
  · rintro ⟨more, rfl, begins, _, zero⟩
    refine ⟨List.cons_prefix_cons.mpr ⟨rfl, begins⟩, List.cons_ne_nil c more, ?_⟩
    rw [bracketCount, ← Int.add_assoc, zero]

-- The scan with a count takes the shortest beginning at which the count is zero, or all where there is none.
theorem after_zero_told (quoted : Bool) (count : Int) (t : Text) :
    ∃ front, front ++ afterZero quoted count t = t ∧
      (FirstZero quoted count t front ∨ afterZero quoted count t = [] ∧ ∀ other, ¬ ZeroAt quoted count t other) := by
  induction t generalizing quoted count with
  | nil => exact ⟨[], rfl, .inr ⟨rfl, fun other reached => reached.filled (List.prefix_nil.mp reached.begins)⟩⟩
  | cons c t ih =>
    by_cases zero : count + rise quoted c = 0
    · have left : afterZero quoted count (c :: t) = t := if_pos zero
      -- Every beginning has a character at least, so none is shorter than this one.
      have here : ZeroAt quoted count (c :: t) [c] := by
        refine ⟨⟨t, rfl⟩, List.cons_ne_nil c [], ?_⟩
        rw [bracketCount, bracketCount, Int.add_zero, zero]
      refine ⟨[c], congrArg (c :: ·) left, .inl ⟨here, fun other reached => ?_⟩⟩
      exact List.length_pos_iff.mpr reached.filled
    · rw [after_zero_onward quoted count c t zero]
      have further (other : Text) := zero_at_onward quoted count c t other zero
      obtain ⟨front, split, told⟩ := ih (quotedBehind quoted c) (count + rise quoted c)
      refine ⟨c :: front, congrArg (c :: ·) split, ?_⟩
      rcases told with first | ⟨all, never⟩
      · refine .inl ⟨(further _).mpr ⟨front, rfl, first.toZeroAt⟩, fun other reached => ?_⟩
        obtain ⟨more, rfl, behind⟩ := (further other).mp reached
        exact Nat.succ_le_succ (first.shortest more behind)
      · refine .inr ⟨all, fun other reached => ?_⟩
        obtain ⟨more, _, behind⟩ := (further other).mp reached
        exact never more behind

end Scan

open Scan

-- The group behind the first character of an annotation is the shortest beginning at which the count of its brackets
-- comes back to zero, or all of the text where the count never does; the annotation is that group.
theorem group_ends_at_zero (c : Char) (t : Text) (opening : opens c = true) :
    afterGroup t = afterZero false 0 (c :: t) ∧
      ∃ group, group ++ afterGroup t = c :: t ∧
        (FirstZero false 0 (c :: t) group ∨ afterGroup t = [] ∧ ∀ front, ¬ ZeroAt false 0 (c :: t) front) ∧
        ∀ start, tokensFrom start ('@' :: c :: t) =
          ⟨.tag, '@' :: group, start⟩ :: tokensFrom (start + Text.byteSize ('@' :: group)) (afterGroup t) := by
  have counts := after_group_counts c t opening
  obtain ⟨group, split, told⟩ := after_zero_told false 0 (c :: t)
  rw [← counts] at split told
  refine ⟨counts, group, split, told, fun start => ?_⟩
  have read := Cut.tag (c :: t)
  rw [afterTag, if_pos opening, ← split] at read
  rw [← split]
  exact tokens_of_cut start '@' group (afterGroup t) .tag read

-- Brackets that close those of another kind, with others in literals, and brackets that a literal keeps open.
def crossedInside : Text := "a: ')', \x7b b: (c], d: 'e''(' \x7d]"

def keptOpen : Text := "a, \x7b b) 'c)] \x7d"

theorem crossed_group_ends :
    opens '[' = true ∧ FirstZero false 0 ('[' :: (crossedInside ++ [';'])) ('[' :: crossedInside) ∧
      tokenize ('@' :: '[' :: (crossedInside ++ [';'])) = ⟨.tag, '@' :: '[' :: crossedInside, 0⟩ :: tokensFrom 32 [';'] ∧
      opens '(' = true ∧ afterGroup keptOpen = [] ∧ ∀ front, ¬ ZeroAt false 0 ('(' :: keptOpen) front := by
  have left : afterGroup (crossedInside ++ [';']) = [';'] := by decide +kernel
  obtain ⟨_, group, split, told, read⟩ := group_ends_at_zero '[' (crossedInside ++ [';']) (by decide)
  rw [left] at split told read
  obtain rfl : group = '[' :: crossedInside := List.append_cancel_right split
  obtain ⟨_, whole, taken, never, _⟩ := group_ends_at_zero '(' keptOpen (by decide)
  have nothing : afterGroup keptOpen = [] := by decide +kernel
  rw [nothing, List.append_nil] at taken
  have count : bracketCount false ('(' :: keptOpen) = 1 := by decide +kernel
  refine ⟨by decide, told.resolve_right (by simp), read 0, by decide, nothing, (never.resolve_left fun first => ?_).2⟩
  have zero := first.zero
  rw [taken, count] at zero
  contradiction

end SchemaDiagram
