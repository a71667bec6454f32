import Mathlib.Data.List.TakeWhile
import SchemaDiagram.Proofs.CommentScan
import SchemaDiagram.Proofs.OneLine
import SchemaDiagram.Proofs.Trimming

/-!
Texts whose lines end with LF or with CR and LF, and what is left of them without the CRs. What is read off such a
text by tests that do not tell the two characters apart is the same with the CRs and without them.
-/

set_option autoImplicit false

namespace SchemaDiagram

namespace Text

def withoutReturns (t : Text) : Text := t.filter (· ≠ '\r')

def withReturns (t : Text) : Text := t.flatMap fun c => if c = '\n' then ['\r', '\n'] else [c]

section

variable (t rest : Text) (c : Char)

theorem without_returns_return : withoutReturns ('\r' :: rest) = withoutReturns rest := rfl

theorem without_returns_feed : withoutReturns ('\n' :: rest) = '\n' :: withoutReturns rest := rfl

theorem without_returns_other (other : c ≠ '\r') : withoutReturns (c :: rest) = c :: withoutReturns rest :=
  List.filter_cons_of_pos (decide_eq_true other)

theorem without_returns_append (a b : Text) :
    withoutReturns (a ++ b) = withoutReturns a ++ withoutReturns b := List.filter_append a b

theorem without_returns_free (free : '\r' ∉ t) : withoutReturns t = t := by
  apply List.filter_eq_self.mpr
  intro d member
  exact decide_eq_true fun same => free (same ▸ member)

theorem return_not_left : '\r' ∉ withoutReturns t := by
  intro member
  have kept := (List.mem_filter.mp member).2
  contradiction

theorem without_returns_flat_map {α : Type} (items : List α) (part : α → Text) :
    withoutReturns (items.flatMap part) = items.flatMap fun item => withoutReturns (part item) :=
  List.filter_flatMap

theorem without_returns_with_returns (free : '\r' ∉ t) : withoutReturns (withReturns t) = t := by
  induction t with
  | nil => rfl
  | cons d rest ih =>
    rw [List.mem_cons, not_or] at free
    have others := ih free.2
    by_cases feed : d = '\n'
    · subst feed
      exact congrArg ('\n' :: ·) others
    · have single : withReturns (d :: rest) = d :: withReturns rest := by
        rw [withReturns, List.flatMap_cons, if_neg feed]
        rfl
      rw [single, without_returns_other _ d (Ne.symm free.1), others]

end

-- Where a text is put together, each part of it loses its own.
theorem without_returns_join (a b c d : Text) (first : withoutReturns a = c) (second : withoutReturns b = d) :
    withoutReturns (a ++ b) = c ++ d := by
  rw [without_returns_append, first, second]

theorem paired_nil : pairedReturns [] = true := rfl

theorem paired_other (c : Char) (rest : Text) (other : c ≠ '\r') :
    pairedReturns (c :: rest) = pairedReturns rest := by
  simp [pairedReturns, other]

theorem paired_return (rest : Text) (paired : pairedReturns ('\r' :: rest) = true) :
    ∃ behind, rest = '\n' :: behind ∧ pairedReturns rest = true := by
  rw [pairedReturns, Bool.and_eq_true] at paired
  have feed : rest.head? = some '\n' := by simpa using paired.1
  obtain ⟨behind, same⟩ := List.head?_eq_some_iff.mp feed
  exact ⟨behind, same, paired.2⟩

-- By the characters of a text, where a CR comes with the LF behind it.
theorem paired_induction {motive : (t : Text) → pairedReturns t = true → Prop} (nil : motive [] rfl)
    (ending : ∀ rest paired whole, motive ('\n' :: rest) paired → motive ('\r' :: '\n' :: rest) whole)
    (other : ∀ c rest, c ≠ '\r' → ∀ paired whole, motive rest paired → motive (c :: rest) whole)
    (t : Text) (paired : pairedReturns t = true) : motive t paired := by
  induction t with
  | nil => exact nil
  | cons c rest ih =>
    by_cases same : c = '\r'
    · subst same
      obtain ⟨behind, rfl, further⟩ := paired_return rest paired
      exact ending behind further paired (ih further)
    · have further := (paired_other c rest same).symm.trans paired
      exact other c rest same further paired (ih further)

theorem paired_append (a b : Text) (first : pairedReturns a = true) (second : pairedReturns b = true) :
    pairedReturns (a ++ b) = true := by
  induction a, first using paired_induction with
  | nil => exact second
  | ending rest _ _ ih => exact ih
  | other c rest apart _ _ ih =>
    rw [List.cons_append, paired_other c _ apart]
    exact ih

theorem paired_free (t : Text) (free : '\r' ∉ t) : pairedReturns t = true := by
  induction t with
  | nil => rfl
  | cons c rest ih =>
    rw [List.mem_cons, not_or] at free
    rw [paired_other c rest (Ne.symm free.1)]
    exact ih free.2

theorem paired_flat_map {α : Type} (items : List α) (part : α → Text)
    (each : ∀ item ∈ items, pairedReturns (part item) = true) : pairedReturns (items.flatMap part) = true := by
  induction items with
  | nil => rfl
  | cons item rest ih =>
    rw [List.flatMap_cons]
    apply paired_append
    · exact each item List.mem_cons_self
    · exact ih fun other member => each other (List.mem_cons_of_mem item member)

theorem paired_with_returns (t : Text) (free : '\r' ∉ t) : pairedReturns (withReturns t) = true := by
  apply paired_flat_map
  intro c member
  by_cases feed : c = '\n'
  · rw [if_pos feed]
    rfl
  · rw [if_neg feed]
    exact paired_free [c] fun same => free (List.mem_singleton.mp same ▸ member)

-- A front that ends with no CR takes no LF away from one.
theorem paired_front (a b : Text) (paired : pairedReturns (a ++ b) = true) (last : a.getLast? ≠ some '\r') :
    pairedReturns a = true := by
  induction a with
  | nil => rfl
  | cons c rest ih =>
    rw [List.cons_append] at paired
    cases rest with
    | nil =>
      apply paired_free
      intro member
      rw [List.mem_singleton.mp member] at last
      exact last rfl
    | cons d more =>
      rw [pairedReturns, Bool.and_eq_true] at paired ⊢
      exact ⟨paired.1, ih paired.2 (by rwa [List.getLast?_cons_cons] at last)⟩

theorem empty_without_returns (t : Text) (paired : pairedReturns t = true) : withoutReturns t = [] ↔ t = [] := by
  induction t, paired using paired_induction with
  | nil => exact Iff.rfl
  | ending rest _ _ _ =>
    rw [without_returns_return, without_returns_feed rest]
    simp
  | other c rest apart _ _ _ =>
    rw [without_returns_other rest c apart]
    simp

/-! Tests on characters that do not tell CR from LF. -/

section

variable (test : Char → Bool) (alike : test '\r' = test '\n')

include alike

theorem drop_while_without_returns (t : Text) (paired : pairedReturns t = true) :
    (withoutReturns t).dropWhile test = withoutReturns (t.dropWhile test) := by
  induction t, paired using paired_induction with
  | nil => rfl
  | ending rest _ _ ih =>
    cases passed : test '\n' with
    | true => rw [List.dropWhile_cons_of_pos (alike.trans passed), without_returns_return, ih]
    | false =>
      have stays : ¬ test '\n' = true := by simp [passed]
      rw [List.dropWhile_cons_of_neg (by rwa [alike]), without_returns_return,
        without_returns_feed rest, List.dropWhile_cons_of_neg stays]
  | other c rest apart _ _ ih =>
    rw [without_returns_other rest c apart]
    cases passed : test c with
    | true => rw [List.dropWhile_cons_of_pos passed, List.dropWhile_cons_of_pos passed, ih]
    | false =>
      have stays : ¬ test c = true := by simp [passed]
      rw [List.dropWhile_cons_of_neg stays, List.dropWhile_cons_of_neg stays, without_returns_other rest c apart]

theorem take_while_without_returns (t : Text) (paired : pairedReturns t = true) :
    (withoutReturns t).takeWhile test = withoutReturns (t.takeWhile test) := by
  have whole := without_returns_append (t.takeWhile test) (t.dropWhile test)
  have parts := List.takeWhile_append_dropWhile (p := test) (l := withoutReturns t)
  rw [List.takeWhile_append_dropWhile] at whole
  rw [drop_while_without_returns test alike t paired] at parts
  exact List.append_cancel_right (parts.trans whole)

theorem paired_take_while (t : Text) (paired : pairedReturns t = true) : pairedReturns (t.takeWhile test) = true := by
  induction t, paired using paired_induction with
  | nil => rfl
  | ending rest _ _ ih =>
    cases passed : test '\n' with
    | true =>
      rw [List.takeWhile_cons_of_pos passed] at ih
      rw [List.takeWhile_cons_of_pos (alike.trans passed), List.takeWhile_cons_of_pos passed]
      exact ih
    | false => rw [List.takeWhile_cons_of_neg (by simp [alike, passed]), paired_nil]
  | other c rest apart _ _ ih =>
    cases passed : test c with
    | true => rw [List.takeWhile_cons_of_pos passed, paired_other c _ apart, ih]
    | false => rw [List.takeWhile_cons_of_neg (by simp [passed]), paired_nil]

theorem head_without_returns (t : Text) (paired : pairedReturns t = true) :
    (withoutReturns t).head?.any test = t.head?.any test := by
  induction t, paired using paired_induction with
  | nil => rfl
  | ending rest _ _ _ =>
    rw [without_returns_return, without_returns_feed rest]
    exact alike.symm
  | other c rest apart _ _ _ => rw [without_returns_other rest c apart]; rfl

end

theorem paired_drop_while (test : Char → Bool) (t : Text) (paired : pairedReturns t = true) :
    pairedReturns (t.dropWhile test) = true := paired_returns_suffix t _ (List.dropWhile_suffix test) paired

-- A test that passes CR does not stop in front of one.
theorem drop_while_passing (test : Char → Bool) (passes : test '\r' = true) (t : Text) :
    (withoutReturns t).dropWhile test = withoutReturns (t.dropWhile test) := by
  induction t with
  | nil => rfl
  | cons c rest ih =>
    by_cases same : c = '\r'
    · subst same
      rw [without_returns_return, List.dropWhile_cons_of_pos passes, ih]
    · rw [without_returns_other rest c same]
      cases passed : test c with
      | true => rw [List.dropWhile_cons_of_pos passed, List.dropWhile_cons_of_pos passed, ih]
      | false =>
        have stays : ¬ test c = true := by simp [passed]
        rw [List.dropWhile_cons_of_neg stays, List.dropWhile_cons_of_neg stays, without_returns_other rest c same]

theorem take_while_passing (test : Char → Bool) (passes : test '\r' = true) (t : Text) :
    (withoutReturns t).takeWhile test = withoutReturns (t.takeWhile test) := by
  have whole := without_returns_append (t.takeWhile test) (t.dropWhile test)
  have parts := List.takeWhile_append_dropWhile (p := test) (l := withoutReturns t)
  rw [List.takeWhile_append_dropWhile] at whole
  rw [drop_while_passing test passes t] at parts
  exact List.append_cancel_right (parts.trans whole)

theorem without_returns_reverse (t : Text) : withoutReturns t.reverse = (withoutReturns t).reverse :=
  List.filter_reverse

theorem trim_end_without_returns (t : Text) : (withoutReturns t).trimEnd = withoutReturns t.trimEnd := by
  rw [trimEnd, trimEnd, ← without_returns_reverse, drop_while_passing isWhite (by decide), without_returns_reverse]

theorem trim_without_returns (t : Text) : (withoutReturns t).trim = withoutReturns t.trim := by
  rw [trim, trim, trimStart, trimStart, drop_while_passing isWhite (by decide), trim_end_without_returns]

theorem blank_without_returns (t : Text) : (withoutReturns t).isBlank = t.isBlank := by
  rw [isBlank, isBlank, Bool.eq_iff_iff, List.all_eq_true, List.all_eq_true]
  constructor
  · intro each c member
    by_cases same : c = '\r'
    · subst same
      decide
    · exact each c (List.mem_filter.mpr ⟨member, decide_eq_true same⟩)
  · exact fun each c member => each c (List.mem_filter.mp member).1

theorem paired_trim_end (t : Text) (paired : pairedReturns t = true) : pairedReturns t.trimEnd = true := by
  obtain ⟨behind, whole, _⟩ := trim_end_split t
  rw [whole] at paired
  apply paired_front _ behind paired
  intro last
  exact absurd (trim_end_last t _ last) (by decide)

theorem paired_trim (t : Text) (paired : pairedReturns t = true) : pairedReturns t.trim = true :=
  paired_trim_end _ (paired_drop_while isWhite t paired)

theorem after_last_without_returns (t : Text) :
    afterLast '\n' (withoutReturns t) = withoutReturns (afterLast '\n' t) := by
  rw [afterLast, afterLast, ← without_returns_reverse, take_while_passing _ (by decide), without_returns_reverse]

theorem paired_after_last (sep : Char) (t : Text) (paired : pairedReturns t = true) :
    pairedReturns (afterLast sep t) = true := by
  apply paired_returns_suffix t _ _ paired
  have front : (t.reverse.takeWhile (· ≠ sep)).reverse <:+ t.reverse.reverse :=
    List.reverse_suffix.mpr (List.takeWhile_prefix _)
  rwa [List.reverse_reverse] at front

/-! A text that a given one starts with, or a word of it. -/

-- No line ends with a character of the text, and none begins in it.
def Unbroken (lead : Text) : Prop := ∀ c ∈ lead, c ≠ '\r' ∧ c ≠ '\n'

instance (lead : Text) : Decidable (Unbroken lead) :=
  decidable_of_iff (lead.all fun c => c != '\r' && c != '\n') (by simp [Unbroken])

theorem after_without_returns (lead : Text) (unbroken : Unbroken lead) (t : Text) (paired : pairedReturns t = true) :
    after? lead (withoutReturns t) = (after? lead t).map withoutReturns := by
  induction lead generalizing t with
  | nil => rfl
  | cons p lead ih =>
    obtain ⟨back, feed⟩ := unbroken p List.mem_cons_self
    have others : Unbroken lead := fun c member => unbroken c (List.mem_cons_of_mem p member)
    cases t, paired using paired_induction with
    | nil => rfl
    | ending rest _ _ _ =>
      rw [without_returns_return, without_returns_feed rest, after?, after?, if_neg feed, if_neg back]
      rfl
    | other c rest apart further _ _ =>
      rw [without_returns_other rest c apart, after?, after?]
      split
      · exact ih others rest further
      · rfl

theorem paired_after (lead t rest : Text) (paired : pairedReturns t = true) (found : after? lead t = some rest) :
    pairedReturns rest = true := by
  rw [after_eq_some_iff] at found
  exact paired_returns_suffix t rest ⟨lead, found.symm⟩ paired

theorem ends_word_without_returns (t : Text) (paired : pairedReturns t = true) :
    endsWord (withoutReturns t) = endsWord t := by
  cases t, paired using paired_induction with
  | nil => rfl
  | ending rest _ _ _ => rfl
  | other c rest apart _ _ _ =>
    rw [without_returns_other rest c apart]
    rfl

theorem after_word_without_returns (word : Text) (unbroken : Unbroken word) (t : Text)
    (paired : pairedReturns t = true) :
    (afterWord? word (withoutReturns t)).isSome = (afterWord? word t).isSome := by
  rw [afterWord?, afterWord?, after_without_returns word unbroken t paired]
  cases found : after? word t with
  | none => rfl
  | some rest =>
    rw [Option.map_some, Option.filter_some, Option.filter_some,
      ends_word_without_returns rest (paired_after word t rest paired found)]
    split <;> rfl

-- A test that passes at no line end passes in the same places, whatever the lines end with.
theorem any_word_start_without_returns (test : Text → Bool)
    (ending : ∀ rest, test ('\r' :: rest) = false ∧ test ('\n' :: rest) = false)
    (same : ∀ t, pairedReturns t = true → test (withoutReturns t) = test t) (inside : Bool) (t : Text)
    (paired : pairedReturns t = true) :
    anyWordStart test inside (withoutReturns t) = anyWordStart test inside t := by
  induction t, paired using paired_induction generalizing inside with
  | nil => rfl
  | ending rest _ _ ih =>
    have further := ih inside
    rw [without_returns_feed rest, anyWordStart, anyWordStart, (ending _).2, (ending _).2] at further
    rw [without_returns_return, without_returns_feed rest, anyWordStart, anyWordStart, anyWordStart,
      (ending _).2, (ending _).1, (ending _).2, further]
    simp
  | other c rest apart _ paired ih =>
    have whole := same (c :: rest) (by rwa [paired_other c rest apart])
    rw [without_returns_other rest c apart] at whole ⊢
    rw [anyWordStart, anyWordStart, whole, ih]

theorem has_word_without_returns (word : Text) (unbroken : Unbroken word) (filled : word ≠ []) (t : Text)
    (paired : pairedReturns t = true) : hasWord word (withoutReturns t) = hasWord word t := by
  apply any_word_start_without_returns _ _ (after_word_without_returns word unbroken) false t paired
  intro rest
  cases word with
  | nil => exact absurd rfl filled
  | cons c word =>
    obtain ⟨back, feed⟩ := unbroken c List.mem_cons_self
    simp [afterWord?, after?, back, feed]

/-! Words, and lines. -/

theorem fields_first (separates : Char → Bool) (t : Text) :
    ∃ first others, fields separates t = first :: others := List.exists_cons_of_ne_nil (fields_ne_nil separates t)

theorem fields_other (separates : Char → Bool) (c : Char) (rest first : Text) (others : List Text)
    (inside : separates c = false) (split : fields separates rest = first :: others) :
    fields separates (c :: rest) = (c :: first) :: others := by
  rw [fields, if_neg (by simp [inside]), split]

-- The first field counts by itself, for a character in front of it makes it longer.
theorem fields_without_returns (t : Text) (paired : pairedReturns t = true) :
    ∃ first others more, fields isWhite t = first :: others ∧ fields isWhite (withoutReturns t) = first :: more ∧
      more.filter (!·.isEmpty) = others.filter (!·.isEmpty) := by
  have white (c : Char) (rest : Text) (separates : isWhite c = true) :
      fields isWhite (c :: rest) = [] :: fields isWhite rest := by
    rw [fields, if_pos separates]
  induction t, paired using paired_induction with
  | nil => exact ⟨[], [], [], rfl, rfl, rfl⟩
  | ending rest _ _ ih =>
    obtain ⟨first, others, more, split, cut, same⟩ := ih
    rw [white '\n' rest (by decide)] at split
    obtain ⟨rfl, rfl⟩ := List.cons.inj split
    refine ⟨[], [] :: fields isWhite rest, more, ?_, ?_, ?_⟩
    · rw [white '\r' _ (by decide), white '\n' rest (by decide)]
    · rw [without_returns_return, cut]
    · rw [same]
      rfl
  | other c rest apart _ _ ih =>
    obtain ⟨first, others, more, split, cut, same⟩ := ih
    rw [without_returns_other rest c apart]
    cases separates : isWhite c with
    | true =>
      rw [white c _ separates, white c _ separates, split, cut]
      refine ⟨[], _, _, rfl, rfl, ?_⟩
      rw [List.filter_cons, List.filter_cons, same]
    | false =>
      exact ⟨c :: first, others, more, fields_other isWhite c rest first others separates split,
        fields_other isWhite c _ first more separates cut, same⟩

theorem words_without_returns (t : Text) (paired : pairedReturns t = true) : words (withoutReturns t) = words t := by
  obtain ⟨first, others, more, split, cut, same⟩ := fields_without_returns t paired
  rw [words, words, split, cut, List.filter_cons, List.filter_cons, same]

theorem normalized_without_returns (t : Text) (paired : pairedReturns t = true) :
    normalized (withoutReturns t) = normalized t := by
  rw [normalized, normalized, words_without_returns t paired]

theorem lines_without_returns (t : Text) : lines (withoutReturns t) = (lines t).map withoutReturns := by
  unfold lines
  induction t with
  | nil => rfl
  | cons c rest ih =>
    obtain ⟨first, others, split⟩ := fields_first (· = '\n') rest
    rw [split, List.map_cons] at ih
    by_cases back : c = '\r'
    · subst back
      rw [without_returns_return, ih, fields_other _ '\r' rest first others (by decide) split, List.map_cons,
        without_returns_return]
    · rw [without_returns_other rest c back]
      by_cases feed : c = '\n'
      · subst feed
        rw [fields, if_pos (by decide), fields, if_pos (by decide), split, ih]
        rfl
      · have inside : decide (c = '\n') = false := decide_eq_false feed
        rw [fields_other (· = '\n') c rest first others inside split, fields_other (· = '\n') c _ _ _ inside ih,
          List.map_cons, without_returns_other first c back]

-- In a line a CR can only be the last character.
theorem line_returns (t : Text) (paired : pairedReturns t = true) :
    ∀ line ∈ lines t, '\r' ∉ line ∨ ∃ front, '\r' ∉ front ∧ line = front ++ ['\r'] := by
  unfold lines
  induction t, paired using paired_induction with
  | nil =>
    intro line member
    rw [List.mem_singleton.mp member]
    exact .inl List.not_mem_nil
  | ending rest _ _ ih =>
    have parted : fields (· = '\n') ('\n' :: rest) = [] :: fields (· = '\n') rest := by
      rw [fields, if_pos (by decide)]
    rw [parted] at ih
    rw [fields_other _ '\r' _ [] _ (by decide) parted]
    intro line member
    rcases List.mem_cons.mp member with rfl | later
    · exact .inr ⟨[], List.not_mem_nil, rfl⟩
    · exact ih line (List.mem_cons_of_mem [] later)
  | other c rest apart _ _ ih =>
    by_cases feed : c = '\n'
    · subst feed
      rw [fields, if_pos (by decide)]
      intro line member
      rcases List.mem_cons.mp member with rfl | later
      · exact .inl List.not_mem_nil
      · exact ih line later
    · obtain ⟨first, others, split⟩ := fields_first (· = '\n') rest
      rw [split] at ih
      rw [fields_other (· = '\n') c rest first others (decide_eq_false feed) split]
      intro line member
      rcases List.mem_cons.mp member with rfl | later
      · rcases ih first List.mem_cons_self with free | ⟨front, free, rfl⟩
        · exact .inl (by simp [Ne.symm apart, free])
        · exact .inr ⟨c :: front, by simp [Ne.symm apart, free], rfl⟩
      · exact ih line (List.mem_cons_of_mem first later)

/-! Places in a text, by the bytes in front of them. -/

-- A place in a text, and the same place in what is left of it without the CRs.
def Aligned (t : Text) (place other : Nat) : Prop :=
  ∃ front : Text,
    front <+: t ∧ pairedReturns front = true ∧ place = front.byteSize ∧ other = (withoutReturns front).byteSize

namespace Aligned

variable (t : Text)

theorem start : Aligned t 0 0 := ⟨[], List.nil_prefix, rfl, rfl, rfl⟩

theorem onward (front part : Text) (left : front ++ part <+: t) (first : pairedReturns front = true)
    (second : pairedReturns part = true) :
    Aligned t (front.byteSize + part.byteSize) ((withoutReturns front).byteSize + (withoutReturns part).byteSize) := by
  refine ⟨front ++ part, left, paired_append front part first second, ?_, ?_⟩
  · rw [byte_size_append]
  · rw [without_returns_append, byte_size_append]

theorem lt_behind (front rest : Text) (paired : pairedReturns (front ++ rest) = true) :
    (byteSize front < byteSize (front ++ rest) ↔ rest ≠ []) ∧
      (byteSize (withoutReturns front) < byteSize (withoutReturns (front ++ rest)) ↔ rest ≠ []) := by
  have further := paired_returns_suffix _ _ (List.suffix_append front rest) paired
  rw [without_returns_append, byte_size_append, byte_size_append]
  by_cases nothing : rest = []
  · subst nothing
    exact ⟨by simp [byteSize], by simp [withoutReturns, byteSize]⟩
  · have filled := byte_size_pos rest nothing
    have left := byte_size_pos _ (mt (empty_without_returns rest further).mp nothing)
    exact ⟨iff_of_true (by omega) nothing, iff_of_true (by omega) nothing⟩

variable {t} {a b a' b' : Nat} (first : Aligned t a a') (second : Aligned t b b')

include first second

theorem lt_iff : a < b ↔ a' < b' := by
  obtain ⟨front, before, paired, rfl, rfl⟩ := first
  obtain ⟨other, among, further, rfl, rfl⟩ := second
  rcases List.prefix_or_prefix_of_prefix before among with ⟨rest, rfl⟩ | ⟨rest, rfl⟩
  · obtain ⟨here, there⟩ := lt_behind front rest further
    rw [here, there]
  · rw [without_returns_append, byte_size_append, byte_size_append]
    constructor <;> omega

theorem le_iff : a ≤ b ↔ a' ≤ b' := by
  rw [← Nat.not_lt, ← Nat.not_lt, lt_iff second first]

end Aligned

-- A place is told by the text in front of it.
theorem Aligned.of_front (t front : Text) (m : Nat) (place : Aligned t front.byteSize m) (left : front <+: t) :
    pairedReturns front = true ∧ m = (withoutReturns front).byteSize := by
  obtain ⟨other, among, paired, same, rfl⟩ := place
  rcases List.prefix_or_prefix_of_prefix left among with ⟨rest, rfl⟩ | ⟨rest, rfl⟩
  all_goals
    rw [byte_size_append] at same
    by_cases nothing : rest = []
    · subst nothing
      rw [List.append_nil] at *
      exact ⟨paired, rfl⟩
    · have filled := byte_size_pos rest nothing
      omega

end Text

end SchemaDiagram
