import SchemaDiagram.Proofs.Words

/-!
Letters and their other case. The readers of schema text know the case of ASCII letters only, and what a letter is to
them does not depend on it.
-/

set_option autoImplicit false

namespace SchemaDiagram

theorem lower_cases (c : Char) : c.toLower = c ∨ c.toNat ∈ List.range' 65 26 := by
  by_cases upper : 'A'.val ≤ c.val ∧ c.val ≤ 'Z'.val
  · right
    have low : 65 ≤ c.toNat := UInt32.le_iff_toNat_le.mp upper.1
    have high : c.toNat ≤ 90 := UInt32.le_iff_toNat_le.mp upper.2
    exact List.mem_range'_1.mpr ⟨low, by omega⟩
  · left
    unfold Char.toLower
    exact dif_neg upper

theorem lower_keeps {α : Type} (test : Char → α)
    (letters : ∀ code ∈ List.range' 65 26, test (Char.ofNat code).toLower = test (Char.ofNat code)) (c : Char) :
    test c.toLower = test c := by
  rcases lower_cases c with same | member
  · rw [same]
  · have letter := letters c.toNat member
    rwa [Char.ofNat_toNat] at letter

theorem Text.lower_append (a b : Text) : (a ++ b).asciiLower = a.asciiLower ++ b.asciiLower := List.map_append

theorem Text.lower_length (t : Text) : t.asciiLower.length = t.length := List.length_map _

-- What readers ask of a character.
def charTests : List (Char → Bool) :=
  [isWhite, isWordUnit, Scan.isBlank, Scan.isWordChar, Scan.isValueChar, Scan.opens, Scan.closes]

theorem letters_tested : charTests.all (fun test => (List.range' 65 26).all fun code =>
    test (Char.ofNat code).toLower == test (Char.ofNat code)) = true := by
  decide

theorem test_lower (test : Char → Bool) (among : test ∈ charTests) (c : Char) : test c.toLower = test c := by
  apply lower_keeps
  intro code member
  exact eq_of_beq (List.all_eq_true.mp (List.all_eq_true.mp letters_tested test among) code member)

theorem word_unit_lower (c : Char) : isWordUnit c.toLower = isWordUnit c := test_lower _ (by simp [charTests]) c

theorem alphanum_ascii (c : Char) (plain : c.isAlphanum = true) : c.toNat < 0x80 := by
  change (c.isUpper || c.isLower || c.isDigit) = true at plain
  rw [Bool.or_eq_true, Bool.or_eq_true] at plain
  obtain (upper | lower) | digit := plain
  · have last : c.toNat ≤ 90 := UInt32.le_iff_toNat_le.mp (of_decide_eq_true upper).2
    omega
  · have last : c.toNat ≤ 122 := UInt32.le_iff_toNat_le.mp (of_decide_eq_true (Bool.and_eq_true_iff.mp lower).2)
    omega
  · have last : c.toNat ≤ 57 := UInt32.le_iff_toNat_le.mp (of_decide_eq_true (Bool.and_eq_true_iff.mp digit).2)
    omega

theorem alphanum_unit (c : Char) (plain : c.isAlphanum = true) : isWordUnit c = true := by
  rw [isWordUnit, if_pos (alphanum_ascii c plain), plain, Bool.true_or]

theorem alphanum_word_char (c : Char) (plain : c.isAlphanum = true) : Scan.isWordChar c = true := by
  have wordy : isAlphanumeric c = true := by rw [isAlphanumeric, if_pos (alphanum_ascii c plain), plain]
  simp [Scan.isWordChar, wordy]

-- What is asked of the first character of a text in another case.
theorem Text.head_any_lower (t u : Text) (same : t.asciiLower = u.asciiLower) (test : Char → Bool)
    (keeps : ∀ c, test c.toLower = test c) : t.head?.any test = u.head?.any test := by
  have first (t : Text) : t.asciiLower.head?.any test = t.head?.any test := by
    cases t with
    | nil => rfl
    | cons c rest => exact keeps c
  rw [← first, same, first]

theorem white_lower (c : Char) (white : isWhite c = true) : c.toLower = c := by
  rcases lower_cases c with same | member
  · exact same
  · have solid : ∀ code ∈ List.range' 65 26, isWhite (Char.ofNat code) = false := by decide
    have letter := solid c.toNat member
    rw [Char.ofNat_toNat, white] at letter
    contradiction

theorem Text.words_lower (t : Text) : words t.asciiLower = (words t).map asciiLower := by
  have parted : fields isWhite t.asciiLower = (fields isWhite t).map asciiLower := by
    induction t with
    | nil => rfl
    | cons c t ih =>
      have same : isWhite c.toLower = isWhite c := test_lower _ (by simp [charTests]) c
      change fields isWhite (c.toLower :: asciiLower t) = _
      rw [fields, fields, same, ih]
      split
      · rfl
      · obtain ⟨first, others, split⟩ := List.exists_cons_of_ne_nil (fields_ne_nil isWhite t)
        rw [split]
        rfl
  rw [words, parted, List.filter_map, words]
  congr 1
  apply List.filter_congr
  intro word _
  cases word <;> rfl

theorem Text.normalized_lower (t : Text) : normalized t.asciiLower = (normalized t).asciiLower := by
  rw [normalized, words_lower, normalized]
  induction words t with
  | nil => rfl
  | cons first others ih =>
    cases others with
    | nil =>
      rw [List.map_cons, List.map_nil, List.intercalate_singleton, List.intercalate_singleton]
    | cons second others =>
      rw [List.map_cons] at ih
      rw [List.map_cons, List.map_cons, List.intercalate_cons_cons, List.intercalate_cons_cons, ih, lower_append,
        lower_append]
      rfl

theorem white_codes_no_word : ∀ range ∈ whiteSpace, ∀ code ∈ List.range' range.1 (range.2 + 1 - range.1),
    isWordUnit (Char.ofNat code) = false := by
  decide +kernel

theorem white_no_word (c : Char) (white : isWhite c = true) : isWordUnit c = false := by
  obtain ⟨range, member, low, high⟩ := Ranges.within_of_covers c.toNat whiteSpace white
  have apart := white_codes_no_word range member c.toNat (List.mem_range'_1.mpr ⟨low, by omega⟩)
  rwa [Char.ofNat_toNat] at apart

theorem unit_not_white (c : Char) (unit : isWordUnit c = true) : isWhite c = false := by
  by_contra white
  rw [white_no_word c (eq_true_of_ne_false white)] at unit
  contradiction

theorem unit_apart (c d : Char) (other : isWordUnit c = false) (unit : isWordUnit d = true) : d ≠ c := by
  rintro rfl
  rw [other] at unit
  contradiction

namespace Fragment

theorem word_unit_fold (c : Char) : isWordUnit (foldCase c) = isWordUnit c := by
  unfold foldCase
  split
  · rename_i long
    subst long
    decide +kernel
  · split
    · rename_i kelvin
      subst kelvin
      decide +kernel
    · exact word_unit_lower c

theorem white_fold (c : Char) (white : isWhite c = true) : foldCase c = c := by
  unfold foldCase
  split
  · rename_i long
    subst long
    contradiction
  · split
    · rename_i kelvin
      subst kelvin
      contradiction
    · exact white_lower c white

theorem fold_white (t : Text) (white : ∀ c ∈ t, isWhite c = true) : t.map foldCase = t :=
  (List.map_congr_left fun c member => white_fold c (white c member)).trans (List.map_id t)

-- What ASCII letters are in small letters the text is for the search as well.
theorem fold_of_lower (t word : Text) (lower : t.asciiLower = word)
    (ascii : word.all (fun c => c ≠ '\u017F' && c ≠ '\u212A') = true) : t.map foldCase = word := by
  rw [← lower, Text.asciiLower]
  apply List.map_congr_left
  intro c member
  have plain := List.all_eq_true.mp ascii c.toLower (lower ▸ List.mem_map_of_mem member)
  obtain ⟨short, letter⟩ : c.toLower ≠ '\u017F' ∧ c.toLower ≠ '\u212A' := by simpa using plain
  have apart (d : Char) (alone : d.toLower = d) (other : c.toLower ≠ d) : c ≠ d := by
    rintro rfl
    exact other alone
  rw [foldCase, if_neg (apart _ (by decide) short), if_neg (apart _ (by decide) letter)]

end Fragment

end SchemaDiagram
