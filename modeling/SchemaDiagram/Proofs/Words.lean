import SchemaDiagram.Proofs.Naming

/-!
The characters that names are made of. A word of schema text holds no white space and no bracket, and what a
declaration is named by is part of such a word.
-/

set_option autoImplicit false

namespace SchemaDiagram

theorem Ranges.within_of_covers (code : Nat) (ranges : Ranges) (covered : ranges.covers code = true) :
    ∃ range ∈ ranges, range.1 ≤ code ∧ code ≤ range.2 := by
  induction ranges with
  | nil => contradiction
  | cons first rest ih =>
    obtain ⟨low, high⟩ := first
    rw [covers] at covered
    split at covered
    · rename_i below
      exact ⟨(low, high), List.mem_cons_self, of_decide_eq_true covered, below⟩
    · obtain ⟨range, member, within⟩ := ih covered
      exact ⟨range, List.mem_cons_of_mem _ member, within⟩

namespace Scan

theorem white_codes_apart : ∀ range ∈ whiteSpace, ∀ code ∈ List.range' range.1 (range.2 + 1 - range.1),
    isWordChar (Char.ofNat code) = false := by
  decide +kernel

theorem word_char_not_white (c : Char) (word : isWordChar c = true) : isWhite c = false := by
  cases white : isWhite c with
  | false => rfl
  | true =>
    obtain ⟨range, member, low, high⟩ := Ranges.within_of_covers c.toNat whiteSpace white
    have apart := white_codes_apart range member c.toNat (List.mem_range'_1.mpr ⟨low, by omega⟩)
    rw [Char.ofNat_toNat, word] at apart
    contradiction

theorem cut_word_chars (c : Char) (t : Text) (word : (cut c t).1 = .word) :
    ∀ d ∈ (cut c t).2.1, isWordChar d = true := by
  unfold cut at word ⊢
  split at word
  · contradiction
  · split at word
    · split at word <;> contradiction
    · split at word
      · contradiction
      · split at word
        · contradiction
        · rename_i blank slash tag quote
          split at word
          · rename_i starts
            simp only [blank, slash, tag, quote, starts, Bool.false_eq_true, if_false, if_true]
            intro d member
            rcases List.mem_cons.mp member with rfl | later
            · exact starts
            · exact List.mem_takeWhile_imp later
          · contradiction

end Scan

theorem word_chars_from (start : Nat) (t : Text) (token : Token) (member : token ∈ tokensFrom start t)
    (word : token.kind = .word) : ∀ c ∈ token.text, Scan.isWordChar c = true := by
  fun_induction tokensFrom start t with
  | case1 => contradiction
  | case2 start c t cut ih =>
    rcases List.mem_cons.mp member with rfl | later
    · exact Scan.cut_word_chars c t word
    · exact ih later

theorem Header.name_of_collected (boundary : Bool) (tokens : List Token) :
    ∀ header ∈ collect boundary tokens,
      ∃ token ∈ tokens, token.kind = .word ∧ header.name = Text.afterLast '.' token.text := by
  intro header member
  obtain ⟨before, keyword, gap, name, spelled, _, rfl⟩ := collected_spelled boundary tokens header member
  exact ⟨name, by simp, spelled.word, spelled.name⟩

theorem fragment_name_chars (source : Text) (fragment : Fragment) (member : fragment ∈ fragments source) :
    ∀ c ∈ fragment.name, Scan.isWordChar c = true := by
  obtain ⟨declaration, declared, rfl⟩ := List.mem_map.mp (List.mem_filter.mp member).1
  obtain ⟨header, among, named⟩ := Declaration.of_headers_named 0 _ declaration declared
  obtain ⟨token, inside, word, called⟩ := Header.name_of_collected true _ header among
  change ∀ c ∈ declaration.name, _
  rw [named, called]
  intro c member
  apply word_chars_from 0 _ token inside word
  exact List.mem_reverse.mp ((List.takeWhile_prefix _).subset (List.mem_reverse.mp member))

end SchemaDiagram
