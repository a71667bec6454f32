import SchemaDiagram.Proofs.Headers
import SchemaDiagram.Proofs.Resolution
import SchemaDiagram.Rendering

/-!
Names of declarations and of requests have no dots. A qualified name in a finding is read in one way only.
-/

set_option autoImplicit false

namespace SchemaDiagram

theorem Text.not_mem_after_last (sep : Char) (t : Text) : sep ∉ Text.afterLast sep t := by
  intro member
  have kept := List.mem_takeWhile_imp (List.mem_reverse.mp member)
  simp at kept

theorem Text.after_last_whole (sep : Char) (t : Text) (apart : sep ∉ t) : Text.afterLast sep t = t := by
  have within : ∀ c ∈ t.reverse, decide (c ≠ sep) = true := by
    intro c member
    rw [List.mem_reverse] at member
    exact decide_eq_true fun same => apart (same ▸ member)
  rw [Text.afterLast, List.takeWhile_eq_self_iff.mpr within, List.reverse_reverse]

theorem Text.after_last_append (sep : Char) (lead name : Text) (apart : sep ∉ name) :
    Text.afterLast sep (lead ++ sep :: name) = name := by
  have within : ∀ c ∈ name.reverse, decide (c ≠ sep) = true := by
    intro c member
    rw [List.mem_reverse] at member
    exact decide_eq_true fun same => apart (same ▸ member)
  rw [Text.afterLast, List.reverse_append, List.reverse_cons, List.append_assoc,
    List.takeWhile_append_of_pos within]
  simp

theorem Header.collect_undotted (boundary : Bool) (tokens : List Token) :
    ∀ header ∈ collect boundary tokens, '.' ∉ header.name := by
  intro header member
  obtain ⟨_, _, _, name, spelled, _, _⟩ := collected_spelled boundary tokens header member
  rw [spelled.name]
  exact Text.not_mem_after_last '.' name.text

theorem Declaration.of_headers_named (consumed : Nat) (headers : List Header) :
    ∀ declaration ∈ Declaration.ofHeaders consumed headers, ∃ header ∈ headers, declaration.name = header.name := by
  intro declaration member
  obtain ⟨header, among, limit, rfl⟩ := of_headers_member consumed headers declaration member
  exact ⟨header, among, rfl⟩

theorem fragment_undotted (source : Text) (fragment : Fragment) (member : fragment ∈ fragments source) :
    '.' ∉ fragment.name := by
  obtain ⟨declaration, declared, rfl⟩ := List.mem_map.mp (List.mem_filter.mp member).1
  obtain ⟨header, among, named⟩ := Declaration.of_headers_named 0 _ declaration declared
  change '.' ∉ declaration.name
  rw [named]
  exact Header.collect_undotted true _ header among

theorem Reference.of_qualified_undotted (qualified : Text) (reference : Reference)
    (read : Reference.ofQualified? qualified = some reference) : '.' ∉ reference.name := by
  unfold ofQualified? Text.splitLast? at read
  split at read
  · contradiction
  · rename_i qualifier name cut
    split at read
    · contradiction
    · cases read
      split at cut
      · contradiction
      · cases cut
        exact Text.not_mem_after_last '.' qualified

namespace Diagnostic

theorem decimal_digits (n : Nat) : ∀ c ∈ decimal n, c.isDigit = true := by
  intro c member
  exact Nat.isDigit_of_mem_toDigits (by decide) (by decide) member

-- A number at the end of a text is told from what stands before the blank.
theorem number_at_end (a b : Text) (m n : Nat) (same : a ++ ' ' :: decimal m = b ++ ' ' :: decimal n) :
    a = b ∧ m = n := by
  have cut (t : Text) (k : Nat) :
      (t ++ ' ' :: decimal k).reverse.dropWhile Char.isDigit = ' ' :: t.reverse ∧
        (t ++ ' ' :: decimal k).reverse.takeWhile Char.isDigit = (decimal k).reverse := by
    have digits : ∀ c ∈ (decimal k).reverse, c.isDigit = true := by
      intro c member
      exact decimal_digits k c (List.mem_reverse.mp member)
    rw [List.reverse_append, List.reverse_cons, List.append_assoc, List.dropWhile_append_of_pos digits,
      List.takeWhile_append_of_pos digits]
    simp
  have texts := (cut a m).1
  have numbers := (cut a m).2
  rw [same] at texts numbers
  rw [(cut b n).1] at texts
  rw [(cut b n).2] at numbers
  refine ⟨by simpa using texts.symm, ?_⟩
  calc
    m = Nat.ofDigitChars 10 (decimal m) 0 := Nat.ofDigitChars_ten_toDigits.symm
    _ = Nat.ofDigitChars 10 (decimal n) 0 := by rw [List.reverse_inj.mp numbers]
    _ = n := Nat.ofDigitChars_ten_toDigits

theorem not_found_tells (a b : Reference) (m n : Nat) (same : notFound a m = notFound b n) :
    a.qualifier ++ '.' :: a.name = b.qualifier ++ '.' :: b.name ∧ m = n := by
  have messages : (notFound a m).message = (notFound b n).message := by rw [same]
  have spelled (reference : Reference) (k : Nat) :
      (notFound reference k).message =
        ((quoted (reference.qualifier ++ '.' :: reference.name) ++ " not found in".toList) ++ ' ' :: decimal k) ++
          " candidate file(s)".toList := by
    simp [notFound]
  rw [spelled, spelled] at messages
  obtain ⟨leads, counts⟩ := number_at_end _ _ m n (List.append_cancel_right messages)
  refine ⟨?_, counts⟩
  have quotes := List.append_cancel_right leads
  exact List.append_cancel_right (List.cons.inj quotes).2

end Diagnostic

end SchemaDiagram
