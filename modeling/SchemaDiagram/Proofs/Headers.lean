import Mathlib.Data.List.TakeWhile
import SchemaDiagram.Declaration

/-!
What headers and declarations are read from. A header is spelled by a keyword, white space and a name, which stand
next to each other among the tokens, the keyword where a clause may start; and a declaration is that of a header.
-/

set_option autoImplicit false

namespace SchemaDiagram

namespace Header

structure Spelled (header : Header) (keyword : Token) (gap : List Token) (name : Token) : Prop where
  lead : header.lead = keyword :: gap ++ [name]
  start : header.start = keyword.start
  kind : DeclarationKind.ofKeyword? keyword.text.asciiLower = some header.kind
  filled : gap ≠ []
  spaces : ∀ token ∈ gap, token.isSpace = true
  word : name.kind = .word
  name : header.name = Text.afterLast '.' name.text

theorem of_keyword_spelled (keyword : Token) (rest : List Token) (header : Header)
    (read : ofKeyword? keyword rest = some header) :
    ∃ gap name, header.Spelled keyword gap name ∧ rest = gap ++ name :: header.rest := by
  unfold ofKeyword? at read
  split at read
  · contradiction
  · rename_i kind sort
    dsimp only at read
    split at read
    · contradiction
    · rename_i name after behind
      split at read
      · contradiction
      · rename_i solid
        cases read
        simp only [Bool.or_eq_true, decide_eq_true_eq, not_or, not_not, List.isEmpty_iff] at solid
        refine ⟨rest.takeWhile Token.isSpace, name, ⟨rfl, rfl, sort, solid.1, ?_, solid.2, rfl⟩, ?_⟩
        · exact fun token member => List.mem_takeWhile_imp member
        · rw [← behind, List.takeWhile_append_dropWhile]

theorem of_keyword_of_spelled (keyword : Token) (gap : List Token) (name : Token) (header : Header)
    (spelled : header.Spelled keyword gap name) : ofKeyword? keyword (gap ++ name :: header.rest) = some header := by
  have ends : ¬ name.isSpace = true := by simp [Token.isSpace, spelled.word]
  have taken : (gap ++ name :: header.rest).takeWhile Token.isSpace = gap := by
    rw [List.takeWhile_append_of_pos spelled.spaces, List.takeWhile_cons_of_neg ends, List.append_nil]
  have left : (gap ++ name :: header.rest).dropWhile Token.isSpace = name :: header.rest := by
    rw [List.dropWhile_append_of_pos spelled.spaces, List.dropWhile_cons_of_neg ends]
  obtain ⟨lead, start, kind, filled, spaces, word, named⟩ := spelled
  unfold ofKeyword?
  rw [kind, taken, left]
  dsimp only
  rw [if_neg (by simp [filled, word]), ← start, ← lead, ← named]

end Header

-- Whether a clause may start behind a token, when `boundary` says whether one may in front of it.
def Token.clauseAfter (boundary : Bool) (token : Token) : Bool :=
  match token.kind with
  | .space => boundary || token.isLineBreak
  | .comment | .tag => boundary
  | .punct => token.isPunct ';' || token.isPunct '\x7d'
  | .literal => false
  | .word => boundary && token.isWord "define"

def clauseAfter (boundary : Bool) (tokens : List Token) : Bool := tokens.foldl Token.clauseAfter boundary

namespace Header

theorem keyword_apart (keyword : Token) (rest : List Token) (header : Header)
    (read : ofKeyword? keyword rest = some header) : keyword.isWord "define" = false := by
  obtain ⟨_, _, spelled, _⟩ := of_keyword_spelled keyword rest header read
  have kind := spelled.kind
  cases same : keyword.isWord "define" with
  | false => rfl
  | true =>
    have small := of_decide_eq_true (Bool.and_eq_true_iff.mp same).2
    rw [small] at kind
    contradiction

-- One token at a time: a header begins with a word where a clause may start.
theorem collect_step (boundary : Bool) (token : Token) (rest : List Token) :
    collect boundary (token :: rest) =
      (if boundary && token.kind = .word then (ofKeyword? token rest).toList else []) ++
        collect (token.clauseAfter boundary) rest := by
  rw [collect, Token.clauseAfter]
  cases kind : token.kind with
  | space => simp
  | comment => simp
  | tag => simp
  | punct => simp
  | literal => simp
  | word =>
    cases boundary with
    | false => simp
    | true =>
      cases read : ofKeyword? token rest with
      | none => cases token.isWord "define" <;> simp
      | some header =>
        rw [keyword_apart token rest header read]
        simp

theorem collected_iff (boundary : Bool) (tokens : List Token) (header : Header) :
    header ∈ collect boundary tokens ↔
      ∃ before keyword rest, tokens = before ++ keyword :: rest ∧ clauseAfter boundary before = true ∧
        keyword.kind = .word ∧ ofKeyword? keyword rest = some header := by
  induction tokens generalizing boundary with
  | nil => simp [collect]
  | cons token rest ih =>
    rw [collect_step, List.mem_append, ih]
    constructor
    · rintro (here | ⟨before, keyword, more, rfl, starts, word, read⟩)
      · split at here
        · rename_i first
          rw [Bool.and_eq_true, decide_eq_true_eq] at first
          exact ⟨[], token, rest, rfl, first.1, first.2, Option.mem_toList.mp here⟩
        · contradiction
      · exact ⟨token :: before, keyword, more, rfl, starts, word, read⟩
    · rintro ⟨before, keyword, more, split, starts, word, read⟩
      cases before with
      | nil =>
        obtain ⟨rfl, rfl⟩ := List.cons.inj split
        have first : boundary = true := starts
        refine .inl ?_
        rw [if_pos (by simp [first, word])]
        exact Option.mem_toList.mpr read
      | cons other before =>
        obtain ⟨rfl, rfl⟩ := List.cons.inj split
        exact .inr ⟨before, keyword, more, rfl, starts, word, read⟩

-- A header as it is written among tokens: a keyword where a clause may start, white space and a name.
def Written (tokens : List Token) (header : Header) : Prop :=
  ∃ before keyword gap name, tokens = before ++ keyword :: (gap ++ name :: header.rest) ∧
    clauseAfter true before = true ∧ keyword.kind = .word ∧ header.Spelled keyword gap name

theorem written_iff (t : Text) (header : Header) : header ∈ ofText t ↔ header.Written (tokenize t) := by
  rw [ofText, collected_iff]
  constructor
  · rintro ⟨before, keyword, rest, split, starts, word, read⟩
    obtain ⟨gap, name, spelled, rfl⟩ := of_keyword_spelled keyword rest header read
    exact ⟨before, keyword, gap, name, split, starts, word, spelled⟩
  · rintro ⟨before, keyword, gap, name, split, starts, word, spelled⟩
    exact ⟨before, keyword, _, split, starts, word, of_keyword_of_spelled keyword gap name header spelled⟩

theorem collected_spelled (boundary : Bool) (tokens : List Token) (header : Header)
    (member : header ∈ collect boundary tokens) :
    ∃ before keyword gap name, header.Spelled keyword gap name ∧ keyword.kind = .word ∧
      tokens = before ++ keyword :: (gap ++ name :: header.rest) := by
  obtain ⟨before, keyword, rest, split, _, word, read⟩ := (collected_iff boundary tokens header).mp member
  obtain ⟨gap, name, spelled, rfl⟩ := of_keyword_spelled keyword rest header read
  exact ⟨before, keyword, gap, name, spelled, word, split⟩

end Header

namespace Declaration

-- A declaration is that of a header, up to the next one. It starts no sooner than what is consumed already.
theorem of_headers_at (consumed : Nat) (headers : List Header) (declaration : Declaration)
    (member : declaration ∈ ofHeaders consumed headers) :
    consumed ≤ declaration.start ∧ ∃ before header after, headers = before ++ header :: after ∧
      declaration = ofHeader header (after.head?.map Header.start) := by
  induction headers generalizing consumed with
  | nil => contradiction
  | cons header others ih =>
    rw [ofHeaders] at member
    split at member
    · obtain ⟨start, before, other, after, rfl, same⟩ := ih consumed member
      exact ⟨start, header :: before, other, after, rfl, same⟩
    · rename_i outside
      rcases List.mem_cons.mp member with rfl | behind
      · exact ⟨Nat.le_of_not_lt outside, [], header, others, rfl, rfl⟩
      · obtain ⟨start, before, other, after, rfl, same⟩ := ih _ behind
        refine ⟨?_, header :: before, other, after, rfl, same⟩
        have first : header.start ≤ (ofHeader header ((before ++ other :: after).head?.map Header.start)).stop :=
          Nat.le_add_right _ _
        omega

theorem of_headers_member (consumed : Nat) (headers : List Header) (declaration : Declaration)
    (member : declaration ∈ ofHeaders consumed headers) :
    ∃ header ∈ headers, ∃ limit, declaration = ofHeader header limit := by
  obtain ⟨_, before, header, after, rfl, same⟩ := of_headers_at consumed headers declaration member
  exact ⟨header, by simp, _, same⟩

end Declaration

end SchemaDiagram
