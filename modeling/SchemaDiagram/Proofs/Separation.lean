import SchemaDiagram.Proofs.CommentScan
import SchemaDiagram.Proofs.Cuts

/-!
What becomes of the other tokens when the comments of a text go. A token that the text behind the comments does not go
on with is read again as it is. Where each token is of that sort the tokens stay, and otherwise the first one that is
not becomes longer.
-/

set_option autoImplicit false

namespace SchemaDiagram

open Scan

-- A token wherever it stands.
def Token.reading (token : Token) : TokenKind × Text := (token.kind, token.text)

def readings (shown : TokenKind → Bool) (tokens : List Token) : List (TokenKind × Text) :=
  (tokens.map Token.reading).filter (shown ·.1)

def TokenKind.isGap (kind : TokenKind) : Bool := kind = .space || kind = .comment

def TokenKind.isTrivia (kind : TokenKind) : Bool := kind.isGap || kind = .tag

-- No token in front of comments goes on behind them.
def separated : List Token → Bool
  | [] => true
  | token :: behind =>
    (token.kind.isGap || !token.goesOn (behind.flatMap Token.withoutComment)) && separated behind

theorem readings_moved (shown : TokenKind → Bool) (start : Nat) (t : Text) :
    readings shown (tokensFrom start t) = readings shown (tokenize t) := by
  rw [tokens_from_start, readings, readings, List.map_map]
  rfl

theorem separated_moved (start : Nat) (t : Text) : separated (tokensFrom start t) = separated (tokenize t) := by
  rw [tokens_from_start]
  induction tokenize t with
  | nil => rfl
  | cons token behind ih =>
    rw [List.map_cons, separated, separated, ih, List.flatMap_map]
    rfl

section

variable (c : Char) (front rest : Text) (kind : TokenKind) (cut : Cut c (front ++ rest) kind rest)

include cut

theorem readings_of_cut (shown : TokenKind → Bool) :
    readings shown (tokenize (c :: (front ++ rest))) =
      (if shown kind then [(kind, c :: front)] else []) ++ readings shown (tokenize rest) := by
  rw [tokenize, tokens_of_cut 0 c front rest kind cut, ← readings_moved shown (0 + Text.byteSize (c :: front)) rest]
  simp only [readings, List.map_cons, Token.reading, List.filter_cons]
  split <;> rfl

theorem separated_of_cut :
    separated (tokenize (c :: (front ++ rest))) =
      ((kind.isGap || !Token.goesOn ⟨kind, c :: front, 0⟩ (withoutComments rest)) && separated (tokenize rest)) := by
  rw [tokenize, tokens_of_cut 0 c front rest kind cut, separated, without_comments_moved, separated_moved]

end

def isSolid (kind : TokenKind) : Bool := kind ≠ .space

theorem solid_readings_drop_blank (t : Text) :
    readings isSolid (tokenize (t.dropWhile isBlank)) = readings isSolid (tokenize t) := by
  cases t with
  | nil => rfl
  | cons c t =>
    cases blank : isBlank c with
    | false => rw [List.dropWhile_cons_of_neg (by simp [blank])]
    | true =>
      have cut := Cut.blank c t blank
      have whole := List.takeWhile_append_dropWhile (p := isBlank) (l := t)
      rw [List.dropWhile_cons_of_pos blank]
      nth_rewrite 1 [← whole] at cut
      have read := readings_of_cut c _ _ _ cut isSolid
      rw [whole] at read
      rw [read]
      rfl

theorem solid_readings_behind_blanks (blanks t : Text) (each : ∀ c ∈ blanks, isBlank c = true) :
    readings isSolid (tokenize (blanks ++ t)) = readings isSolid (tokenize t) := by
  rw [← solid_readings_drop_blank (blanks ++ t), List.dropWhile_append_of_pos each, solid_readings_drop_blank]

-- A text that starts with no slash starts with no comment, so its first character stays the first.
theorem head_without_comments (t : Text) (unslashed : t.head? ≠ some '/') : (withoutComments t).head? = t.head? := by
  induction t using text_induction with
  | nil => rw [without_comments_nil]
  | token c front rest kind cut _ =>
    rw [without_comments_of_cut c front rest kind cut, Token.withoutComment, if_neg]
    · rfl
    · rintro rfl
      rw [cut.slash_of_comment] at unslashed
      exact unslashed rfl

-- Where no value of an annotation goes on, none does without the comments behind, for a slash is part of a value.
theorem unvalued_without_comments (t : Text) (unvalued : t.head?.any isValueChar = false) :
    (withoutComments t).head?.any isValueChar = false := by
  rw [head_without_comments t]
  · exact unvalued
  · intro slash
    rw [slash] at unvalued
    exact absurd unvalued (by simp; decide)

theorem no_comment_without_comments (t : Text) (paired : t.pairedReturns = true)
    (uncommented : afterComment? t = none) :
    afterComment? (withoutComments t) = none := by
  cases t with
  | nil => rw [without_comments_nil]; rfl
  | cons c t =>
    have apart := comment_starts_of_none (c :: t) [c] paired uncommented ⟨t, rfl⟩
    obtain ⟨slash, star⟩ : c ≠ '/' ∧ c ≠ '*' := by simpa [Region.commentStarts] using apart
    have first := head_without_comments (c :: t) (by simpa using slash)
    apply no_comment_at <;> rw [first]
    · simpa using slash
    · simpa using star

section

variable (c : Char) (front rest : Text) (kind : TokenKind) (cut : Cut c (front ++ rest) kind rest)

include cut

-- A token that the other text does not go on with is the first of it, and a longer one otherwise.
theorem read_before (solid : kind.isGap = false)
    (stays : Token.goesOn ⟨kind, c :: front, 0⟩ (withoutComments rest) = false) :
    Cut c (front ++ withoutComments rest) kind (withoutComments rest) := by
  apply cut.again (withoutComments rest) 0 _ _ (unvalued_without_comments rest) stays
  · rintro rfl
    contradiction
  · rintro rfl
    exact without_comments_nil

theorem read_longer (solid : kind.isGap = false)
    (goesOn : Token.goesOn ⟨kind, c :: front, 0⟩ (withoutComments rest) = true)
    (others : List (TokenKind × Text)) :
    readings isSolid (tokenize (c :: (front ++ withoutComments rest))) ≠ (kind, c :: front) :: others := by
  have read := Cut.of_cut c (front ++ withoutComments rest)
  obtain ⟨first, split⟩ := read.left
  generalize (Scan.cut c (front ++ withoutComments rest)).1 = other at read
  generalize (Scan.cut c (front ++ withoutComments rest)).2.2 = left at read split
  rw [← split] at read
  intro same
  rw [← split, readings_of_cut c first left other read isSolid] at same
  cases shown : isSolid other with
  | false =>
    obtain rfl : other = .space := by simpa [isSolid] using shown
    have blank := read.blanks c List.mem_cons_self
    rw [(cut.unique (.blank c _ blank)).1] at solid
    contradiction
  | true =>
    rw [shown, if_pos rfl, List.singleton_append, List.cons.injEq, Prod.mk.injEq, List.cons.injEq] at same
    obtain ⟨⟨rfl, _, rfl⟩, _⟩ := same
    rw [List.append_cancel_left split] at read
    have apart := read.apart 0
    rw [goesOn] at apart
    contradiction

end

theorem separated_iff (t : Text) :
    readings isSolid (tokenize (withoutComments t)) = readings (!·.isGap) (tokenize t) ↔
      separated (tokenize t) = true := by
  induction t using text_induction with
  | nil =>
    rw [without_comments_nil, tokenize_nil]
    exact iff_of_true rfl rfl
  | token c front rest kind cut ih =>
    rw [without_comments_of_cut c front rest kind cut, readings_of_cut c front rest kind cut,
      separated_of_cut c front rest kind cut]
    cases gap : kind.isGap with
    | true =>
      have blanks : ∀ d ∈ Token.withoutComment ⟨kind, c :: front, 0⟩, isBlank d = true := by
        cases kind with
        | space =>
          have inner := cut.blanks
          rwa [lexeme_of_split _ front rest rfl] at inner
        | comment =>
          intro d member
          rw [of_decide_eq_true (List.mem_filter.mp member).2]
          decide
        | tag => contradiction
        | literal => contradiction
        | word => contradiction
        | punct => contradiction
      rw [solid_readings_behind_blanks _ _ blanks]
      exact ih
    | false =>
      have kept : Token.withoutComment ⟨kind, c :: front, 0⟩ = c :: front := by
        rw [Token.withoutComment, if_neg]
        rintro rfl
        contradiction
      rw [kept, List.cons_append]
      cases goesOn : Token.goesOn ⟨kind, c :: front, 0⟩ (withoutComments rest) with
      | true =>
        exact iff_of_false (read_longer c front rest kind cut gap goesOn _) (by simp)
      | false =>
        have read := read_before c front rest kind cut gap goesOn
        have shown : isSolid kind = true := by
          cases kind <;> first | rfl | contradiction
        rw [readings_of_cut c front _ kind read, shown]
        simpa using ih

-- Where each CR has its LF a slash that starts no comment starts none without the comments, so that it is never joined.
theorem slash_stays (t : Text) (paired : t.pairedReturns = true) (before : List Token) (token : Token)
    (behind : List Token) (split : tokenize t = before ++ token :: behind) (punct : token.kind = .punct) :
    token.goesOn (behind.flatMap Token.withoutComment) = false := by
  obtain ⟨start, rest, left, read⟩ := tokens_behind 0 t before (token :: behind) split
  have pairedRest := Text.paired_returns_suffix t rest left paired
  cases rest with
  | nil =>
    rw [tokensFrom] at read
    contradiction
  | cons c rest =>
    have cut := Cut.of_cut c rest
    obtain ⟨front, whole⟩ := cut.left
    generalize (Scan.cut c rest).1 = kind at cut
    generalize (Scan.cut c rest).2.2 = others at cut whole
    subst whole
    rw [tokens_of_cut start c front others kind cut] at read
    obtain ⟨rfl, rfl⟩ := List.cons.inj read
    rw [without_comments_moved]
    obtain rfl : kind = .punct := punct
    have pairedOthers := Text.paired_returns_suffix _ others ⟨c :: front, rfl⟩ pairedRest
    generalize shape : front ++ others = t' at cut
    cases cut with
    | slash _ uncommented =>
      obtain rfl : front = [] := List.append_left_eq_self.mp shape
      simp [Token.goesOn, no_comment_without_comments others pairedOthers uncommented]
    | plain _ _ plain =>
      have other : c ≠ '/' := by
        rintro rfl
        contradiction
      simp [Token.goesOn, other]

theorem readings_fewer (shown fewer : TokenKind → Bool) (tokens : List Token)
    (each : ∀ kind, fewer kind = true → shown kind = true) :
    (readings shown tokens).filter (fewer ·.1) = readings fewer tokens := by
  rw [readings, readings, List.filter_filter]
  apply List.filter_congr
  intro reading _
  cases left : fewer reading.1 with
  | true => rw [each reading.1 left]; rfl
  | false => rfl

theorem untagged_readings (t : Text) (apart : separated (tokenize t) = true) :
    readings (!·.isTrivia) (tokenize (withoutComments t)) = readings (!·.isTrivia) (tokenize t) := by
  have same := (separated_iff t).mpr apart
  rw [← readings_fewer isSolid (!·.isTrivia) _ (by rintro ⟨⟩ <;> decide), same]
  exact readings_fewer (!·.isGap) (!·.isTrivia) _ (by rintro ⟨⟩ <;> decide)

def remarkedElement : Text := "@a /* b */entity/* don't */\nA \x7b x/**/: /**/String/**/; \x7d // y"

def remarkedKeyword : Text := "entity/**/A \x7b \x7d"

end SchemaDiagram
