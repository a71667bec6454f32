import SchemaDiagram.Proofs.Fronts
import SchemaDiagram.Proofs.Separation
import SchemaDiagram.Proofs.Words
import SchemaDiagram.Statement

/-!
The tokens of a body and those of its statements. A statement is a stretch of the body with a blank for each of its line
breaks, which changes no token but white space, and of the body only the semicolons that end statements are lost.
-/

set_option autoImplicit false

namespace SchemaDiagram

open Text

namespace Scan

-- A front of a text in which single blanks stand for runs of blanks.
inductive Respaced : Text → Text → Prop where
  | front (t : Text) : Respaced t []
  | kept (c : Char) (t u : Text) : Respaced t u → Respaced (c :: t) (c :: u)
  | blank (c : Char) (run t u : Text) : isBlank c = true → (∀ d ∈ run, isBlank d = true) → Respaced t u →
      Respaced (c :: (run ++ t)) (' ' :: u)

theorem blank_tests (c : Char) (blank : isBlank c = true) :
    isWordChar c = false ∧ isValueChar c = false ∧ opens c = false ∧ (c = '/' || c = '*') = false := by
  simp only [isBlank, Bool.or_eq_true, decide_eq_true_eq] at blank
  rcases blank with ((rfl | rfl) | rfl) | rfl <;> decide

namespace Respaced

variable {t u : Text}

theorem append (front : Text) (spaced : Respaced t u) : Respaced (front ++ t) (front ++ u) := by
  induction front with
  | nil => exact spaced
  | cons c front ih => exact .kept c _ _ ih

theorem drop_blanks (spaced : Respaced t u) : Respaced (t.dropWhile isBlank) (u.dropWhile isBlank) := by
  induction spaced with
  | front t => exact .front _
  | kept c t u spaced ih =>
    cases blank : isBlank c with
    | true => rwa [List.dropWhile_cons_of_pos blank, List.dropWhile_cons_of_pos blank]
    | false =>
      rw [List.dropWhile_cons_of_neg (by simp [blank]), List.dropWhile_cons_of_neg (by simp [blank])]
      exact .kept c t u spaced
  | blank c run t u blank blanks _ ih =>
    rw [List.dropWhile_cons_of_pos blank, List.dropWhile_append_of_pos blanks, List.dropWhile_cons_of_pos (by decide)]
    exact ih

theorem solid (d : Char) (spaced : Respaced t (d :: u)) (solid : isBlank d = false) :
    ∃ rest, t = d :: rest ∧ Respaced rest u := by
  cases spaced with
  | kept _ rest _ spaced => exact ⟨rest, rfl, spaced⟩
  | blank => contradiction

-- What the text does not begin with, the other one does not begin with either.
theorem stops (test : Char → Bool) (alike : ∀ c, isBlank c = true → test c = test ' ') (spaced : Respaced t u)
    (ends : t.head?.any test = false) : u.head?.any test = false := by
  cases spaced with
  | front => rfl
  | kept c t u _ => exact ends
  | blank c run t u blank _ _ =>
    rw [List.head?_cons, Option.any_some] at ends ⊢
    rwa [← alike c blank]

theorem unvalued (spaced : Respaced t u) (unvalued : afterValue? t = none) : afterValue? u = none := by
  rw [after_value_eq] at unvalued ⊢
  have behind := spaced.drop_blanks
  have first := List.head?_dropWhile_not isBlank u
  cases left : u.dropWhile isBlank with
  | nil => rfl
  | cons d others =>
    rw [left] at behind first
    obtain ⟨rest, same, further⟩ := behind.solid d (by simpa using first)
    rw [same] at unvalued
    by_cases colon : d = ':'
    · subst colon
      have inner := further.drop_blanks
      have next := List.head?_dropWhile_not isBlank others
      change ofValue? (rest.dropWhile isBlank) = none at unvalued
      change ofValue? (others.dropWhile isBlank) = none
      cases value : others.dropWhile isBlank with
      | nil => rfl
      | cons e more =>
        rw [value] at inner next
        obtain ⟨last, whole, _⟩ := inner.solid e (by simpa using next)
        have valued := of_value_first e last more
        rw [← whole, unvalued] at valued
        simpa using valued.symm
    · unfold ofColon?
      split
      · rename_i other
        exact absurd (List.cons.inj other).1 colon
      · rfl

end Respaced

end Scan

open Scan

theorem Token.goes_on_respaced (token : Token) (t u : Text) (spaced : Respaced t u) (paired : pairedReturns t = true)
    (stays : token.goesOn t = false) : token.goesOn u = false := by
  have words : ∀ c : Char, isBlank c = true → isWordChar c = isWordChar ' ' := fun c blank => (blank_tests c blank).1
  have brackets : ∀ c : Char, isBlank c = true → opens c = opens ' ' := fun c blank => (blank_tests c blank).2.2.1
  unfold goesOn at stays ⊢
  cases kind : token.kind with
  | space => exact spaced.stops isBlank (fun c blank => blank) (by simpa [kind] using stays)
  | word => exact spaced.stops isWordChar words (by simpa [kind] using stays)
  | comment => rfl
  | literal => rfl
  | punct =>
    simp only [kind, Bool.and_eq_false_iff, Option.isSome_eq_false_iff, Option.isNone_iff_eq_none] at stays ⊢
    refine stays.imp id fun uncommented => ?_
    apply no_comment_at
    · intro slash
      obtain ⟨v, rfl⟩ := List.head?_eq_some_iff.mp slash
      obtain ⟨rest, rfl, _⟩ := spaced.solid '/' (by decide)
      have line := after_line_of_paired rest (paired_returns_suffix _ rest ⟨['/'], rfl⟩ paired)
      change afterLine? rest = none at uncommented
      rw [line] at uncommented
      exact absurd uncommented (Option.some_ne_none _)
    · intro star
      obtain ⟨v, rfl⟩ := List.head?_eq_some_iff.mp star
      obtain ⟨rest, rfl, _⟩ := spaced.solid '*' (by decide)
      exact absurd uncommented (Option.some_ne_none _)
  | tag =>
    simp only [kind, Bool.and_eq_false_iff, Bool.or_eq_false_iff, Option.isSome_eq_false_iff,
      Option.isNone_iff_eq_none] at stays ⊢
    refine stays.imp id fun ⟨⟨unnamed, unopened⟩, unvalued⟩ => ⟨⟨?_, ?_⟩, spaced.unvalued unvalued⟩
    · exact spaced.stops isWordChar words unnamed
    · exact unopened.imp id (spaced.stops opens brackets)

theorem Scan.Cut.respaced (c : Char) (front rest u : Text) (kind : TokenKind) (cut : Cut c (front ++ rest) kind rest)
    (uncommented : kind ≠ .comment) (spaced : Respaced rest u) (paired : pairedReturns rest = true) :
    Cut c (front ++ u) kind u := by
  refine cut.again u 0 uncommented ?_ ?_ (Token.goes_on_respaced _ rest u spaced paired (cut.apart 0))
  · rintro rfl
    cases spaced
    rfl
  · exact spaced.stops isValueChar fun c blank => (blank_tests c blank).2.1

/-! What tokens are read besides white space, of which a character may stand alone as well. -/

def isInk (reading : TokenKind × Text) : Bool := !(reading.1 = .punct && reading.2.all isWhite)

def ink (tokens : List Token) : List (TokenKind × Text) := (readings isSolid tokens).filter isInk

theorem ink_of_cut (c : Char) (front rest : Text) (kind : TokenKind) (cut : Cut c (front ++ rest) kind rest) :
    ink (tokenize (c :: (front ++ rest))) = ink [⟨kind, c :: front, 0⟩] ++ ink (tokenize rest) := by
  rw [ink, readings_of_cut c front rest kind cut isSolid, List.filter_append]
  cases kind <;> rfl

theorem ink_behind_blanks (blanks t : Text) (each : ∀ c ∈ blanks, isBlank c = true) :
    ink (tokenize (blanks ++ t)) = ink (tokenize t) := by
  rw [ink, solid_readings_behind_blanks blanks t each, ink]

theorem ink_cons (token : Token) (tokens : List Token) : ink (token :: tokens) = ink [token] ++ ink tokens := by
  have split : readings isSolid (token :: tokens) = readings isSolid [token] ++ readings isSolid tokens := by
    rw [readings, List.map_cons, ← List.singleton_append, List.filter_append]
    rfl
  rw [ink, split, List.filter_append]
  rfl

-- A token that begins with white space is white space.
theorem Scan.Cut.white (c : Char) (t rest : Text) (kind : TokenKind) (cut : Cut c t kind rest)
    (white : isWhite c = true) : kind = .space ∨ kind = .punct := by
  cases cut with
  | blank => exact .inl rfl
  | comment => exact absurd white (by decide)
  | slash => exact .inr rfl
  | tag => exact absurd white (by decide)
  | literal => exact absurd white (by decide)
  | word _ _ word =>
    rw [word_char_not_white c word] at white
    contradiction
  | plain => exact .inr rfl

theorem ink_white (t : Text) (white : t.isBlank = true) : ink (tokenize t) = [] := by
  induction t using text_induction with
  | nil =>
    rw [tokenize_nil]
    rfl
  | token c front rest kind cut ih =>
    rw [Text.isBlank, ← List.cons_append, List.all_append, Bool.and_eq_true] at white
    have first : isWhite c = true := (Bool.and_eq_true_iff.mp white.1).1
    rw [ink_of_cut c front rest kind cut, ih white.2, List.append_nil]
    rcases cut.white c _ rest kind first with rfl | rfl
    · rfl
    · simp [ink, readings, isSolid, isInk, Token.reading, white.1]

namespace Statement

-- The tokens of a body without the semicolons that end its statements.
def withoutEnds (depth : Nat) : List Token → List Token
  | [] => []
  | token :: rest =>
    if depth = 0 && token.isPunct ';' then withoutEnds depth rest
    else token :: withoutEnds (token.depthAfter depth) rest

theorem finish_ink (statement : Text) (others : List Text) :
    (finish statement others).flatMap (fun other => ink (tokenize other)) =
      ink (tokenize statement) ++ others.flatMap fun other => ink (tokenize other) := by
  rw [finish]
  split
  · rename_i blank
    rw [ink_white statement blank, List.nil_append]
  · rfl

theorem finish_filled (statement : Text) (others : List Text) (filled : ∀ other ∈ others, other.isBlank = false) :
    ∀ other ∈ finish statement others, other.isBlank = false := by
  rw [finish]
  split
  · exact filled
  · rename_i seen
    exact List.forall_mem_cons.mpr ⟨by simpa using seen, filled⟩

theorem indentation_blank (t : Text) (blanks : ∀ c ∈ t, isBlank c = true) :
    ∀ c ∈ Text.afterLast '\n' t, isBlank c = true := by
  intro c member
  exact blanks c (List.mem_reverse.mp ((List.takeWhile_sublist _).subset (List.mem_reverse.mp member)))

theorem depth_after_space (depth : Nat) (token : Token) (space : token.kind = .space) :
    token.depthAfter depth = depth := by
  simp [Token.depthAfter, Token.isOpener, Token.isCloser, space]

-- From any place on, where some statement is being read: what is added to it is the text behind, respaced, so that the
-- tokens there are read in it again.
theorem collect_ink (start : Nat) (t : Text) (paired : pairedReturns t = true)
    (uncommented : ∀ token ∈ tokensFrom start t, token.kind ≠ .comment) (typed : Bool) (depth : Nat) :
    ∃ more others, Respaced t more ∧
      (∀ statement, collect statement typed depth (tokensFrom start t) = finish (statement ++ more) others) ∧
      (ink (tokenize more) ++ others.flatMap fun other => ink (tokenize other)) =
        ink (withoutEnds depth (tokensFrom start t)) ∧
      ∀ other ∈ others, other.isBlank = false := by
  induction t using text_induction generalizing start typed depth with
  | nil =>
    refine ⟨[], [], .front [], ?_, ?_, by simp⟩
    · intro statement
      rw [tokensFrom, collect, List.append_nil]
    · rw [tokensFrom, tokenize_nil]
      rfl
  | token c front rest kind cut ih =>
    rw [tokens_of_cut start c front rest kind cut] at uncommented ⊢
    obtain ⟨plain, others⟩ := List.forall_mem_cons.mp uncommented
    have pairedRest := paired_returns_suffix _ rest ⟨c :: front, rfl⟩ paired
    have further := fun typed depth => ih (start + Text.byteSize (c :: front)) pairedRest others typed depth
    generalize tokensFrom (start + Text.byteSize (c :: front)) rest = tokens at further
    rw [withoutEnds]
    simp only [collect]
    split
    · obtain ⟨more, behind, _, read, kept, filled⟩ := further false depth
      refine ⟨[], finish more behind, .front _, ?_, ?_, finish_filled more behind filled⟩
      · intro statement
        rw [read, List.append_nil, List.nil_append]
      · rw [finish_ink, kept, tokenize_nil]
        rfl
    · split
      · rename_i lineBreak
        obtain rfl : kind = .space := of_decide_eq_true (Bool.and_eq_true_iff.mp lineBreak).1
        have blanks := cut.blanks
        rw [lexeme_of_split _ front rest rfl] at blanks
        rw [ink_cons, depth_after_space depth _ rfl]
        split
        · obtain ⟨more, behind, spaced, read, kept, filled⟩ := further typed depth
          refine ⟨' ' :: more, behind, ?_, ?_, ?_, filled⟩
          · obtain ⟨first, run⟩ := List.forall_mem_cons.mp blanks
            exact .blank c front rest more first run spaced
          · intro statement
            rw [read, List.append_assoc, List.singleton_append]
          · rw [← List.singleton_append, ink_behind_blanks [' '] more (List.all_eq_true.mp (by decide)), kept]
            rfl
        · obtain ⟨more, behind, _, read, kept, filled⟩ := further false depth
          refine ⟨[], finish (Text.afterLast '\n' (c :: front) ++ more) behind, .front _, ?_, ?_,
            finish_filled _ behind filled⟩
          · intro statement
            rw [read, List.append_nil]
          · rw [finish_ink, ink_behind_blanks _ more (indentation_blank _ blanks), kept, tokenize_nil]
            rfl
      · obtain ⟨more, behind, spaced, read, kept, filled⟩ := further _ _
        refine ⟨c :: (front ++ more), behind, .kept c _ _ (spaced.append front), ?_, ?_, filled⟩
        · intro statement
          rw [read, List.append_assoc]
          rfl
        · have again := cut.respaced c front rest more kind plain spaced pairedRest
          rw [ink_of_cut c front more kind again, List.append_assoc, kept, ink_cons ⟨kind, c :: front, start⟩]
          rfl

end Statement

/-- A body's statements hold the tokens of the body and no others, in order and without the semicolons that end
statements. No statement is blank. -/
theorem statements_keep_tokens (body : Text) (paired : pairedReturns body = true)
    (uncommented : ∀ token ∈ tokenize body, token.kind ≠ .comment) :
    ((statements body).flatMap fun statement => ink (tokenize statement)) =
        ink (Statement.withoutEnds 0 (tokenize body)) ∧
      ∀ statement ∈ statements body, statement.isBlank = false := by
  obtain ⟨more, others, _, read, kept, filled⟩ := Statement.collect_ink 0 body paired uncommented false 0
  have split : statements body = Statement.finish more others := read []
  rw [split, Statement.finish_ink]
  exact ⟨kept, Statement.finish_filled more others filled⟩

-- An annotation's value on a line of its own, a line break within brackets with a semicolon, and an element that the
-- next line goes on with.
def brokenElements : Text := "@title:\n 'a;b'\nn :\n String(1;\r\n\t2);\n  f(]\n; m".toList

theorem broken_elements_keep_tokens :
    (statements brokenElements).length = 4 ∧
      ((statements brokenElements).flatMap fun statement => ink (tokenize statement)) =
        ink (Statement.withoutEnds 0 (tokenize brokenElements)) := by
  have paired : pairedReturns brokenElements = true := by decide +kernel
  have uncommented : ∀ token ∈ tokenize brokenElements, token.kind ≠ .comment := by decide +kernel
  have kept := statements_keep_tokens brokenElements paired uncommented
  exact ⟨by decide +kernel, kept.1⟩

end SchemaDiagram
