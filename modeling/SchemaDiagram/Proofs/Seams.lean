import Mathlib.Tactic.MkIffOfInductiveProp
import SchemaDiagram.Proofs.Annotations
import SchemaDiagram.Proofs.Joining

/-!
Places between two tokens of a text. What is put in at such a place leaves the tokens in front of it as they are, where
it goes on with none of them.
-/

set_option autoImplicit false

namespace SchemaDiagram

open Scan

-- The tokens of two texts one behind the other are those of each.
def Apart (x w : Text) : Prop := tokenize (x ++ w) = tokenize x ++ (tokenize w).map (Token.moved x.byteSize)

instance (x w : Text) : Decidable (Apart x w) := inferInstanceAs (Decidable (_ = _))

theorem untokenize_tokenize (t : Text) : untokenize (tokenize t) = t := untokenize_tokens_from 0 t

theorem moved_injective (bytes : Nat) (a b : List Token) (same : a.map (Token.moved bytes) = b.map (Token.moved bytes)) :
    a = b := by
  refine List.map_inj_right ?_ |>.mp same
  rintro ⟨kind, text, start⟩ ⟨kind', text', start'⟩ moved
  simpa [Token.moved] using moved

namespace Apart

theorem nil (w : Text) : Apart [] w := by
  have same : (tokenize w).map (Token.moved (Text.byteSize [])) = tokenize w := (tokens_from_start 0 w).symm
  rw [Apart, same, tokenize_nil]
  rfl

theorem of_cut (c : Char) (front rest w : Text) (kind : TokenKind) (cut : Cut c (front ++ rest) kind rest)
    (again : Cut c (front ++ (rest ++ w)) kind (rest ++ w)) (behind : Apart rest w) : Apart (c :: (front ++ rest)) w := by
  have read := tokenize_of_cut c front (rest ++ w) kind again
  rw [behind, List.map_append, moved_again, ← Text.byte_size_append] at read
  rw [Apart, tokenize_of_cut c front rest kind cut]
  simpa using read

theorem behind (c : Char) (front rest w : Text) (kind : TokenKind) (cut : Cut c (front ++ rest) kind rest)
    (apart : Apart (c :: (front ++ rest)) w) : Cut c (front ++ (rest ++ w)) kind (rest ++ w) ∧ Apart rest w := by
  rw [Apart, tokenize_of_cut c front rest kind cut, List.cons_append] at apart
  obtain ⟨d, others, text, again⟩ := cut_at_token 0 _ [] _ _ apart
  obtain ⟨rfl, rfl⟩ := List.cons.inj text
  have left : untokenize ((tokenize rest).map (Token.moved (Text.byteSize (c :: front))) ++
      (tokenize w).map (Token.moved (Text.byteSize (c :: (front ++ rest))))) = rest ++ w := by
    rw [untokenize_append, untokenize_moved, untokenize_moved, untokenize_tokenize, untokenize_tokenize]
  change Cut c (front ++ untokenize (_ ++ _)) kind (untokenize (_ ++ _)) at again
  rw [left] at again
  refine ⟨again, ?_⟩
  have read := tokenize_of_cut c front (rest ++ w) kind again
  rw [← List.append_assoc, apart] at read
  apply moved_injective (Text.byteSize (c :: front))
  rw [List.map_append, moved_again, ← Text.byte_size_append, ← (List.cons.inj read).2]
  rfl

theorem without_comments (x w : Text) (apart : Apart x w) :
    withoutComments (x ++ w) = withoutComments x ++ withoutComments w := by
  rw [withoutComments, apart, List.flatMap_append, List.flatMap_map]
  rfl

theorem of_blanks (g y : Text) (blanks : ∀ c ∈ g, isBlank c = true) (stops : y.head?.any isBlank = false) : Apart g y := by
  cases g with
  | nil => exact nil y
  | cons c g =>
    obtain ⟨first, others⟩ := List.forall_mem_cons.mp blanks
    have read (u : Text) (stops : u.head?.any isBlank = false) : Cut c (g ++ u) .space u := by
      have read := Cut.blank c (g ++ u) first
      rwa [drop_while_front isBlank g u others stops] at read
    have joined := of_cut c g [] y .space (read [] rfl) (read y stops) (nil y)
    rwa [List.append_nil] at joined

end Apart

-- A comment that goes on to the end of its line.
def Token.isLineComment (token : Token) : Bool := token.kind = .comment && token.text.tail.head? ≠ some '*'

-- A place in a text behind the last token of `x`, as an element ends in it: a closed one, neither white space nor a
-- comment that the end of the line would close.
@[mk_iff]
structure Seam (x w : Text) : Prop where
  filled : w ≠ []
  apart : Apart x w
  closed : (tokenize x).getLast?.all (!·.isLineComment) = true
  solid : x.getLast?.any (fun c => !isWhite c && c ≠ ':' && c ≠ ';') = true

instance (x w : Text) : Decidable (Seam x w) := decidable_of_iff _ (seam_iff x w).symm

-- A text that goes on with no token, as far as `w` goes on with none.
structure Halts (w z : Text) : Prop where
  unnamed : z.head?.any isWordChar = false
  unopened : z.head?.any opens = false
  uncommented : z.head?.any (fun c => c = '/' || c = '*') = false
  unvalued : afterValue? z = none
  apart : w.head?.any isValueChar = false → z.head?.any isValueChar = false

namespace Halts

variable {w z : Text}

theorem stays (halts : Halts w z) (token : Token) (solid : token.kind ≠ .space) : token.goesOn z = false := by
  have uncommented : afterComment? z = none := by
    have first := halts.uncommented
    apply no_comment_at <;> intro same <;> simp [same] at first
  unfold Token.goesOn
  cases kind : token.kind with
  | space => contradiction
  | comment => rfl
  | literal => rfl
  | word => exact halts.unnamed
  | punct => simp [uncommented]
  | tag => simp [halts.unnamed, halts.unopened, halts.unvalued]

theorem front (halts : Halts w z) (u : Text) (inside : u <+: z) : Halts w u where
  unnamed := Text.stops_front u z inside halts.unnamed
  unopened := Text.stops_front u z inside halts.unopened
  uncommented := Text.stops_front u z inside halts.uncommented
  unvalued := value_of_front z u inside halts.unvalued
  apart := fun stops => Text.stops_front u z inside (halts.apart stops)

end Halts

theorem last_of_tokens (x : Text) (token : Token) (last : (tokenize x).getLast? = some token) :
    x.getLast? = token.text.getLast? := by
  obtain ⟨before, split⟩ := List.getLast?_eq_some_iff.mp last
  have whole : x = untokenize before ++ token.text := by
    rw [← untokenize_tokenize x, split, untokenize_append]
    exact congrArg (untokenize before ++ ·) (List.flatMap_singleton Token.text token)
  have filled : token.text ≠ [] := by
    obtain ⟨d, front, _, text, _⟩ := cut_of_token 0 x token (List.mem_of_getLast? last)
    simp [text]
  rw [whole, List.getLast?_append_of_ne_nil _ filled]

theorem Scan.Cut.block_again (c : Char) (front w z : Text) (cut : Cut c (front ++ w) .comment w) (filled : w ≠ [])
    (block : front.head? = some '*') : Cut c (front ++ z) .comment z := by
  obtain ⟨inner, rfl⟩ := List.head?_eq_some_iff.mp block
  generalize whole : '*' :: inner ++ w = t at cut
  cases cut with
  | comment _ _ found =>
    rw [← whole] at found
    exact .comment _ z (congrArg some (after_block_again inner w z filled (Option.some.inj found)))

namespace Seam

theorem last (x w : Text) (seam : Seam x w) :
    ∃ c, x.getLast? = some c ∧ isWhite c = false ∧ c ≠ ':' ∧ c ≠ ';' := by
  obtain ⟨c, ends, solid⟩ := (Option.any_eq_true _ _).mp seam.solid
  exact ⟨c, ends, by simpa [and_assoc] using solid⟩

theorem behind (c : Char) (front rest w : Text) (kind : TokenKind) (cut : Cut c (front ++ rest) kind rest)
    (seam : Seam (c :: (front ++ rest)) w) (more : rest ≠ []) : Seam rest w := by
  refine ⟨seam.filled, (seam.apart.behind c front rest w kind cut).2, ?_, ?_⟩
  · have kept := seam.closed
    have filled : (tokenize rest).map (Token.moved (Text.byteSize (c :: front))) ≠ [] :=
      mt List.map_eq_nil_iff.mp (mt (tokenize_eq_nil_iff rest).mp more)
    rw [tokenize_of_cut c front rest kind cut, ← List.singleton_append, List.getLast?_append_of_ne_nil _ filled,
      List.getLast?_map, Option.all_map] at kept
    exact kept
  · have kept := seam.solid
    rwa [← List.cons_append, List.getLast?_append_of_ne_nil _ more] at kept

theorem back (x w : Text) (seam : Seam x w) (before after : List Token) (split : tokenize x = before ++ after)
    (more : after ≠ []) : Seam (untokenize after) w := by
  induction x using text_induction generalizing before after with
  | nil =>
    have none : before ++ after = [] := split.symm.trans tokenize_nil
    exact absurd (List.append_eq_nil_iff.mp none).2 more
  | token c front rest kind cut ih =>
    cases before with
    | nil =>
      have whole : untokenize after = c :: (front ++ rest) := by rw [← untokenize_tokenize (c :: (front ++ rest)), split]; rfl
      rwa [whole]
    | cons token before =>
      rw [tokenize_of_cut c front rest kind cut] at split
      obtain ⟨first, last, parts, rfl, rfl⟩ := List.map_eq_append_iff.mp (List.cons.inj split).2
      have filled : last ≠ [] := by
        rintro rfl
        exact more rfl
      have rested : rest ≠ [] := by
        rintro rfl
        rw [tokenize_nil] at parts
        exact filled (List.append_eq_nil_iff.mp parts.symm).2
      rw [untokenize_moved]
      exact ih (seam.behind c front rest w kind cut rested) first last parts filled

theorem last_token (x w : Text) (seam : Seam x w) : (tokenize x).getLast?.all (!·.isSpace) = true := by
  rw [Option.all_eq_true]
  intro token last
  obtain ⟨c, ends, solid, _⟩ := seam.last
  rw [last_of_tokens x token last] at ends
  cases space : token.isSpace with
  | false => rfl
  | true =>
    have blank := space_blank 0 x token (List.mem_of_getLast? last) (of_decide_eq_true space) c (List.mem_of_getLast? ends)
    rw [blank_white c blank] at solid
    contradiction

-- The tokens in front of a seam are the same with any text behind it that goes on with none of them.
theorem apart_of_halts (x w z : Text) (seam : Seam x w) (halts : Halts w z) : Apart x z := by
  induction x using text_induction with
  | nil => exact Apart.nil z
  | token c front rest kind cut ih =>
    obtain ⟨again, _⟩ := seam.apart.behind c front rest w kind cut
    obtain ⟨last, ends, solid, colon, _⟩ := seam.last
    have unblank : isBlank last = false := by
      cases blank : isBlank last with
      | false => rfl
      | true =>
        rw [blank_white last blank] at solid
        contradiction
    by_cases more : rest = []
    · subst more
      refine Apart.of_cut c front [] z kind cut ?_ (Apart.nil z)
      by_cases comment : kind = .comment
      · subst comment
        have kept := seam.closed
        rw [tokenize_of_cut c front [] .comment cut, tokenize_nil] at kept
        exact again.block_again c front w z seam.filled (by
          rw [List.head?_eq_getElem?]
          simpa [Token.isLineComment] using kept)
      · refine again.again z 0 comment (fun nothing => absurd nothing seam.filled) halts.apart (halts.stays _ ?_)
        rintro rfl
        have blanks := cut.blanks
        rw [lexeme_of_split _ front [] rfl] at blanks
        rw [List.append_nil] at ends
        rw [blanks last (List.mem_of_getLast? ends)] at unblank
        contradiction
    · have behind := seam.behind c front rest w kind cut more
      rw [← List.cons_append, List.getLast?_append_of_ne_nil _ more] at ends
      exact Apart.of_cut c front rest z kind cut
        (cut.append c front rest z kind last ends ⟨unblank, fun same => absurd same colon⟩) (ih behind)

end Seam

/-! Blanks in front of a text that begins with what ends an element. -/

-- A text that is empty or begins with what ends an element.
def Ends (y : Text) : Prop := ∀ c, y.head? = some c → c = ';' ∨ c = '\x7d'

namespace Ends

theorem first (y : Text) (ends : Ends y) (test : Char → Bool) (semicolon : test ';' = false) (brace : test '\x7d' = false) :
    y.head?.any test = false := by
  cases y with
  | nil => rfl
  | cons c y => rcases ends c rfl with rfl | rfl <;> assumption

theorem front (y z : Text) (ends : Ends y) (inside : z <+: y) : Ends z := by
  obtain ⟨more, rfl⟩ := inside
  cases z with
  | nil => simp [Ends]
  | cons c z => exact ends

theorem behind_blanks (g y : Text) (blanks : ∀ c ∈ g, isBlank c = true) (ends : Ends y) (test : Char → Bool)
    (blind : ∀ c, isBlank c = true → test c = false) (semicolon : test ';' = false) (brace : test '\x7d' = false) :
    (g ++ y).head?.any test = false := by
  cases g with
  | nil => exact ends.first y test semicolon brace
  | cons c g => exact blind c (blanks c List.mem_cons_self)

theorem unvalued (g y : Text) (blanks : ∀ c ∈ g, isBlank c = true) (ends : Ends y) : afterValue? (g ++ y) = none := by
  rw [after_value_eq, drop_while_front isBlank g y blanks (ends.first y isBlank (by decide) (by decide))]
  cases y with
  | nil => rfl
  | cons c y => rcases ends c rfl with rfl | rfl <;> rfl

theorem apart (g y : Text) (blanks : ∀ c ∈ g, isBlank c = true) (ends : Ends y) : Apart g y :=
  .of_blanks g y blanks (ends.first y isBlank (by decide) (by decide))

theorem halts (w g y : Text) (blanks : ∀ c ∈ g, isBlank c = true) (ends : Ends y)
    (apart : w.head?.any isValueChar = false → (g ++ y).head?.any isValueChar = false) : Halts w (g ++ y) where
  unnamed := ends.behind_blanks g y blanks isWordChar (fun c blank => (blank_tests c blank).1) (by decide) (by decide)
  unopened := ends.behind_blanks g y blanks opens (fun c blank => (blank_tests c blank).2.2.1) (by decide) (by decide)
  uncommented := ends.behind_blanks g y blanks _ (fun c blank => (blank_tests c blank).2.2.2) (by decide) (by decide)
  unvalued := ends.unvalued g y blanks
  apart := apart

-- A word as the value of an annotation takes in a brace right behind it.
theorem follows (bare : Bool) (g y : Text) (blanks : ∀ c ∈ g, isBlank c = true) (ends : Ends y)
    (free : bare = true → g = [] → y.head? ≠ some '\x7d') : Follows bare (g ++ y) where
  unnamed := ends.behind_blanks g y blanks isWordChar (fun c blank => (blank_tests c blank).1) (by decide) (by decide)
  unvalued := ends.unvalued g y blanks
  apart := by
    intro word
    cases g with
    | cons c g => exact (blank_tests c (blanks c List.mem_cons_self)).2.1
    | nil =>
      cases y with
      | nil => rfl
      | cons c y =>
        rcases ends c rfl with rfl | rfl
        · rfl
        · exact absurd rfl (free word rfl)

end Ends

-- The tokens of a text with `g` put in at a seam.
theorem tokens_at (x w g y : Text) (seam : Seam x w) (halts : Halts w (g ++ y)) (apart : Apart g y) :
    tokenize (x ++ (g ++ y)) = tokenize x ++ ((tokenize g).map (Token.moved x.byteSize) ++
      (tokenize y).map (Token.moved (x.byteSize + g.byteSize))) := by
  rw [seam.apart_of_halts x w _ halts, apart, List.map_append, moved_again]

end SchemaDiagram
