import SchemaDiagram.Proofs.Bodies

/-!
Where the body of a text is. A count of the braces, one up for each that opens and one down for each that closes, goes
from the first brace that opens to the place where it comes back to zero, and the body lies between the two. Other
tokens and the braces in front have no part in it.
-/

set_option autoImplicit false

namespace SchemaDiagram

namespace Token

def isBrace (token : Token) : Bool := token.isPunct '\x7b' || token.isPunct '\x7d'

def rise (token : Token) : Int := if token.isPunct '\x7b' then 1 else if token.isPunct '\x7d' then -1 else 0

theorem rise_opening (token : Token) (opening : token.isPunct '\x7b' = true) : token.rise = 1 := if_pos opening

theorem rise_closing (token : Token) (closing : token.isPunct '\x7d' = true) : token.rise = -1 := by
  rw [rise, if_neg (by rw [token.is_punct_apart _ '\x7b' closing (by decide)]; simp), if_pos closing]

theorem rise_other (token : Token) (opening : ¬ token.isPunct '\x7b' = true) (closing : ¬ token.isPunct '\x7d' = true) :
    token.rise = 0 := by
  rw [rise, if_neg opening, if_neg closing]

end Token

-- The count of the braces among the tokens.
def level : List Token → Int
  | [] => 0
  | token :: rest => token.rise + level rest

@[simp] theorem level_nil : level [] = 0 := rfl

@[simp] theorem level_cons (token : Token) (tokens : List Token) : level (token :: tokens) = token.rise + level tokens := rfl

@[simp] theorem level_append (a b : List Token) : level (a ++ b) = level a + level b := by
  induction a with
  | nil => simp
  | cons token a ih => rw [List.cons_append, level_cons, level_cons, ih, Int.add_assoc]

theorem level_braces (tokens : List Token) : level (tokens.filter Token.isBrace) = level tokens := by
  induction tokens with
  | nil => rfl
  | cons token rest ih =>
    by_cases brace : token.isBrace = true
    · rw [List.filter_cons_of_pos brace, level_cons, level_cons, ih]
    · rw [List.filter_cons_of_neg brace, level_cons, ih]
      rw [Token.isBrace, Bool.or_eq_true, not_or] at brace
      rw [token.rise_other brace.1 brace.2, Int.zero_add]

-- No prefix of the tokens closes more braces than it opens, where `depth` of them are open in front.
def Stays (depth : Nat) (tokens : List Token) : Prop := ∀ counted, counted <+: tokens → 0 ≤ depth + level counted

theorem stays_cons (depth deeper : Nat) (token : Token) (tokens : List Token) (step : (deeper : Int) = depth + token.rise)
    (stays : Stays deeper tokens) : Stays depth (token :: tokens) := by
  intro counted front
  rcases List.prefix_cons_iff.mp front with rfl | ⟨more, rfl, further⟩
  · simp
  · have above := stays more further
    rw [level_cons]
    omega

theorem stays_braces (tokens : List Token) (stays : Stays 0 tokens) : Stays 0 (tokens.filter Token.isBrace) := by
  intro counted front
  obtain ⟨whole, inside, rfl⟩ := List.prefix_filter_iff.mp front
  rw [level_braces]
  exact stays whole inside

namespace Body

theorem inside_stays (depth : Nat) (tokens : List Token) (missing : inside? depth tokens = none) : Stays depth tokens := by
  fun_induction inside? depth tokens with
  | case1 =>
    intro counted front
    simp [List.prefix_nil.mp front]
  | case2 depth token rest opening ih =>
    exact stays_cons depth (depth + 1) token rest (by have one := token.rise_opening opening; omega) (ih (by simpa using missing))
  | case3 => contradiction
  | case4 token rest _ closing depth ih =>
    exact stays_cons (depth + 1) depth token rest (by have one := token.rise_closing closing; omega) (ih (by simpa using missing))
  | case5 depth token rest opening closing ih =>
    exact stays_cons depth depth token rest (by have none := token.rise_other opening closing; omega) (ih (by simpa using missing))

theorem inside_level (depth : Nat) (tokens inside : List Token) (found : inside? depth tokens = some inside) :
    depth + level inside = 0 ∧ Stays depth inside := by
  have onward (deeper : Nat) (token : Token) (rest inside : List Token) (depth : Nat)
      (step : (deeper : Int) = depth + token.rise) (found : (inside? deeper rest).map (token :: ·) = some inside)
      (ih : ∀ inside, inside? deeper rest = some inside → deeper + level inside = 0 ∧ Stays deeper inside) :
      depth + level inside = 0 ∧ Stays depth inside := by
    obtain ⟨others, read, rfl⟩ := Option.map_eq_some_iff.mp found
    obtain ⟨zero, stays⟩ := ih others read
    refine ⟨?_, stays_cons depth deeper token others step stays⟩
    rw [level_cons]
    omega
  fun_induction inside? depth tokens generalizing inside with
  | case1 => contradiction
  | case2 depth token rest opening ih =>
    exact onward (depth + 1) token rest inside depth (by have one := token.rise_opening opening; omega) found ih
  | case3 =>
    cases found
    refine ⟨rfl, fun counted front => ?_⟩
    simp [List.prefix_nil.mp front]
  | case4 token rest _ closing depth ih =>
    exact onward depth token rest inside (depth + 1) (by have one := token.rise_closing closing; omega) found ih
  | case5 depth token rest opening closing ih =>
    exact onward depth token rest inside depth (by have none := token.rise_other opening closing; omega) found ih

end Body

-- The braces of a text from the first that opens on.
def firstBraces (t : Text) : List Token := ((tokenize t).filter Token.isBrace).dropWhile (!·.isPunct '\x7b')

-- The first brace that opens and the one that closes it: the count from the one on is above zero up to the other, where
-- it is zero.
structure Matched (braces : List Token) (opening : Token) (inside : List Token) (closing : Token) : Prop where
  first : ∃ after, braces = opening :: (inside ++ closing :: after)
  opens : opening.isPunct '\x7b' = true
  closes : closing.isPunct '\x7d' = true
  above : ∀ counted, counted <+: opening :: inside → counted ≠ [] → 0 < level counted
  zero : level (opening :: (inside ++ [closing])) = 0

namespace Matched

variable {braces : List Token} {opening opening' closing closing' : Token} {inside inside' : List Token}

theorem not_longer (one : Matched braces opening inside closing) (other : Matched braces opening' inside' closing') :
    inside'.length ≤ inside.length := by
  by_contra longer
  obtain ⟨after, split⟩ := one.first
  obtain ⟨after', split'⟩ := other.first
  have front : opening :: (inside ++ [closing]) <+: braces := ⟨after, by simp [split]⟩
  have front' : opening' :: inside' <+: braces := ⟨closing' :: after', by rw [split', List.cons_append]⟩
  have within := List.prefix_of_prefix_length_le front front' (by simp; omega)
  have above := other.above _ within (by simp)
  rw [one.zero] at above
  omega

theorem unique (one : Matched braces opening inside closing) (other : Matched braces opening' inside' closing') :
    opening = opening' ∧ inside = inside' ∧ closing = closing' := by
  have lengths := Nat.le_antisymm (other.not_longer one) (one.not_longer other)
  obtain ⟨after, split⟩ := one.first
  obtain ⟨after', split'⟩ := other.first
  rw [split, List.cons.injEq] at split'
  obtain ⟨same, behind⟩ := List.append_inj split'.2 lengths
  exact ⟨split'.1, same, (List.cons.inj behind).1⟩

end Matched

namespace Body

def range (body : Body) : Nat × Nat := (body.start, body.stop)

-- The first brace that opens, with what is in front of it and behind it.
theorem first_opening (t : Text) :
    (ofText? t = none ∧ firstBraces t = []) ∨
      ∃ front opening rest, tokenize t = front ++ opening :: rest ∧ opening.isPunct '\x7b' = true ∧
        firstBraces t = opening :: rest.filter Token.isBrace ∧
        ofText? t = (inside? 0 rest).map fun inside => ⟨opening.stop, untokenize inside⟩ := by
  by_cases opened : ∃ opening ∈ tokenize t, opening.isPunct '\x7b' = true
  · obtain ⟨front, opening, rest, closed, split, opens⟩ := first_brace _ opened
    refine .inr ⟨front, opening, rest, split, opens, ?_, ?_⟩
    · rw [firstBraces, split, List.filter_append, List.dropWhile_append_of_pos,
        List.filter_cons_of_pos (by simp [Token.isBrace, opens]), List.dropWhile_cons_of_neg (by simp [opens])]
      intro token member
      simp [closed token (List.mem_of_mem_filter member)]
    · rw [ofText?, split, of_tokens_first front rest opening closed opens]
  · have closed : ∀ token ∈ tokenize t, token.isPunct '\x7b' = false := by simpa using opened
    have passed (tokens : List Token) (among : ∀ token ∈ tokens, token ∈ tokenize t) :
        tokens.dropWhile (!·.isPunct '\x7b') = [] := by
      rw [List.dropWhile_eq_nil_iff]
      intro token member
      simp [closed token (among token member)]
    refine .inl ⟨?_, passed _ fun token => List.mem_of_mem_filter⟩
    rw [ofText?, ofTokens?, passed _ fun token => id]

theorem level_opened (opening : Token) (opens : opening.isPunct '\x7b' = true) (tokens counted : List Token)
    (stays : Stays 0 tokens) (front : counted <+: opening :: tokens) (filled : counted ≠ []) : 0 < level counted := by
  rcases List.prefix_cons_iff.mp front with rfl | ⟨more, rfl, further⟩
  · contradiction
  · have above := stays more further
    rw [level_cons, opening.rise_opening opens]
    omega

theorem matched_of_found (t : Text) (body : Body) (found : ofText? t = some body) :
    ∃ opening inside closing, Matched (firstBraces t) opening inside closing ∧
      body.start = opening.stop ∧ body.stop = closing.start ∧ level inside = 0 ∧ Stays 0 inside := by
  rcases first_opening t with ⟨none, _⟩ | ⟨front, opening, rest, split, opens, braces, read⟩
  · rw [none] at found
    contradiction
  · rw [read] at found
    obtain ⟨inside, left, rfl⟩ := Option.map_eq_some_iff.mp found
    obtain ⟨closing, after, rfl, closes⟩ := inside_split 0 rest inside left
    obtain ⟨zero, stays⟩ := inside_level 0 _ inside left
    have level : level (inside.filter Token.isBrace) = 0 := by
      rw [level_braces]
      simpa using zero
    have staysBraces := stays_braces inside stays
    refine ⟨opening, inside.filter Token.isBrace, closing, ⟨⟨after.filter Token.isBrace, ?_⟩, opens, closes,
      fun counted => level_opened opening opens _ counted staysBraces, ?_⟩, rfl, ?_, level, staysBraces⟩
    · rw [braces, List.filter_append, List.filter_cons_of_pos (by simp [Token.isBrace, closes])]
    · simp [opening.rise_opening opens, closing.rise_closing closes, level]
    · have atClosing : tokenize t = (front ++ opening :: inside) ++ closing :: after := by simp [split]
      have stop := token_stop 0 t front _ opening split
      have start := token_start 0 t _ after closing atClosing
      rw [Body.stop, start, stop, Nat.add_assoc, ← Text.byte_size_append, ← untokenize_append]
      simp

theorem above_of_missing (t : Text) (missing : ofText? t = none) :
    ∀ counted, counted <+: firstBraces t → counted ≠ [] → 0 < level counted := by
  rcases first_opening t with ⟨_, none⟩ | ⟨front, opening, rest, _, opens, braces, read⟩
  · intro counted within filled
    rw [none] at within
    exact absurd (List.prefix_nil.mp within) filled
  · rw [read, Option.map_eq_none_iff] at missing
    intro counted within filled
    rw [braces] at within
    exact level_opened opening opens _ counted (stays_braces rest (inside_stays 0 rest missing)) within filled

theorem found_iff_zero (t : Text) :
    (ofText? t).isSome = true ↔ ∃ counted, counted <+: firstBraces t ∧ counted ≠ [] ∧ level counted = 0 := by
  constructor
  · intro some
    obtain ⟨body, found⟩ := Option.isSome_iff_exists.mp some
    obtain ⟨opening, inside, closing, matched, _⟩ := matched_of_found t body found
    obtain ⟨after, split⟩ := matched.first
    exact ⟨opening :: (inside ++ [closing]), ⟨after, by simp [split]⟩, by simp, matched.zero⟩
  · rintro ⟨counted, within, filled, zero⟩
    by_contra none
    have above := above_of_missing t (by simpa using none) counted within filled
    omega

theorem range_of_braces (t u : Text) (same : firstBraces u = firstBraces t) :
    (ofText? u).map range = (ofText? t).map range := by
  have both : (ofText? u).isSome = (ofText? t).isSome := by
    rw [Bool.eq_iff_iff, found_iff_zero, found_iff_zero, same]
  cases left : ofText? u with
  | none =>
    rw [left, eq_comm, Option.isSome_none, Option.isSome_eq_false_iff, Option.isNone_iff_eq_none] at both
    rw [both]
  | some body =>
    rw [left] at both
    obtain ⟨other, right⟩ := Option.isSome_iff_exists.mp both.symm
    obtain ⟨_, _, _, one, start, stop, _⟩ := matched_of_found u body left
    obtain ⟨_, _, _, two, start', stop', _⟩ := matched_of_found t other right
    rw [same] at one
    obtain ⟨rfl, _, rfl⟩ := one.unique two
    rw [right, Option.map_some, Option.map_some, range, range, start, stop, start', stop']

end Body

-- A text has a body if and only if the count of its braces, from the first that opens on, comes back to zero. The body
-- lies between that brace and the first one where it does, and the braces in it are balanced. Nothing but these braces
-- and their places decides about it.
theorem first_body_told (t : Text) :
    ((Body.ofText? t).isSome = true ↔ ∃ counted, counted <+: firstBraces t ∧ counted ≠ [] ∧ level counted = 0) ∧
      (∀ body, Body.ofText? t = some body →
        body.start ≤ body.stop ∧ t.slice? body.start body.stop = some body.text ∧
          ∃ opening inside closing, Matched (firstBraces t) opening inside closing ∧
            body.start = opening.stop ∧ body.stop = closing.start ∧ level inside = 0 ∧ Stays 0 inside) ∧
      ∀ u, firstBraces u = firstBraces t → (Body.ofText? u).map Body.range = (Body.ofText? t).map Body.range :=
  ⟨Body.found_iff_zero t,
    fun body found => ⟨Nat.le_add_right _ _, Body.of_text_in_range t body found, Body.matched_of_found t body found⟩,
    Body.range_of_braces t⟩

-- Braces in front of the first that opens, in a literal, in a comment and in an annotation, and a text without these.
def strayShelf : Text := "\x7d '\x7b' @(x: '\x7b') Shelf /* \x7d */ \x7b a : \x7b b; \x7d // \x7d\n \x7d \x7d \x7b"

def plainShelf : Text := "; 'x' @(x: 'y') Shelf /* x */ \x7b a : \x7b b; \x7d // x\n \x7d \x7d \x7b"

def shelfBody : Body := ⟨31, " a : \x7b b; \x7d // \x7d\n ".toList⟩

theorem stray_braces_ignored :
    firstBraces plainShelf = firstBraces strayShelf ∧ Body.ofText? strayShelf = some shelfBody ∧
      strayShelf.slice? shelfBody.start shelfBody.stop = some shelfBody.text ∧
      (Body.ofText? plainShelf).map Body.range = (Body.ofText? strayShelf).map Body.range := by
  have same : firstBraces plainShelf = firstBraces strayShelf := by decide +kernel
  have found : Body.ofText? strayShelf = some shelfBody := by decide +kernel
  obtain ⟨_, told, alone⟩ := first_body_told strayShelf
  exact ⟨same, found, (told shelfBody found).2.1, alone plainShelf same⟩

end SchemaDiagram
