import SchemaDiagram.Proofs.Trimming
import SchemaDiagram.Proofs.Joining

/-!
The tokens of the front of a text. Cut off behind a token, a text in which each CR has its LF keeps the tokens in front.
White space at its end has a part in its last token at most, and none in its braces.
-/

set_option autoImplicit false

namespace SchemaDiagram

open Text

namespace Scan

theorem comment_of_front (rest u : Text) (inside : u <+: rest) (paired : pairedReturns rest = true)
    (uncommented : afterComment? rest = none) : afterComment? u = none := by
  obtain ⟨more, rfl⟩ := inside
  cases u with
  | nil => rfl
  | cons c u =>
    apply no_comment_at
    · intro slash
      obtain rfl : c = '/' := Option.some.inj slash
      have behind := paired_returns_suffix _ (u ++ more) ⟨['/'], rfl⟩ paired
      have line := after_line_of_paired (u ++ more) behind
      change afterLine? (u ++ more) = none at uncommented
      rw [line] at uncommented
      contradiction
    · intro star
      obtain rfl : c = '*' := Option.some.inj star
      contradiction

-- Whether a value begins with a character does not depend on what follows.
theorem of_value_first (c : Char) (v w : Text) : (ofValue? (c :: v)).isSome = (ofValue? (c :: w)).isSome := by
  rw [ofValue?, ofValue?]
  split
  · rfl
  · split
    · rfl
    · split <;> rfl

theorem value_of_front (rest u : Text) (inside : u <+: rest) (unvalued : afterValue? rest = none) :
    afterValue? u = none := by
  obtain ⟨more, rfl⟩ := inside
  cases found : afterValue? u with
  | none => rfl
  | some left =>
    obtain ⟨lead, c, value, rfl, solid, read, _, again⟩ := value_behind_colon u left found
    have valued := of_value_first c value (value ++ more)
    rw [List.append_assoc, List.cons_append, again c _ solid] at unvalued
    rw [read, unvalued] at valued
    contradiction

end Scan

open Scan

theorem Token.goes_on_front (token : Token) (rest u : Text) (inside : u <+: rest) (paired : pairedReturns rest = true)
    (stays : token.goesOn rest = false) : token.goesOn u = false := by
  unfold goesOn at stays ⊢
  cases kind : token.kind with
  | space => exact stops_front u rest inside (by simpa [kind] using stays)
  | word => exact stops_front u rest inside (by simpa [kind] using stays)
  | comment => rfl
  | literal => rfl
  | punct =>
    simp only [kind, Bool.and_eq_false_iff, Option.isSome_eq_false_iff, Option.isNone_iff_eq_none] at stays ⊢
    exact stays.imp id fun uncommented => comment_of_front rest u inside paired uncommented
  | tag =>
    simp only [kind, Bool.and_eq_false_iff, Bool.or_eq_false_iff, Option.isSome_eq_false_iff,
      Option.isNone_iff_eq_none] at stays ⊢
    refine stays.imp id fun ⟨⟨unnamed, unopened⟩, unvalued⟩ => ⟨⟨?_, ?_⟩, value_of_front rest u inside unvalued⟩
    · exact stops_front u rest inside unnamed
    · exact unopened.imp id (stops_front u rest inside)

namespace Scan

theorem after_block_shorter (t : Text) (filled : t ≠ []) : (afterBlock t).length < t.length := by
  fun_induction afterBlock t with
  | case1 => contradiction
  | case2 => simp
  | case3 c d rest => simp only [List.length_cons]; omega
  | case4 c d rest _ ih => exact (ih (by simp)).trans (Nat.lt_succ_self _)

theorem after_block_again (front rest u : Text) (more : rest ≠ []) (ended : afterBlock (front ++ rest) = rest) :
    afterBlock (front ++ u) = u := by
  induction front with
  | nil =>
    have shorter := after_block_shorter rest more
    rw [List.nil_append] at ended
    rw [ended] at shorter
    omega
  | cons c front ih =>
    cases front with
    | nil =>
      obtain ⟨d, rest, rfl⟩ := List.exists_cons_of_ne_nil more
      have shorter := after_block_shorter (d :: rest) more
      rw [List.singleton_append, afterBlock] at ended
      split at ended
      · have lengths := congrArg List.length ended
        simp at lengths
      · rw [ended] at shorter
        omega
    | cons d front =>
      rw [List.cons_append, List.cons_append, afterBlock] at ended ⊢
      split
      · rename_i closing
        rw [if_pos closing] at ended
        rw [List.append_left_eq_self.mp ended]
        rfl
      · rename_i inside
        rw [if_neg inside] at ended
        exact ih ended

theorem line_again (front rest u : Text) (inside : u <+: rest) (paired : pairedReturns u = true)
    (found : afterLine? (front ++ rest) = some rest) : afterLine? (front ++ u) = some u := by
  have ended := after_line_left _ rest found
  have whole := List.takeWhile_append_dropWhile (p := fun c => c ≠ '\n' && c ≠ '\r') (l := front ++ rest)
  rw [ended] at whole
  have free : '\r' ∉ front := by
    rw [← List.append_cancel_right whole]
    intro member
    simpa using List.mem_takeWhile_imp member
  rw [after_line_of_paired _ (paired_append front u (paired_free front free) paired)]
  exact congrArg some (drop_while_again _ front rest u ended (stops_front u rest inside))

theorem comment_again (front rest u : Text) (inside : u <+: rest) (more : rest ≠ []) (paired : pairedReturns u = true)
    (found : afterComment? (front ++ rest) = some rest) : afterComment? (front ++ u) = some u := by
  cases front with
  | nil =>
    unfold afterComment? at found
    split at found
    · rename_i behind same
      have shorter := (after_line_suffix behind rest found).length_le
      rw [List.nil_append] at same
      rw [same, List.length_cons] at shorter
      omega
    · rename_i behind same
      have shorter := (after_block_suffix behind).length_le
      rw [List.nil_append] at same
      rw [Option.some.inj found, same, List.length_cons] at shorter
      omega
    · contradiction
  | cons c front =>
    unfold afterComment? at found
    split at found
    · rename_i behind same
      obtain ⟨rfl, rfl⟩ := List.cons.inj same
      exact line_again front rest u inside paired found
    · rename_i behind same
      obtain ⟨rfl, rfl⟩ := List.cons.inj same
      exact congrArg some (after_block_again front rest u more (Option.some.inj found))
    · contradiction

-- The first token stays where what is behind it is cut off further on, unless what is left goes on with the token.
theorem Cut.kept (c : Char) (front rest u : Text) (kind : TokenKind) (cut : Cut c (front ++ rest) kind rest)
    (inside : u <+: rest) (paired : pairedReturns u = true) (apart : Token.goesOn ⟨kind, c :: front, 0⟩ u = false) :
    Cut c (front ++ u) kind u := by
  have ended : rest = [] → u = [] := by
    rintro rfl
    exact List.prefix_nil.mp inside
  by_cases comment : kind = .comment
  · by_cases nothing : rest = []
    · rw [ended nothing]
      rwa [nothing] at cut
    · generalize whole : front ++ rest = t at cut
      cases cut with
      | comment _ _ found =>
        rw [← whole] at found
        exact .comment _ _ (comment_again front rest u inside nothing paired found)
      | _ => contradiction
  · exact cut.again u 0 comment ended (stops_front u rest inside) apart

theorem Cut.front (c : Char) (front rest u : Text) (kind : TokenKind) (cut : Cut c (front ++ rest) kind rest)
    (inside : u <+: rest) (pairedRest : pairedReturns rest = true) (paired : pairedReturns u = true) :
    Cut c (front ++ u) kind u :=
  cut.kept c front rest u kind inside paired (Token.goes_on_front _ rest u inside pairedRest (cut.apart 0))

end Scan

theorem paired_tokens (start : Nat) (t : Text) (paired : pairedReturns t = true) :
    ∀ token ∈ tokensFrom start t, pairedReturns token.text = true := by
  rw [tokens_from_start]
  have bare := tokenize_bare t paired
  generalize tokenize t = tokens at bare
  generalize tokenize (withoutReturns t) = others at bare
  induction bare with
  | nil => simp
  | cons first _ ih => exact List.forall_mem_cons.mpr ⟨first.paired, ih⟩

-- Tokens of a text are those of what they are put together to.
theorem tokens_of_back (start : Nat) (t : Text) (before after : List Token)
    (split : tokensFrom start t = before ++ after) :
    tokensFrom (start + (untokenize before).byteSize) (untokenize after) = after := by
  induction before generalizing start t with
  | nil =>
    have whole := untokenize_tokens_from start t
    rw [split, List.nil_append] at whole
    rw [whole]
    exact split
  | cons first before ih =>
    cases t using text_induction with
    | nil =>
      rw [tokensFrom] at split
      contradiction
    | token c front rest kind cut =>
      rw [tokens_of_cut start c front rest kind cut] at split
      obtain ⟨rfl, others⟩ := List.cons.inj split
      have behind := ih _ _ others
      rwa [Nat.add_assoc, ← Text.byte_size_append] at behind

theorem tokens_of_front (start : Nat) (t : Text) (paired : pairedReturns t = true) (tokens after : List Token)
    (split : tokensFrom start t = tokens ++ after) : tokensFrom start (untokenize tokens) = tokens := by
  induction tokens generalizing start t with
  | nil => rw [untokenize, List.flatMap_nil, tokensFrom]
  | cons first tokens ih =>
    cases t using text_induction with
    | nil =>
      rw [tokensFrom] at split
      contradiction
    | token c front rest kind cut =>
      have pairedRest := paired_returns_suffix _ rest ⟨c :: front, rfl⟩ paired
      have texts := paired_tokens start _ paired
      rw [split] at texts
      rw [tokens_of_cut start c front rest kind cut] at split
      have others : tokensFrom _ rest = tokens ++ after := (List.cons.inj split).2
      obtain rfl := (List.cons.inj split).1
      have inside : untokenize tokens <+: rest := by
        rw [← untokenize_tokens_from (start + Text.byteSize (c :: front)) rest, others, untokenize_append]
        exact List.prefix_append _ _
      have pairedFront : pairedReturns (untokenize tokens) = true :=
        paired_flat_map tokens Token.text fun token member => texts token (by simp [member])
      have again := cut.front c front rest _ kind inside pairedRest pairedFront
      change tokensFrom start (c :: (front ++ untokenize tokens)) = _
      rw [tokens_of_cut start c front _ kind again, ih _ rest pairedRest others]

/-! The braces among tokens, where white space at the end of the text makes no difference. -/

-- Whether a token opens a brace or closes one.
def Token.brace? (token : Token) : Option Bool :=
  if token.isPunct '\x7b' then some true else if token.isPunct '\x7d' then some false else none

def braceMarks (tokens : List Token) : List Bool := tokens.filterMap Token.brace?

theorem brace_marks_moved (bytes : Nat) (tokens : List Token) :
    braceMarks (tokens.map (Token.moved bytes)) = braceMarks tokens := by
  rw [braceMarks, List.filterMap_map]
  rfl

theorem brace_of_other (token : Token) (opening : token.text.head? ≠ some '\x7b')
    (closing : token.text.head? ≠ some '\x7d') : token.brace? = none := by
  rw [Token.brace?, Token.isPunct, Token.isPunct, if_neg (by simp [opening]), if_neg (by simp [closing])]

-- A token in one text begins as in another with the same character, so the two are the same brace or none.
theorem brace_of_first (c : Char) (front front' t t' rest rest' : Text) (kind kind' : TokenKind) (start start' : Nat)
    (cut : Cut c t kind rest) (cut' : Cut c t' kind' rest') :
    Token.brace? ⟨kind, c :: front, start⟩ = Token.brace? ⟨kind', c :: front', start'⟩ := by
  by_cases brace : c = '\x7b' ∨ c = '\x7d'
  · have plain : isPlain c = true := by rcases brace with rfl | rfl <;> decide
    rw [(cut.unique (.plain c t plain)).1, (cut'.unique (.plain c t' plain)).1]
    rfl
  · rw [not_or] at brace
    rw [brace_of_other ⟨kind, c :: front, start⟩ (by simpa using brace.1) (by simpa using brace.2),
      brace_of_other ⟨kind', c :: front', start'⟩ (by simpa using brace.1) (by simpa using brace.2)]

theorem brace_marks_white (start : Nat) (t : Text) (white : ∀ c ∈ t, isWhite c = true) :
    braceMarks (tokensFrom start t) = [] := by
  have whole := untokenize_tokens_from start t
  rw [braceMarks, List.filterMap_eq_nil_iff]
  intro token member
  have apart (c : Char) (solid : isWhite c = false) : token.text.head? ≠ some c := by
    intro first
    have among : c ∈ untokenize (tokensFrom start t) := List.mem_flatMap.mpr ⟨token, member, List.mem_of_head? first⟩
    rw [whole] at among
    rw [white c among] at solid
    contradiction
  exact brace_of_other token (apart _ (by decide)) (apart _ (by decide))

theorem brace_marks_of_cut (c : Char) (front rest : Text) (kind : TokenKind) (cut : Cut c (front ++ rest) kind rest) :
    braceMarks (tokenize (c :: (front ++ rest))) =
      (Token.brace? ⟨kind, c :: front, 0⟩).toList ++ braceMarks (tokenize rest) := by
  rw [tokenize_of_cut c front rest kind cut, braceMarks, List.filterMap_cons]
  have moved := brace_marks_moved (Text.byteSize (c :: front)) (tokenize rest)
  rw [braceMarks] at moved
  cases brace : Token.brace? ⟨kind, c :: front, 0⟩ with
  | none => simpa [brace] using moved
  | some opens => simpa [brace] using moved

theorem brace_marks_front (front white : Text) (blank : ∀ c ∈ white, isWhite c = true)
    (solid : ∀ c, front.getLast? = some c → isWhite c = false) (paired : pairedReturns (front ++ white) = true)
    (alone : pairedReturns front = true) :
    braceMarks (tokenize (front ++ white)) = braceMarks (tokenize front) := by
  induction front using text_induction with
  | nil =>
    rw [List.nil_append, tokenize_nil]
    exact brace_marks_white 0 white blank
  | token c front rest kind cut ih =>
    by_cases nothing : rest = []
    · -- The last token takes all in front of the white space again.
      subst nothing
      have read := Cut.of_cut c (front ++ white)
      obtain ⟨taken, split⟩ := read.left
      generalize (Scan.cut c (front ++ white)).1 = other at read
      generalize (Scan.cut c (front ++ white)).2.2 = left at read split
      rw [← split] at read
      have behind : left <:+ white := by
        rcases List.append_eq_append_iff.mp split with ⟨early, rfl, rfl⟩ | ⟨late, rfl, rfl⟩
        · have pairedLeft := paired_returns_suffix _ (early ++ white) ⟨c :: taken, by simp⟩ paired
          have pairedEarly := paired_returns_suffix _ early ⟨c :: taken, by simp⟩ alone
          have again := read.front c taken _ early other (List.prefix_append _ _) pairedLeft pairedEarly
          rw [List.append_nil] at cut
          rw [(again.unique cut).2]
          exact List.suffix_refl _
        · exact List.suffix_append _ _
      have pale := brace_marks_white 0 left fun d member => blank d (behind.subset member)
      rw [List.append_nil, List.cons_append, ← split, brace_marks_of_cut c taken left other read, tokenize, pale,
        List.append_nil, ← List.append_nil front, brace_marks_of_cut c front [] kind cut, tokenize_nil, braceMarks,
        List.filterMap_nil, List.append_nil]
      exact congrArg Option.toList (brace_of_first c taken front _ _ _ _ other kind 0 0 read cut)
    · obtain ⟨last, ends⟩ : ∃ last, rest.getLast? = some last := Option.isSome_iff_exists.mp (by simpa using nothing)
      have behind : ∀ d, rest.getLast? = some d → isWhite d = false := by
        intro d found
        apply solid d
        rw [← List.cons_append, List.getLast?_append, found]
        rfl
      have stays : isBlank last = false := by
        cases blank : isBlank last with
        | false => rfl
        | true =>
          have white := blank_white last blank
          rw [behind last ends] at white
          contradiction
      have longer := cut.append c front rest white kind last ends (seals_white last white stays blank)
      rw [List.cons_append, List.append_assoc, brace_marks_of_cut c front _ kind longer,
        brace_marks_of_cut c front rest kind cut]
      have pairedRest := paired_returns_suffix _ (rest ++ white) ⟨c :: front, by simp⟩ paired
      rw [ih behind pairedRest (paired_returns_suffix _ rest ⟨c :: front, rfl⟩ alone)]

theorem brace_marks_trim_end (t : Text) (paired : pairedReturns t = true) :
    braceMarks (tokenize t.trimEnd) = braceMarks (tokenize t) := by
  obtain ⟨white, split, blank⟩ := trim_end_split t
  have alone := paired_trim_end t paired
  rw [split] at paired
  nth_rewrite 2 [split]
  exact (brace_marks_front t.trimEnd white blank (trim_end_last t) paired alone).symm

end SchemaDiagram
