import Mathlib.Data.List.Induction
import Mathlib.Data.List.TakeWhile
import SchemaDiagram.Declaration

/-!
Comments told by a scan over the characters of a text, which knows code, literals and the two sorts of comments
and nothing else. Between tags the text without its comments is what this scan leaves. A tag stays as it is,
comments inside of it included, so that the scan of the whole text agrees only where it meets no comment in a
tag and leaves no literal open there.
-/

set_option autoImplicit false

namespace SchemaDiagram

inductive Region where
  | code
  | literal
  | lineComment
  | blockComment
deriving DecidableEq, Repr

namespace Region

def strip : Region → Text → Text
  | _, [] => []
  | code, [c] => [c]
  | code, c :: d :: rest =>
    if c = '\'' then c :: strip literal (d :: rest)
    else if c = '/' ∧ d = '/' then strip lineComment rest
    else if c = '/' ∧ d = '*' then strip blockComment rest
    else c :: strip code (d :: rest)
  | literal, c :: rest => c :: strip (if c = '\'' then code else literal) rest
  | lineComment, c :: rest =>
    if c = '\n' ∨ c = '\r' then c :: strip code rest else strip lineComment rest
  | blockComment, [c] => if c = '\n' then [c] else []
  | blockComment, c :: d :: rest =>
    if c = '*' ∧ d = '/' then strip code rest
    else if c = '\n' then c :: strip blockComment (d :: rest)
    else strip blockComment (d :: rest)

-- Whether a comment starts with a character and what follows it.
def commentStarts (c : Char) (rest : Text) : Bool := c = '/' && rest.head?.any fun d => d = '/' || d = '*'

-- The way of the scan over a part of a text, `rest` behind it: none if a comment starts there, or else
-- whether the scan is inside of a literal at the end.
def passage : (inLiteral : Bool) → (part rest : Text) → Option Bool
  | inLiteral, [], _ => some inLiteral
  | true, c :: part, rest => passage (c ≠ '\'') part rest
  | false, c :: part, rest =>
    if c = '\'' then passage true part rest
    else if commentStarts c (part ++ rest) then none
    else passage false part rest

end Region

-- Every CR stands in front of an LF.
def Text.pairedReturns : Text → Bool
  | [] => true
  | c :: rest => (c ≠ '\r' || rest.head? = some '\n') && pairedReturns rest

theorem Text.paired_returns_suffix (a b : Text) (left : b <:+ a) (paired : a.pairedReturns = true) :
    b.pairedReturns = true := by
  obtain ⟨gone, rfl⟩ := left
  induction gone with
  | nil => exact paired
  | cons c gone ih =>
    rw [List.cons_append, pairedReturns, Bool.and_eq_true] at paired
    exact ih paired.2

namespace Region

theorem strip_nil (region : Region) : strip region [] = [] := by
  cases region <;> rfl

theorem strip_code_last (c : Char) : strip code [c] = [c] := rfl

theorem strip_code_pair (c d : Char) (rest : Text) :
    strip code (c :: d :: rest) =
      if c = '\'' then c :: strip literal (d :: rest)
      else if c = '/' ∧ d = '/' then strip lineComment rest
      else if c = '/' ∧ d = '*' then strip blockComment rest
      else c :: strip code (d :: rest) := rfl

theorem strip_in_literal (c : Char) (rest : Text) :
    strip literal (c :: rest) = c :: strip (if c = '\'' then code else literal) rest := by
  cases rest <;> rfl

theorem strip_in_line (c : Char) (rest : Text) :
    strip lineComment (c :: rest) =
      if c = '\n' ∨ c = '\r' then c :: strip code rest else strip lineComment rest := by
  cases rest <;> rfl

theorem strip_block_last (c : Char) : strip blockComment [c] = if c = '\n' then [c] else [] := rfl

theorem strip_block_pair (c d : Char) (rest : Text) :
    strip blockComment (c :: d :: rest) =
      if c = '*' ∧ d = '/' then strip code rest
      else if c = '\n' then c :: strip blockComment (d :: rest)
      else strip blockComment (d :: rest) := rfl

theorem strip_code_step (c : Char) (rest : Text) (quote : c ≠ '\'') (starts : commentStarts c rest = false) :
    strip code (c :: rest) = c :: strip code rest := by
  cases rest with
  | nil => rfl
  | cons d rest =>
    have apart : ¬ (c = '/' ∧ d = '/') ∧ ¬ (c = '/' ∧ d = '*') := by
      simp only [commentStarts, List.head?_cons, Option.any_some] at starts
      constructor
      · rintro ⟨rfl, rfl⟩
        contradiction
      · rintro ⟨rfl, rfl⟩
        contradiction
    rw [strip_code_pair, if_neg quote, if_neg apart.1, if_neg apart.2]

theorem strip_quote (rest : Text) : strip code ('\'' :: rest) = '\'' :: strip literal rest := by
  cases rest <;> rfl

theorem strip_slashes (rest : Text) : strip code ('/' :: '/' :: rest) = strip lineComment rest := rfl

theorem strip_slash_star (rest : Text) : strip code ('/' :: '*' :: rest) = strip blockComment rest := rfl

theorem strip_plain (part rest : Text) (plain : ∀ c ∈ part, c ≠ '\'' ∧ c ≠ '/') :
    strip code (part ++ rest) = part ++ strip code rest := by
  induction part with
  | nil => rfl
  | cons c part ih =>
    obtain ⟨quote, slash⟩ := plain c List.mem_cons_self
    rw [List.cons_append, strip_code_step c _ quote (by simp [commentStarts, slash]),
      ih fun d member => plain d (List.mem_cons_of_mem c member)]
    rfl

theorem strip_literal_closed (inside rest : Text) (free : '\'' ∉ inside) :
    strip literal (inside ++ '\'' :: rest) = inside ++ '\'' :: strip code rest := by
  induction inside with
  | nil => rw [List.nil_append, strip_in_literal, if_pos rfl, List.nil_append]
  | cons c inside ih =>
    rw [List.mem_cons, not_or] at free
    rw [List.cons_append, strip_in_literal, if_neg (Ne.symm free.1), ih free.2]
    rfl

theorem strip_literal_open (inside : Text) (free : '\'' ∉ inside) : strip literal inside = inside := by
  induction inside with
  | nil => rfl
  | cons c inside ih =>
    rw [List.mem_cons, not_or] at free
    rw [strip_in_literal, if_neg (Ne.symm free.1), ih free.2]

theorem strip_line (comment rest : Text) (line : ∀ c ∈ comment, c ≠ '\n' ∧ c ≠ '\r')
    (ends : rest = [] ∨ rest.head? = some '\n' ∨ rest.head? = some '\r') :
    strip lineComment (comment ++ rest) = strip code rest := by
  induction comment with
  | nil =>
    cases rest with
    | nil => rfl
    | cons c rest =>
      have last : c = '\n' ∨ c = '\r' := by simpa using ends
      have code : c ≠ '\'' ∧ commentStarts c rest = false := by
        rcases last with rfl | rfl <;> exact ⟨by decide, rfl⟩
      rw [List.nil_append, strip_in_line, if_pos last, strip_code_step c rest code.1 code.2]
  | cons c comment ih =>
    obtain ⟨feed, back⟩ := line c List.mem_cons_self
    rw [List.cons_append, strip_in_line, if_neg (by simp [feed, back]),
      ih fun d member => line d (List.mem_cons_of_mem c member)]

theorem strip_passage (inLiteral ends : Bool) (part rest : Text)
    (passed : passage inLiteral part rest = some ends) :
    strip (if inLiteral then literal else code) (part ++ rest) =
      part ++ strip (if ends then literal else code) rest := by
  fun_induction passage inLiteral part rest with
  | case1 inLiteral rest =>
    cases passed
    rfl
  | case2 c part rest ih =>
    have further := ih passed
    rw [if_pos rfl, List.cons_append, strip_in_literal, List.cons_append]
    by_cases quote : c = '\''
    · simp only [quote, ne_eq, not_true_eq_false, decide_false, Bool.false_eq_true, if_false, if_true] at further ⊢
      rw [further]
    · simp only [quote, ne_eq, not_false_eq_true, decide_true, if_true, if_false] at further ⊢
      rw [further]
  | case3 part rest ih =>
    have further := ih passed
    rw [if_pos rfl] at further
    rw [if_neg Bool.false_ne_true, List.cons_append, strip_quote, further, List.cons_append]
  | case4 => contradiction
  | case5 c part rest quote starts ih =>
    have further := ih passed
    rw [if_neg Bool.false_ne_true] at further
    rw [if_neg Bool.false_ne_true, List.cons_append,
      strip_code_step c _ quote (by simpa using starts), further, List.cons_append]

end Region

-- Behind the first character that a bracketed comment holds.
theorem Scan.after_block_tail (c : Char) (rest : Text) : afterBlock (c :: rest) <:+ rest := by
  cases rest with
  | nil => exact List.nil_suffix
  | cons d rest =>
    rw [afterBlock]
    split
    · exact List.suffix_cons d rest
    · exact after_block_suffix (d :: rest)

namespace Region

open Scan in
theorem strip_block (t front more : Text) (split : front ++ afterBlock t = t) (left : more <+: afterBlock t) :
    strip blockComment (front ++ more) = front.filter (· = '\n') ++ strip code more := by
  fun_induction afterBlock t generalizing front with
  | case1 =>
    rw [List.append_nil] at split
    rw [split, List.prefix_nil.mp left]
    rfl
  | case2 c =>
    rw [List.append_nil] at split
    rw [split, List.prefix_nil.mp left]
    by_cases feed : c = '\n' <;> simp [strip_block_last, strip_nil, feed]
  | case3 c d rest closes =>
    have both : front = [c, d] := List.append_cancel_right (split.trans rfl)
    rw [both, List.cons_append, List.cons_append, List.nil_append, strip_block_pair, if_pos closes, closes.1, closes.2]
    rfl
  | case4 c d rest closes ih =>
    have shorter := (after_block_tail d rest).length_le
    obtain ⟨behind, rfl⟩ : ∃ behind, front = c :: d :: behind := by
      have lengths := congrArg List.length split
      rcases front with _ | ⟨first, _ | ⟨second, behind⟩⟩
      · simp at lengths
        omega
      · simp at lengths
        omega
      · simp only [List.cons_append, List.cons.injEq] at split
        exact ⟨behind, by rw [split.1, split.2.1]⟩
    have further := ih (d :: behind) (List.cons.inj split).2 left
    rw [List.cons_append] at further
    rw [List.cons_append, List.cons_append, strip_block_pair, if_neg closes, further]
    by_cases feed : c = '\n' <;> simp [feed]

end Region

namespace Scan

theorem lexeme_of_split (t front rest : Text) (split : front ++ rest = t) : lexeme t rest = front := by
  subst split
  simp [lexeme]

theorem after_line_ends (t rest : Text) (found : afterLine? t = some rest) :
    ∃ front, front ++ rest = t ∧ (∀ c ∈ front, c ≠ '\n' ∧ c ≠ '\r') ∧
      (rest = [] ∨ rest.head? = some '\n' ∨ rest.head? = some '\r') := by
  have whole : t.dropWhile (fun c => c ≠ '\n' && c ≠ '\r') = rest := by
    unfold afterLine? at found
    split at found <;> simp_all
  refine ⟨t.takeWhile (fun c => c ≠ '\n' && c ≠ '\r'), ?_, ?_, ?_⟩
  · rw [← whole, List.takeWhile_append_dropWhile]
  · intro c member
    simpa using List.mem_takeWhile_imp member
  · cases rest with
    | nil => exact .inl rfl
    | cons c rest =>
      have first := List.head?_dropWhile_not (fun c => c ≠ '\n' && c ≠ '\r') t
      rw [whole] at first
      simp only [List.head?_cons] at first
      by_cases feed : c = '\n'
      · exact .inr (.inl (by rw [feed, List.head?_cons]))
      · refine .inr (.inr ?_)
        have back : c = '\r' := by simpa [feed] using first
        rw [back, List.head?_cons]

-- Where every CR is in front of an LF, two slashes always start a comment.
theorem after_line_paired (t : Text) (paired : t.pairedReturns = true) : afterLine? t ≠ none := by
  intro missing
  have left := Text.paired_returns_suffix t _ (drop_while_suffix (fun c => c ≠ '\n' && c ≠ '\r') t) paired
  unfold afterLine? at missing
  split at missing
  · contradiction
  · rename_i rest bare same
    rw [same, Text.pairedReturns] at left
    cases rest with
    | nil => simp at left
    | cons d rest =>
      have feed : d = '\n' := by simpa using (Bool.and_eq_true_iff.mp left).1
      exact bare rest (by rw [feed])
  · contradiction

theorem after_quote_cases (t : Text) :
    ('\'' ∉ t ∧ afterQuote t = []) ∨ ∃ inside, '\'' ∉ inside ∧ inside ++ '\'' :: afterQuote t = t := by
  have front : '\'' ∉ t.takeWhile (· ≠ '\'') := by
    intro member
    simpa using List.mem_takeWhile_imp member
  cases behind : t.dropWhile (· ≠ '\'') with
  | nil =>
    refine .inl ⟨?_, by rw [afterQuote, behind]; rfl⟩
    rw [List.dropWhile_eq_nil_iff] at behind
    intro member
    simpa using behind '\'' member
  | cons c rest =>
    have quote : c = '\'' := by
      have first := List.head?_dropWhile_not (· ≠ '\'') t
      rw [behind] at first
      simpa using first
    refine .inr ⟨t.takeWhile (· ≠ '\''), front, ?_⟩
    have whole := List.takeWhile_append_dropWhile (p := (· ≠ '\'')) (l := t)
    rw [behind, quote] at whole
    rw [afterQuote, behind, List.drop_one, List.tail_cons, whole]

theorem comment_starts_of_none (t more : Text) (paired : Text.pairedReturns t = true)
    (none : afterComment? t = none) (left : more <+: t) : Region.commentStarts '/' more = false := by
  cases more with
  | nil => rfl
  | cons d more =>
    obtain ⟨rest, rfl⟩ := left
    have slash : d ≠ '/' := by
      rintro rfl
      exact after_line_paired (more ++ rest)
        (Text.paired_returns_suffix _ _ (List.suffix_cons '/' (more ++ rest)) paired) none
    have star : d ≠ '*' := by
      rintro rfl
      contradiction
    simp [Region.commentStarts, slash, star]

theorem strip_comment (t rest more : Text) (found : afterComment? t = some rest) (left : more <+: rest) :
    Region.strip .code ('/' :: lexeme t rest ++ more) =
      ('/' :: lexeme t rest).filter (· = '\n') ++ Region.strip .code more := by
  unfold afterComment? at found
  split at found
  · rename_i line
    obtain ⟨front, split, unbroken, ends⟩ := after_line_ends line rest found
    have gone : front.filter (· = '\n') = [] := by
      rw [List.filter_eq_nil_iff]
      intro c member
      simpa using (unbroken c member).1
    rw [lexeme_of_split ('/' :: line) ('/' :: front) rest (by rw [List.cons_append, split])]
    change Region.strip .lineComment (front ++ more) = front.filter (· = '\n') ++ _
    rw [gone, Region.strip_line front more unbroken, List.nil_append]
    cases more with
    | nil => exact .inl rfl
    | cons d more =>
      obtain ⟨behind, rfl⟩ := left
      exact .inr (by simpa using ends)
  · rename_i block
    cases found
    obtain ⟨front, split⟩ := after_block_suffix block
    rw [lexeme_of_split ('*' :: block) ('*' :: front) (afterBlock block) (by rw [List.cons_append, split])]
    exact Region.strip_block block front more split left
  · contradiction

theorem strip_literal (t more : Text) (left : more <+: afterQuote t) :
    Region.strip .code ('\'' :: lexeme t (afterQuote t) ++ more) =
      '\'' :: lexeme t (afterQuote t) ++ Region.strip .code more := by
  rw [List.cons_append, Region.strip_quote]
  rcases after_quote_cases t with ⟨free, nothing⟩ | ⟨inside, free, split⟩
  · rw [nothing, List.prefix_nil] at left
    rw [lexeme_of_split t t (afterQuote t) (by rw [nothing, List.append_nil]), left, List.append_nil,
      Region.strip_literal_open t free]
    simp [Region.strip_nil]
  · rw [lexeme_of_split t (inside ++ ['\'']) (afterQuote t) (by simpa using split), List.append_assoc,
      List.singleton_append, Region.strip_literal_closed inside more free]
    simp

-- A run of characters among which no quote and no slash is.
theorem strip_run (isRun : Char → Bool) (quote : isRun '\'' = false) (slash : isRun '/' = false) (c : Char)
    (t more : Text) (first : isRun c = true) :
    Region.strip .code (c :: t.takeWhile isRun ++ more) = c :: t.takeWhile isRun ++ Region.strip .code more := by
  apply Region.strip_plain
  intro d member
  have among : isRun d = true := by
    rcases List.mem_cons.mp member with rfl | later
    · exact first
    · exact List.mem_takeWhile_imp later
  constructor
  · rintro rfl
    rw [quote] at among
    contradiction
  · rintro rfl
    rw [slash] at among
    contradiction

-- A token that is no tag, in front of some of what stands behind it, is scanned as it is taken for itself.
theorem strip_cut (start : Nat) (c : Char) (t more : Text) (paired : Text.pairedReturns t = true)
    (untagged : (cut c t).1 ≠ .tag) (left : more <+: (cut c t).2.2) :
    Region.strip .code ((cut c t).2.1 ++ more) =
      Token.withoutComment ⟨(cut c t).1, (cut c t).2.1, start⟩ ++ Region.strip .code more := by
  unfold cut at untagged left ⊢
  split
  · rename_i blank
    exact strip_run isBlank (by decide) (by decide) c t more blank
  · rename_i blank
    rw [if_neg blank] at untagged left
    split
    · rename_i slash
      subst slash
      rw [if_pos rfl] at untagged left
      cases found : afterComment? t with
      | none =>
        simp only [found] at left ⊢
        exact Region.strip_code_step '/' more (by decide) (comment_starts_of_none t more paired found left)
      | some rest =>
        simp only [found] at left ⊢
        exact strip_comment t rest more found left
    · rename_i slash
      rw [if_neg slash] at untagged left
      split
      · rename_i tag
        rw [if_pos tag] at untagged
        contradiction
      · rename_i tag
        rw [if_neg tag] at untagged left
        split
        · rename_i quote
          subst quote
          rw [if_pos rfl] at left
          exact strip_literal t more left
        · rename_i quote
          rw [if_neg quote] at left
          split
          · rename_i word
            exact strip_run isWordChar (by decide) (by decide) c t more word
          · exact Region.strip_code_step c more quote (by simp [Region.commentStarts, slash])

end Scan

theorem tokens_behind (start : Nat) (t : Text) (before tokens : List Token)
    (split : tokensFrom start t = before ++ tokens) :
    ∃ start' t', t' <:+ t ∧ tokens = tokensFrom start' t' := by
  induction before generalizing start t with
  | nil => exact ⟨start, t, List.suffix_refl t, split.symm⟩
  | cons token before ih =>
    cases t with
    | nil =>
      rw [tokensFrom] at split
      contradiction
    | cons c t =>
      rw [tokensFrom] at split
      obtain ⟨start', t', left, same⟩ := ih _ _ (List.cons.inj split).2
      refine ⟨start', t', left.trans ?_, same⟩
      exact ⟨(Scan.cut c t).2.1, Scan.cut_append c t⟩

-- Tokens that follow each other and among which no tag is.
theorem strip_stretch (start : Nat) (t : Text) (paired : Text.pairedReturns t = true) (stretch after : List Token)
    (split : tokensFrom start t = stretch ++ after) (untagged : ∀ token ∈ stretch, token.kind ≠ .tag) :
    stretch.flatMap Token.withoutComment = Region.strip .code (untokenize stretch) := by
  induction stretch generalizing start t with
  | nil => rfl
  | cons token stretch ih =>
    cases t with
    | nil =>
      rw [tokensFrom] at split
      contradiction
    | cons c t =>
      rw [tokensFrom, List.cons_append] at split
      obtain ⟨rfl, others⟩ := List.cons.inj split
      have whole := untokenize_tokens_from (start + (Scan.cut c t).2.1.byteSize) (Scan.cut c t).2.2
      rw [others, untokenize, List.flatMap_append] at whole
      have behind : (Scan.cut c t).2.2 <:+ c :: t := ⟨(Scan.cut c t).2.1, Scan.cut_append c t⟩
      have further := ih _ _ (Text.paired_returns_suffix _ _ behind paired) others
        fun other member => untagged other (List.mem_cons_of_mem _ member)
      have cut := Scan.strip_cut start c t (untokenize stretch)
        (Text.paired_returns_suffix _ _ (List.suffix_cons c t) paired) (untagged _ List.mem_cons_self)
        ⟨_, whole⟩
      rw [List.flatMap_cons, further]
      exact cut.symm

namespace Region

theorem strip_line_start (comment : Text) : (strip lineComment comment).head? ≠ some '/' := by
  induction comment with
  | nil => simp [strip_nil]
  | cons c comment ih =>
    rw [strip_in_line]
    split
    · rename_i ends
      rcases ends with rfl | rfl <;> simp
    · exact ih

-- Outside of literals nothing that the scan leaves reads as the start of a bracketed comment.
theorem strip_code_start (t rest : Text) :
    strip code t ≠ '/' :: '*' :: rest ∧ strip blockComment t ≠ '/' :: '*' :: rest := by
  induction t using List.twoStepInduction with
  | nil => simp [strip_nil]
  | singleton c => by_cases feed : c = '\n' <;> simp [strip_code_last, strip_block_last, feed]
  | cons_cons c d t ih further =>
    constructor
    · intro same
      rw [strip_code_pair] at same
      split at same
      · rename_i quote
        rw [quote] at same
        exact absurd (List.cons.inj same).1 (by decide)
      · split at same
        · exact strip_line_start t (by rw [same, List.head?_cons])
        · split at same
          · exact ih.2 same
          · rename_i slashes star
            obtain ⟨rfl, others⟩ := List.cons.inj same
            have apart : d ≠ '/' ∧ d ≠ '*' := by simpa using And.intro slashes star
            by_cases quote : d = '\''
            · rw [quote, strip_quote] at others
              exact absurd (List.cons.inj others).1 (by decide)
            · rw [strip_code_step d t quote (by simp [commentStarts, apart])] at others
              exact apart.2 (List.cons.inj others).1
    · intro same
      rw [strip_block_pair] at same
      split at same
      · exact ih.1 same
      · split at same
        · rename_i feed
          rw [feed] at same
          exact absurd (List.cons.inj same).1 (by decide)
        · exact (further d).2 same

-- A part in which a comment starts is not copied by the scan, whatever stands behind the copy.
theorem strip_interrupted (inLiteral : Bool) (part rest behind : Text)
    (interrupted : passage inLiteral part rest = none)
    (star : rest.head? = some '*' → behind.head? = some '*') :
    part ++ behind ≠ strip (if inLiteral then literal else code) (part ++ rest) := by
  fun_induction passage inLiteral part rest with
  | case1 => contradiction
  | case2 c part rest ih =>
    have further := ih interrupted star
    intro same
    rw [if_pos rfl, List.cons_append, List.cons_append, strip_in_literal, List.cons.injEq] at same
    by_cases quote : c = '\''
    · simp only [quote, if_true] at same
      exact further (by simpa [quote] using same.2)
    · simp only [quote, if_false] at same
      exact further (by simpa [quote] using same.2)
  | case3 part rest ih =>
    have further := ih interrupted star
    intro same
    rw [if_neg Bool.false_ne_true, List.cons_append, List.cons_append, strip_quote, List.cons.injEq] at same
    exact further (by rw [if_pos rfl]; exact same.2)
  | case4 c part rest _ starts =>
    intro same
    rw [if_neg Bool.false_ne_true, List.cons_append, List.cons_append] at same
    cases next : part ++ rest with
    | nil =>
      rw [next] at starts
      simp [commentStarts] at starts
    | cons d more =>
      simp only [next, commentStarts, List.head?_cons, Option.any_some, Bool.and_eq_true, Bool.or_eq_true,
        decide_eq_true_eq] at starts
      obtain ⟨rfl, rfl | rfl⟩ := starts
      · rw [next] at same
        exact strip_line_start more (by rw [← strip_slashes, ← same, List.head?_cons])
      · have second : (part ++ behind).head? = some '*' := by
          cases part with
          | nil => exact star (by rw [← List.nil_append rest, next, List.head?_cons])
          | cons e part => rw [List.cons_append, (List.cons.inj next).1, List.head?_cons]
        obtain ⟨tail, first⟩ := List.head?_eq_some_iff.mp second
        rw [next, first] at same
        exact (strip_code_start more tail).2 (by rw [← strip_slash_star, same])
  | case5 c part rest quote starts ih =>
    have further := ih interrupted star
    intro same
    rw [if_neg Bool.false_ne_true, List.cons_append, List.cons_append,
      strip_code_step c _ quote (by simpa using starts), List.cons.injEq] at same
    exact further (by rw [if_neg Bool.false_ne_true]; exact same.2)

end Region

namespace Token

-- A comment starts in a tag, outside of its literals.
def Commented (tag : Token) (after : List Token) : Prop :=
  Region.passage false tag.text (untokenize after) = none
deriving Decidable

-- A literal of a tag stays open in front of other tokens.
def LeftOpen (tag : Token) (after : List Token) : Prop :=
  Region.passage false tag.text (untokenize after) = some true ∧ after ≠ []
deriving Decidable

end Token

def EachTag (holds : Token → List Token → Prop) (tokens : List Token) : Prop :=
  ∀ before tag after, tokens = before ++ tag :: after → tag.kind = .tag → holds tag after

theorem each_tag_cons (holds : Token → List Token → Prop) (token : Token) (after : List Token) :
    EachTag holds (token :: after) ↔ (token.kind = .tag → holds token after) ∧ EachTag holds after := by
  constructor
  · intro each
    refine ⟨each [] token after rfl, ?_⟩
    intro before tag others split
    exact each (token :: before) tag others (by rw [split, List.cons_append])
  · rintro ⟨first, others⟩ before tag rest split
    cases before with
    | nil =>
      obtain ⟨rfl, rfl⟩ := List.cons.inj split
      exact first
    | cons other before => exact others before tag rest (List.cons.inj split).2

instance EachTag.decide (holds : Token → List Token → Prop) [∀ tag after, Decidable (holds tag after)] :
    (tokens : List Token) → Decidable (EachTag holds tokens)
  | [] => .isTrue fun before tag after split => by simp at split
  | token :: after =>
    have := EachTag.decide holds after
    decidable_of_iff _ (each_tag_cons holds token after).symm

theorem without_comments_star (start : Nat) (t : Text) (star : t.head? = some '*') :
    ((tokensFrom start t).flatMap Token.withoutComment).head? = some '*' := by
  obtain ⟨rest, rfl⟩ := List.head?_eq_some_iff.mp star
  have single : Scan.cut '*' rest = (.punct, ['*'], rest) := by
    rw [Scan.cut]
    rfl
  rw [tokensFrom, single, List.flatMap_cons]
  rfl

theorem strip_tokens (start : Nat) (t : Text) (paired : Text.pairedReturns t = true)
    (closed : EachTag (fun tag after => ¬ tag.LeftOpen after) (tokensFrom start t)) :
    (tokensFrom start t).flatMap Token.withoutComment = Region.strip .code t ↔
      EachTag (fun tag after => ¬ tag.Commented after) (tokensFrom start t) := by
  fun_induction tokensFrom start t with
  | case1 => simp [Region.strip_nil, EachTag]
  | case2 start c t cut ih =>
    have whole := untokenize_tokens_from (start + cut.2.1.byteSize) cut.2.2
    have behind : cut.2.2 <:+ c :: t := ⟨cut.2.1, Scan.cut_append c t⟩
    rw [each_tag_cons] at closed
    have further := ih (Text.paired_returns_suffix _ _ behind paired) closed.2
    rw [each_tag_cons, List.flatMap_cons, ← Scan.cut_append c t]
    by_cases tag : cut.1 = .tag
    · have kept : Token.withoutComment ⟨cut.1, cut.2.1, start⟩ = cut.2.1 := by
        rw [Token.withoutComment, tag]
        rfl
      rw [kept]
      cases passed : Region.passage false cut.2.1 cut.2.2 with
      | none =>
        have differs := Region.strip_interrupted false cut.2.1 cut.2.2 _ passed
          (without_comments_star (start + cut.2.1.byteSize) cut.2.2)
        have commented : ¬ (cut.1 = .tag → ¬ Token.Commented ⟨cut.1, cut.2.1, start⟩ _) :=
          fun free => free tag (by rw [Token.Commented, whole]; exact passed)
        exact ⟨fun same => absurd same differs, fun each => absurd each.1 commented⟩
      | some ends =>
        have crossed := Region.strip_passage false ends cut.2.1 _ passed
        have free : ¬ Token.Commented ⟨cut.1, cut.2.1, start⟩
            (tokensFrom (start + cut.2.1.byteSize) cut.2.2) := by
          rw [Token.Commented, whole]
          simp [passed]
        have left : Region.strip (if ends then .literal else .code) cut.2.2 = Region.strip .code cut.2.2 := by
          cases ends with
          | false => rfl
          | true =>
            have last := closed.1 tag
            rw [Token.LeftOpen, whole] at last
            have nothing : tokensFrom (start + cut.2.1.byteSize) cut.2.2 = [] := by
              by_contra more
              exact last ⟨passed, more⟩
            rw [← whole, nothing]
            rfl
        rw [if_neg Bool.false_ne_true, left] at crossed
        rw [crossed, List.append_cancel_left_eq, further]
        exact ⟨fun each => ⟨fun _ => free, each⟩, fun each => each.2⟩
    · have scanned := Scan.strip_cut start c t cut.2.2
        (Text.paired_returns_suffix _ _ (List.suffix_cons c t) paired) tag (List.prefix_refl _)
      rw [scanned, List.append_cancel_left_eq, further]
      exact ⟨fun each => ⟨fun kind => absurd kind tag, each⟩, fun each => each.2⟩

theorem comments_removed_between_tags (t : Text) (paired : t.pairedReturns = true) :
    (∀ before stretch after, tokenize t = before ++ stretch ++ after →
      (∀ token ∈ stretch, token.kind ≠ .tag) →
        stretch.flatMap Token.withoutComment = Region.strip .code (untokenize stretch)) ∧
      (∀ tag ∈ tokenize t, tag.kind = .tag → tag.withoutComment = tag.text) ∧
      (EachTag (fun tag after => ¬ tag.LeftOpen after) (tokenize t) →
        (withoutComments t = Region.strip .code t ↔
          EachTag (fun tag after => ¬ tag.Commented after) (tokenize t))) := by
  refine ⟨?_, ?_, strip_tokens 0 t paired⟩
  · intro before stretch after split untagged
    rw [tokenize, List.append_assoc] at split
    obtain ⟨start, rest, left, behind⟩ := tokens_behind 0 t before (stretch ++ after) split
    exact strip_stretch start rest (Text.paired_returns_suffix t rest left paired) stretch after behind.symm untagged
  · intro tag _ kind
    rw [Token.withoutComment, kind]
    rfl

def remarked : Text := "@(a: '//') // c\r\nentity A /* \n */ \x7b\x7d"

theorem remarked_without_comments :
    remarked.pairedReturns = true ∧ withoutComments remarked = Region.strip .code remarked ∧
      Region.strip .code remarked = "@(a: '//') \r\nentity A \n \x7b\x7d" := by
  have paired : remarked.pairedReturns = true := by decide
  have closed : EachTag (fun tag after => ¬ tag.LeftOpen after) (tokenize remarked) := by decide +kernel
  have free : EachTag (fun tag after => ¬ tag.Commented after) (tokenize remarked) := by decide +kernel
  exact ⟨paired, ((comments_removed_between_tags remarked paired).2.2 closed).mpr free, by decide⟩

-- A comment in a group, the quote in which takes the rest of the text for the tokens.
def remarkedTitle : Text := "@(title /* don't */: 'x')\nentity A\x7b\x7d"

theorem tag_comment_stays : ¬ ∀ t : Text, t.pairedReturns = true → withoutComments t = Region.strip .code t := by
  intro always
  have same := always remarkedTitle (by decide)
  have differs : withoutComments remarkedTitle ≠ Region.strip .code remarkedTitle := by decide +kernel
  exact differs same

example : fragments remarkedTitle = [] ∧
    fragments (Region.strip .code remarkedTitle) = [⟨.entity, ['A'], "entity A\x7b\x7d"⟩] := by
  decide +kernel

end SchemaDiagram
