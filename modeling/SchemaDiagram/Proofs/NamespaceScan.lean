import SchemaDiagram.Proofs.Cuts
import SchemaDiagram.Proofs.Headers
import SchemaDiagram.Proofs.LineEnds.Declaration
import SchemaDiagram.Proofs.Words

/-!
The namespace of a file as its tokens tell it. The lines that a namespace is looked for on begin at white space and
inside literals, annotations and comments, so that the search can be made on tokens, and be compared with the search for
the clauses of a file.
-/

set_option autoImplicit false

namespace SchemaDiagram

open Scan Text

namespace Namespace

def isNameChar (c : Char) : Bool := isWordUnit c || c = '.'

-- The name that a line goes on with behind its keyword.
def ofRest? (rest : Text) : Option Text :=
  let name := (rest.dropWhile isGap).takeWhile isNameChar
  if rest.head?.any isGap && !name.isEmpty then some name else none

theorem of_line_eq (line : Text) : ofLine? line = (Text.after? "namespace" (line.dropWhile isGap)).bind ofRest? := by
  rw [ofLine?]
  cases Text.after? "namespace" (line.dropWhile isGap) with
  | none => rfl
  | some rest => rfl

theorem of_rest_solid (rest : Text) (solid : rest.head?.any isGap = false) : ofRest? rest = none := by
  rw [ofRest?, solid, Bool.false_and, if_neg Bool.false_ne_true]

theorem of_line_gap (c : Char) (t : Text) (gap : isGap c = true) : ofLine? (c :: t) = ofLine? t := by
  rw [of_line_eq, of_line_eq, List.dropWhile_cons_of_pos gap]

-- A line that begins with neither a gap nor the keyword's first letter.
theorem of_line_other (c : Char) (t : Text) (solid : isGap c = false) (other : c ≠ 'n') : ofLine? (c :: t) = none := by
  rw [of_line_eq, List.dropWhile_cons_of_neg (by simp [solid])]
  have unread : Text.after? "namespace" (c :: t) = none := if_neg (Ne.symm other)
  rw [unread]
  rfl

-- What stands from each line break of a text on, when `behind` stands behind it.
def linesWithin (behind : Text) : Text → List Text
  | [] => []
  | c :: rest => if c = '\n' then (rest ++ behind) :: linesWithin behind rest else linesWithin behind rest

theorem lines_within_append (behind a b : Text) :
    linesWithin behind (a ++ b) = linesWithin (b ++ behind) a ++ linesWithin behind b := by
  induction a with
  | nil => rfl
  | cons c a ih =>
    rw [List.cons_append, linesWithin, linesWithin, ih, List.append_assoc]
    split <;> rfl

theorem lines_within_unbroken (behind t : Text) (unbroken : '\n' ∉ t) : linesWithin behind t = [] := by
  induction t with
  | nil => rfl
  | cons c t ih =>
    obtain ⟨apart, others⟩ : '\n' ≠ c ∧ '\n' ∉ t := by simpa using unbroken
    rw [linesWithin, if_neg (Ne.symm apart), ih others]

theorem lines_read (t : Text) : ∃ first others, t.lines = first :: others ∧
    (∀ front, ofLine? (front ++ t) = ofLine? (front ++ first)) ∧
    others.findSome? ofLine? = (linesWithin [] t).findSome? ofLine? := by
  induction t with
  | nil => exact ⟨[], [], rfl, fun _ => rfl, rfl⟩
  | cons c t ih =>
    obtain ⟨first, others, split, head, tail⟩ := ih
    by_cases lineBreak : c = '\n'
    · subst lineBreak
      refine ⟨[], lines t, by simp [lines, fields], fun front => ?_, ?_⟩
      · rw [of_line_stopped '\n' (by decide) (by decide) (by decide), List.append_nil]
      · have whole : ofLine? t = ofLine? first := head []
        rw [linesWithin, if_pos rfl, split, List.findSome?_cons, List.findSome?_cons, List.append_nil, whole, tail]
    · refine ⟨c :: first, others, ?_, fun front => ?_, ?_⟩
      · change fields (· = '\n') t = first :: others at split
        simp [lines, fields, lineBreak, split]
      · have further := head (front ++ [c])
        rwa [List.append_assoc, List.append_assoc] at further
      · rw [linesWithin, if_neg lineBreak, tail]

theorem of_source_eq (source : Text) : ofSource? source =
    (ofLine? (withoutComments source)).or ((linesWithin [] (withoutComments source)).findSome? ofLine?) := by
  obtain ⟨first, others, split, head, tail⟩ := lines_read (withoutComments source)
  have whole : ofLine? (withoutComments source) = ofLine? first := head []
  rw [ofSource?, split, List.findSome?_cons, tail, whole]
  cases ofLine? first <;> rfl

-- Whether only blanks and tabs stand on the line of whatever follows a text, when `fresh` says so of the text itself.
def freshBehind (fresh : Bool) (t : Text) : Bool := t.foldl (fun fresh c => c = '\n' || (fresh && isGap c)) fresh

def freshAfter (fresh : Bool) (token : Token) : Bool := token.isSpace && freshBehind fresh token.text

-- The name that is read at the keyword, where it comes first on its line, or on a line that begins inside of a literal,
-- an annotation or a comment.
def nameAt? (fresh : Bool) (token : Token) (behind : Text) : Option Text :=
  match token.kind with
  | .space => none
  | .word => if fresh ∧ token.text = "namespace" then ofRest? behind else none
  | _ => (linesWithin behind token.text).findSome? ofLine?

def scan? (fresh : Bool) : List Token → Option Text
  | [] => none
  | token :: rest => (nameAt? fresh token (untokenize rest)).or (scan? (freshAfter fresh token) rest)

theorem blanks_read (fresh : Bool) (blanks behind : Text) (each : ∀ c ∈ blanks, isBlank c = true) :
    (if fresh then ofLine? (blanks ++ behind) else none).or ((linesWithin behind blanks).findSome? ofLine?) =
      if freshBehind fresh blanks then ofLine? behind else none := by
  induction blanks generalizing fresh with
  | nil => exact Option.or_none
  | cons c blanks ih =>
    obtain ⟨blank, others⟩ := List.forall_mem_cons.mp each
    have further := fun fresh => ih fresh others
    change _ = if freshBehind (c = '\n' || (fresh && isGap c)) blanks then ofLine? behind else none
    rw [← further, List.cons_append, linesWithin]
    by_cases lineBreak : c = '\n'
    · subst lineBreak
      rw [of_line_other '\n' _ (by decide) (by decide), if_pos rfl, List.findSome?_cons]
      cases ofLine? (blanks ++ behind) <;> simp
    · rw [if_neg lineBreak]
      by_cases gap : isGap c = true
      · rw [of_line_gap c _ gap]
        simp [lineBreak, gap]
      · rw [of_line_other c _ (by simpa using gap) (by rintro rfl; contradiction)]
        simp [lineBreak, gap]

theorem gap_blank (c : Char) (gap : isGap c = true) : Scan.isBlank c = true := by
  rw [isGap, Bool.or_eq_true, decide_eq_true_eq, decide_eq_true_eq] at gap
  rcases gap with rfl | rfl <;> rfl

theorem blank_unnamed (c : Char) (blank : Scan.isBlank c = true) : isNameChar c = false := by
  simp only [Scan.isBlank, Bool.or_eq_true, decide_eq_true_eq] at blank
  rcases blank with ((rfl | rfl) | rfl) | rfl <;> decide

theorem solid_no_gap (c : Char) (solid : Scan.isBlank c = false) : isGap c = false := by
  simp only [Scan.isBlank, Bool.or_eq_false_iff] at solid
  simp [isGap, solid]

theorem of_rest_letter (c : Char) (t : Text) (letter : isWordChar c = true) : ofRest? (c :: t) = none :=
  of_rest_solid _ (solid_no_gap c (word_char_apart c letter).1)

theorem keyword_letters : ∀ c ∈ "namespace".toList, isWordChar c = true := List.all_eq_true.mp (by decide)

-- A line reads a word as the keyword where it is the keyword.
theorem word_read (word behind : Text) (filled : word ≠ []) (letters : ∀ c ∈ word, isWordChar c = true)
    (stops : behind.head?.any isWordChar = false) :
    ofLine? (word ++ behind) = if word = "namespace" then ofRest? behind else none := by
  obtain ⟨c, more, rfl⟩ := List.exists_cons_of_ne_nil filled
  have solid := solid_no_gap c (word_char_apart c (letters c List.mem_cons_self)).1
  rw [of_line_eq, List.cons_append, List.dropWhile_cons_of_neg (by simp [solid]), ← List.cons_append]
  generalize c :: more = word at letters
  split
  · rename_i same
    rw [(Text.after_eq_some_iff _ _ behind).mpr (by rw [same])]
    rfl
  · rename_i other
    cases read : Text.after? "namespace" (word ++ behind) with
    | none => rfl
    | some rest =>
      have split := (Text.after_eq_some_iff _ _ rest).mp read
      rcases List.append_eq_append_iff.mp split with ⟨left, keyword, whole⟩ | ⟨left, whole, same⟩
      · cases left with
        | nil => exact absurd (by simpa using keyword.symm) other
        | cons d left =>
          have letter := keyword_letters d (by rw [keyword]; simp)
          rw [whole, List.cons_append, List.head?_cons, Option.any_some, letter] at stops
          contradiction
      · cases left with
        | nil => exact absurd (by simpa using whole) other
        | cons d left =>
          rw [same]
          exact of_rest_letter d _ (letters d (by rw [whole]; simp))

theorem cut_letters (c : Char) (front rest : Text) (cut : Cut c (front ++ rest) .word rest) :
    ∀ d ∈ c :: front, isWordChar d = true := by
  have read := cut.cut_eq
  rw [lexeme_of_split _ front rest rfl] at read
  have letters := cut_word_chars c (front ++ rest) (by rw [read])
  rwa [read] at letters

theorem cut_first (c : Char) (t rest : Text) (kind : TokenKind) (cut : Cut c t kind rest) (solid : kind ≠ .space)
    (other : kind ≠ .word) : isGap c = false ∧ c ≠ 'n' := by
  cases cut with
  | blank => contradiction
  | comment => decide
  | slash => decide
  | tag => decide
  | literal => decide
  | word => contradiction
  | plain _ _ plain =>
    constructor
    · simp only [isPlain, Bool.and_eq_true, Bool.not_eq_true'] at plain
      exact solid_no_gap c plain.1.1.1.1
    · rintro rfl
      contradiction

theorem name_at_word (fresh : Bool) (word behind : Text) (start : Nat) :
    nameAt? fresh ⟨.word, word, start⟩ behind =
      if fresh then if word = "namespace" then ofRest? behind else none else none := by
  change (if fresh = true ∧ word = "namespace".toList then ofRest? behind else none) = _
  by_cases keyword : word = "namespace".toList
  · rw [if_pos keyword]
    exact if_congr (and_iff_left keyword) rfl rfl
  · rw [if_neg keyword, if_neg fun both => keyword both.2, ite_self]

theorem scan_read (fresh : Bool) (start : Nat) (t : Text) :
    (if fresh then ofLine? t else none).or ((linesWithin [] t).findSome? ofLine?) =
      scan? fresh (tokensFrom start t) := by
  induction t using text_induction generalizing fresh start with
  | nil =>
    rw [tokensFrom]
    cases fresh <;> rfl
  | token c front rest kind cut ih =>
    rw [tokens_of_cut start c front rest kind cut, scan?, untokenize_tokens_from, ← ih, ← List.cons_append,
      lines_within_append, List.findSome?_append, List.append_nil, ← Option.or_assoc, ← Option.or_assoc]
    congr 1
    by_cases space : kind = .space
    · subst space
      have blanks := cut.blanks
      rw [lexeme_of_split _ front rest rfl] at blanks
      exact blanks_read fresh (c :: front) rest blanks
    · have stale : freshAfter fresh ⟨kind, c :: front, start⟩ = false := by simp [freshAfter, Token.isSpace, space]
      rw [stale, if_neg Bool.false_ne_true, Option.or_none]
      by_cases word : kind = .word
      · subst word
        have letters := cut_letters c front rest cut
        have unbroken : '\n' ∉ c :: front := fun inside => absurd (letters '\n' inside) (by decide)
        rw [word_read _ rest (by simp) letters (cut.apart start), lines_within_unbroken rest _ unbroken]
        rw [List.findSome?_nil, Option.or_none, name_at_word]
      · obtain ⟨solid, other⟩ := cut_first c _ rest kind cut space word
        rw [List.cons_append, of_line_other c _ solid other]
        unfold nameAt?
        cases kind <;> simp_all

/-! The clauses of a file: the word `namespace` where a clause may start, white space, and a name. -/

def nameBehind? : List Token → Option Text
  | gap :: name :: _ => if gap.isSpace && name.kind = .word then some name.text else none
  | _ => none

def clauseAt? (boundary : Bool) (token : Token) (rest : List Token) : Option Text :=
  if boundary && token.isWord "namespace" then nameBehind? rest else none

def clause? (boundary : Bool) : List Token → Option Text
  | [] => none
  | token :: rest => (clauseAt? boundary token rest).or (clause? (token.clauseAfter boundary) rest)

-- Whether a clause begins at the keyword, or what a line takes for one.
def startsClause (boundary : Bool) (keyword : Token) : List Token → Bool
  | gap :: name :: _ =>
    boundary && keyword.isWord "namespace" && gap.isSpace &&
      (name.kind = .word || name.text.head?.any isNameChar)
  | _ => false

-- Whether a line shows a clause as it is: the keyword in small letters and first on its line, and the name on the same
-- line and of letters that names on lines are made of.
def showsClause (fresh : Bool) (keyword : Token) : List Token → Bool
  | gap :: name :: after =>
    fresh && keyword.text = "namespace" && gap.text.all isGap && name.kind = .word && name.text.all isNameChar &&
      !(untokenize after).head?.any isNameChar
  | _ => false

-- Whether no line that begins inside of a token, a literal, an annotation or a comment, tells a namespace.
def isSilent (token : Token) (rest : List Token) : Bool :=
  token.kind = .space || token.kind = .word || ((linesWithin (untokenize rest) token.text).findSome? ofLine?).isNone

-- Whether the first clause is shown as it is, and nothing is told in front of it.
def firstShown (fresh boundary : Bool) : List Token → Bool
  | [] => true
  | token :: rest =>
    if startsClause boundary token rest then showsClause fresh token rest
    else isSilent token rest && firstShown (freshAfter fresh token) (token.clauseAfter boundary) rest

theorem of_rest_plain (gap name behind : Text) (filled : gap ≠ []) (level : gap.all isGap = true) (named : name ≠ [])
    (letters : name.all isNameChar = true) (solid : name.head?.any isGap = false)
    (ended : behind.head?.any isNameChar = false) : ofRest? (gap ++ (name ++ behind)) = some name := by
  have level := List.all_eq_true.mp level
  have letters := List.all_eq_true.mp letters
  obtain ⟨c, gap, rfl⟩ := List.exists_cons_of_ne_nil filled
  obtain ⟨d, name, rfl⟩ := List.exists_cons_of_ne_nil named
  have passed : (c :: gap ++ (d :: name ++ behind)).dropWhile isGap = d :: name ++ behind := by
    rw [List.dropWhile_append_of_pos level, List.cons_append, List.dropWhile_cons_of_neg (by simpa using solid)]
  have taken : (d :: name ++ behind).takeWhile isNameChar = d :: name := by
    rw [List.takeWhile_append_of_pos letters]
    cases behind with
    | nil => rw [List.takeWhile_nil, List.append_nil]
    | cons e behind => rw [List.takeWhile_cons_of_neg (by simpa using ended), List.append_nil]
  rw [ofRest?, passed, taken]
  exact if_pos (by simp [level c List.mem_cons_self])

theorem of_rest_named (t : Text) (read : (ofRest? t).isSome = true) :
    (t.dropWhile isGap).head?.any isNameChar = true := by
  cases left : t.dropWhile isGap with
  | nil => simp [ofRest?, left] at read
  | cons d more =>
    by_contra unnamed
    have nothing : (d :: more).takeWhile isNameChar = [] := List.takeWhile_cons_of_neg (by simpa using unnamed)
    simp [ofRest?, left, nothing] at read

-- What is read behind the keyword begins with a gap on the same line and a letter of a name.
theorem of_rest_tokens (start : Nat) (t : Text) (read : (ofRest? t).isSome = true) :
    ∃ gap next after, tokensFrom start t = gap :: next :: after ∧ gap.isSpace = true ∧ gap.text.all isGap = true ∧
      next.text.head?.any isNameChar = true := by
  cases t using text_induction with
  | nil => contradiction
  | token c front rest kind cut =>
    have opened : isGap c = true := by
      by_contra solid
      rw [of_rest_solid _ (by simpa using solid)] at read
      contradiction
    have blank := gap_blank c opened
    obtain ⟨rfl, behind⟩ := cut.unique (.blank c _ blank)
    have blanks := cut.blanks
    rw [lexeme_of_split _ front rest rfl] at blanks
    have stops : rest.head?.any Scan.isBlank = false := cut.apart start
    rw [← List.cons_append] at read
    have named := of_rest_named _ read
    have level : (c :: front).all isGap = true := by
      rw [List.all_eq_true, ← List.dropWhile_eq_nil_iff]
      by_contra uneven
      obtain ⟨d, more, left⟩ := List.exists_cons_of_ne_nil uneven
      have unnamed := blank_unnamed d (blanks d ((List.dropWhile_suffix _).subset (by rw [left]; simp)))
      rw [List.dropWhile_append, left] at named
      simp [unnamed] at named
    rw [List.dropWhile_append_of_pos (List.all_eq_true.mp level)] at named
    cases rest using text_induction with
    | nil => contradiction
    | token d inner others kind further =>
      have solid := solid_no_gap d (by simpa using stops)
      rw [List.dropWhile_cons_of_neg (by simp [solid])] at named
      have tokens := tokens_of_cut start c front _ .space cut
      rw [tokens_of_cut _ d inner others kind further] at tokens
      exact ⟨_, _, _, tokens, rfl, level, by simpa using named⟩

theorem fresh_within (fresh : Bool) (t : Text) (stays : freshBehind fresh t = true) : fresh = true ∨ '\n' ∈ t := by
  induction t generalizing fresh with
  | nil => exact .inl stays
  | cons c t ih =>
    rcases ih _ stays with first | inside
    · rw [Bool.or_eq_true, decide_eq_true_eq, Bool.and_eq_true] at first
      rcases first with rfl | stays
      · exact .inr List.mem_cons_self
      · exact .inl stays.1
    · exact .inr (List.mem_cons_of_mem c inside)

-- A clause may start where a line does.
theorem fresh_boundary (fresh boundary : Bool) (token : Token) (starts : fresh = true → boundary = true)
    (first : freshAfter fresh token = true) : token.clauseAfter boundary = true := by
  rw [freshAfter, Bool.and_eq_true] at first
  have space : token.kind = .space := of_decide_eq_true first.1
  rw [Token.clauseAfter, space]
  rcases fresh_within fresh token.text first.2 with fresh | lineBreak
  · simp [starts fresh]
  · simp [Token.isLineBreak, space, lineBreak]

theorem name_behind_tokens (tokens : List Token) (read : (nameBehind? tokens).isSome = true) :
    ∃ gap name after, tokens = gap :: name :: after ∧ gap.isSpace = true ∧ name.kind = .word := by
  match tokens with
  | [] => contradiction
  | [_] => contradiction
  | gap :: name :: after =>
    rw [nameBehind?] at read
    split at read
    · rename_i shown
      rw [Bool.and_eq_true, decide_eq_true_eq] at shown
      exact ⟨gap, name, after, rfl, shown⟩
    · contradiction

theorem shown_read (fresh : Bool) (keyword gap name : Token) (after : List Token) (start : Nat) (t : Text)
    (tokens : tokensFrom start t = gap :: name :: after) (shown : showsClause fresh keyword (gap :: name :: after) = true) :
    fresh = true ∧ keyword.text = "namespace" ∧ name.kind = .word ∧ ofRest? t = some name.text := by
  simp only [showsClause, Bool.and_eq_true, decide_eq_true_eq, Bool.not_eq_true'] at shown
  obtain ⟨⟨⟨⟨⟨first, small⟩, level⟩, word⟩, letters⟩, ended⟩ := shown
  have filled (token : Token) (member : token ∈ tokensFrom start t) : token.text ≠ [] := by
    obtain ⟨c, front, rest, text, _⟩ := cut_of_token start t token member
    rw [text]
    exact List.cons_ne_nil c front
  have units := word_chars_from start t name (by rw [tokens]; simp) word
  have named := filled name (by rw [tokens]; simp)
  have solid : name.text.head?.any isGap = false := by
    obtain ⟨c, more, text⟩ := List.exists_cons_of_ne_nil named
    rw [text] at units ⊢
    exact solid_no_gap c (word_char_apart c (units c List.mem_cons_self)).1
  refine ⟨first, small, word, ?_⟩
  rw [← untokenize_tokens_from start t, tokens]
  exact of_rest_plain gap.text name.text _ (filled gap (by rw [tokens]; simp)) level named letters solid ended

-- What is read behind a keyword that no clause begins at.
theorem no_clause_read (start : Nat) (t : Text) (token : Token) (clause : token.isWord "namespace" = true)
    (unstarted : startsClause true token (tokensFrom start t) = false) :
    ofRest? t = none ∧ nameBehind? (tokensFrom start t) = none := by
  constructor
  · by_contra read
    obtain ⟨gap, next, after, tokens, space, _, letter⟩ := of_rest_tokens start t (Option.isSome_iff_ne_none.mpr read)
    rw [tokens, startsClause, clause, space, letter, Bool.or_true] at unstarted
    contradiction
  · by_contra read
    obtain ⟨gap, name, after, tokens, space, word⟩ := name_behind_tokens _ (Option.isSome_iff_ne_none.mpr read)
    rw [tokens, startsClause, clause, space, word] at unstarted
    contradiction

theorem started_tokens (boundary : Bool) (keyword : Token) (rest : List Token)
    (started : startsClause boundary keyword rest = true) :
    ∃ gap name after, rest = gap :: name :: after ∧ boundary = true ∧ keyword.isWord "namespace" = true ∧
      gap.isSpace = true := by
  match rest with
  | [] => contradiction
  | [_] => contradiction
  | gap :: name :: after =>
    simp only [startsClause, Bool.and_eq_true] at started
    exact ⟨gap, name, after, rfl, started.1.1.1, started.1.1.2, started.1.2⟩

-- A clause that a line shows as it is ends both searches with its name.
theorem shown_clause (fresh boundary : Bool) (start : Nat) (t : Text) (token : Token) (word : token.kind = .word)
    (started : startsClause boundary token (tokensFrom start t) = true)
    (shown : showsClause fresh token (tokensFrom start t) = true) :
    ∃ name, nameAt? fresh token t = some name ∧ clauseAt? boundary token (tokensFrom start t) = some name := by
  obtain ⟨gap, name, after, tokens, first, keyword, space⟩ := started_tokens boundary token _ started
  rw [tokens] at shown
  obtain ⟨fresh, small, named, read⟩ := shown_read fresh token gap name after start t tokens shown
  refine ⟨name.text, ?_, ?_⟩
  · obtain ⟨_, text, place⟩ := token
    obtain rfl : _ = TokenKind.word := word
    rw [name_at_word, fresh, if_pos rfl, if_pos small, read]
  · rw [clauseAt?, first, keyword, tokens, nameBehind?, space, named]
    rfl

-- Where no clause begins, neither search is at its end.
theorem unstarted_clause (fresh boundary : Bool) (start : Nat) (t : Text) (token : Token)
    (starts : fresh = true → boundary = true) (silent : isSilent token (tokensFrom start t) = true)
    (unstarted : startsClause boundary token (tokensFrom start t) = false) :
    nameAt? fresh token t = none ∧ clauseAt? boundary token (tokensFrom start t) = none := by
  by_cases word : token.kind = .word
  · obtain ⟨_, text, place⟩ := token
    obtain rfl : _ = TokenKind.word := word
    rw [name_at_word]
    by_cases clause : (boundary && Token.isWord "namespace" ⟨.word, text, place⟩) = true
    · have same : clauseAt? boundary ⟨.word, text, place⟩ (tokensFrom start t) = nameBehind? (tokensFrom start t) :=
        if_pos clause
      obtain ⟨rfl, keyword⟩ := Bool.and_eq_true_iff.mp clause
      obtain ⟨unread, unnamed⟩ := no_clause_read start t _ keyword unstarted
      rw [same, unread, ite_self, ite_self]
      exact ⟨rfl, unnamed⟩
    · refine ⟨?_, if_neg clause⟩
      by_cases first : fresh = true
      · rw [if_pos first, if_neg]
        rintro rfl
        rw [starts first] at clause
        exact clause rfl
      · exact if_neg first
  · have nothing : clauseAt? boundary token (tokensFrom start t) = none := by
      rw [clauseAt?, if_neg]
      simp only [Token.isWord, word, decide_false, Bool.false_and, Bool.and_false, Bool.false_eq_true, not_false_eq_true]
    refine ⟨?_, nothing⟩
    by_cases space : token.kind = .space
    · simp [nameAt?, space]
    · have within : (linesWithin t token.text).findSome? ofLine? = none := by
        rw [isSilent, untokenize_tokens_from] at silent
        simpa [space, word] using silent
      unfold nameAt?
      cases kind : token.kind with
      | space => contradiction
      | word => contradiction
      | comment => exact within
      | tag => exact within
      | literal => exact within
      | punct => exact within

theorem scan_eq_clause (fresh boundary : Bool) (start : Nat) (t : Text) (starts : fresh = true → boundary = true)
    (shown : firstShown fresh boundary (tokensFrom start t) = true) :
    scan? fresh (tokensFrom start t) = clause? boundary (tokensFrom start t) := by
  induction t using text_induction generalizing fresh boundary start with
  | nil => rw [tokensFrom, scan?, clause?]
  | token c front rest kind cut ih =>
    rw [tokens_of_cut start c front rest kind cut] at shown ⊢
    rw [firstShown] at shown
    rw [scan?, clause?, untokenize_tokens_from]
    cases started : startsClause boundary ⟨kind, c :: front, start⟩ (tokensFrom (start + byteSize (c :: front)) rest) with
    | true =>
      rw [started, if_pos rfl] at shown
      obtain ⟨_, _, _, _, _, keyword, _⟩ := started_tokens boundary _ _ started
      have word : kind = .word := of_decide_eq_true (Bool.and_eq_true_iff.mp keyword).1
      obtain ⟨name, told, clause⟩ := shown_clause fresh boundary _ rest _ word started shown
      rw [told, clause, Option.some_or, Option.some_or]
    | false =>
      rw [started, if_neg Bool.false_ne_true, Bool.and_eq_true] at shown
      obtain ⟨untold, none⟩ := unstarted_clause fresh boundary _ rest _ starts shown.1 started
      rw [untold, none, Option.none_or, Option.none_or]
      exact ih _ _ _ (fresh_boundary fresh boundary _ starts) shown.2

-- An annotation over two lines, a remark, and a second clause that is not read.
def shopNamespace : Text := "@title:\n 'a;b' // shop\n\tnamespace \tmy.shop;NAMESPACE other;\nentity A \x7b\x7d"

end Namespace

end SchemaDiagram
