import Mathlib.Data.List.SplitBy
import SchemaDiagram.Proofs.Casing
import SchemaDiagram.Proofs.Cuts

/-!
The search for the start of a query or for an enumeration. It reads a text by its words and single characters, so that
each token of the text is passed over by itself, as long as no word goes on from one token to the next.
-/

set_option autoImplicit false

namespace SchemaDiagram

namespace Text

-- The words of a text, and each other character by itself.
def pieces (t : Text) : List Text := t.splitBy fun a b => isWordUnit a && isWordUnit b

-- Whether no word goes on from the one text to the other.
def apart (a b : Text) : Bool := !(a.getLast?.any isWordUnit && b.head?.any isWordUnit)

def AllUnits (word : Text) : Prop := ∀ c ∈ word, isWordUnit c = true

instance (word : Text) : Decidable word.AllUnits := decidable_of_iff (word.all isWordUnit = true) List.all_eq_true

theorem pieces_append (a b : Text) (apart : apart a b = true) : pieces (a ++ b) = pieces a ++ pieces b := by
  apply List.splitBy_append
  intro last ends first starts
  rw [Text.apart, Option.mem_def.mp ends, Option.mem_def.mp starts] at apart
  exact Bool.not_eq_eq_eq_not.mp apart

theorem pieces_other (c : Char) (t : Text) (other : isWordUnit c = false) : pieces (c :: t) = [c] :: pieces t :=
  pieces_append [c] t (by simp [apart, other])

theorem pieces_word (word rest : Text) (filled : word ≠ []) (units : AllUnits word)
    (stops : rest.head?.any isWordUnit = false) : pieces (word ++ rest) = word :: pieces rest := by
  have whole : pieces word = [word] := by
    apply List.splitBy_of_isChain filled
    apply List.Pairwise.isChain
    apply List.pairwise_of_forall_mem_list
    intro a left b right
    simp [units a left, units b right]
  rw [pieces_append word rest (by simp [apart, stops]), whole]
  rfl

theorem piece_induction {motive : Text → Prop} (nil : motive [])
    (word : ∀ word rest, word ≠ [] → AllUnits word → rest.head?.any isWordUnit = false → motive rest →
      motive (word ++ rest))
    (other : ∀ c rest, isWordUnit c = false → motive rest → motive (c :: rest)) (t : Text) : motive t := by
  induction length : t.length using Nat.strong_induction_on generalizing t with
  | _ n ih =>
    subst length
    cases t with
    | nil => exact nil
    | cons c t =>
      cases unit : isWordUnit c with
      | false => exact other c t unit (ih _ (Nat.lt_succ_self _) t rfl)
      | true =>
        have whole := List.takeWhile_append_dropWhile (p := isWordUnit) (l := c :: t)
        have shorter : ((c :: t).dropWhile isWordUnit).length < (c :: t).length := by
          rw [List.dropWhile_cons_of_pos unit]
          exact Nat.lt_succ_of_le (List.dropWhile_suffix _).length_le
        rw [← whole]
        apply word _ _ (by simp [unit])
        · intro d member
          exact List.mem_takeWhile_imp member
        · have first := List.head?_dropWhile_not isWordUnit (c :: t)
          cases left : (c :: t).dropWhile isWordUnit with
          | nil => rfl
          | cons d rest => simpa [left] using first
        · exact ih _ shorter _ rfl

/-! A search at the starts of words. -/

section

variable (test : Text → Bool) (wordy : ∀ c t, isWordUnit c = false → test (c :: t) = false)

include wordy

theorem any_word_start_other (c : Char) (rest : Text) (other : isWordUnit c = false) :
    anyWordStart test false (c :: rest) = anyWordStart test false rest := by
  rw [anyWordStart, wordy c rest other, other, Bool.and_false, Bool.false_or]

theorem any_word_start_inside (word rest : Text) (units : AllUnits word) (stops : rest.head?.any isWordUnit = false) :
    anyWordStart test true (word ++ rest) = anyWordStart test false rest := by
  induction word with
  | nil =>
    cases rest with
    | nil => rfl
    | cons c rest => rw [List.nil_append, anyWordStart, anyWordStart, wordy c rest (by simpa using stops)]; rfl
  | cons c word ih =>
    rw [List.cons_append, anyWordStart, units c List.mem_cons_self]
    exact ih fun d member => units d (List.mem_cons_of_mem c member)

theorem any_word_start_word (word rest : Text) (filled : word ≠ []) (units : AllUnits word)
    (stops : rest.head?.any isWordUnit = false) :
    anyWordStart test false (word ++ rest) = (test (word ++ rest) || anyWordStart test false rest) := by
  obtain ⟨c, word, rfl⟩ := List.exists_cons_of_ne_nil filled
  rw [List.cons_append, anyWordStart, units c List.mem_cons_self,
    any_word_start_inside test wordy word rest (fun d member => units d (List.mem_cons_of_mem c member)) stops]
  rfl

end

-- Letters are read off inside of a word, or not at all.
theorem after_word_front (lead word rest : Text) (letters : AllUnits lead)
    (stops : rest.head?.any isWordUnit = false) : after? lead (word ++ rest) = (after? lead word).map (· ++ rest) := by
  induction lead generalizing word with
  | nil => rfl
  | cons p lead ih =>
    cases word with
    | nil =>
      cases rest with
      | nil => rfl
      | cons c rest =>
        exact if_neg (unit_apart c p stops (letters p List.mem_cons_self))
    | cons c word =>
      rw [List.cons_append, after?, after?]
      split
      · exact ih word fun d member => letters d (List.mem_cons_of_mem p member)
      · rfl

theorem ends_word_eq (t : Text) : endsWord t = !t.head?.any isWordUnit := by cases t <;> rfl

theorem after_word_iff (sought word rest : Text) (letters : AllUnits sought) (units : AllUnits word)
    (stops : rest.head?.any isWordUnit = false) : (afterWord? sought (word ++ rest)).isSome = true ↔ word = sought := by
  rw [afterWord?, after_word_front sought word rest letters stops]
  cases found : after? sought word with
  | none =>
    refine iff_of_false Bool.false_ne_true ?_
    rintro rfl
    have whole := (after_eq_some_iff word word []).mpr (List.append_nil word).symm
    rw [found] at whole
    contradiction
  | some more =>
    rw [after_eq_some_iff] at found
    subst found
    rw [List.append_right_eq_self]
    cases more with
    | nil =>
      exact iff_of_true (by simp [Option.filter, ends_word_eq, stops]) rfl
    | cons c more =>
      have unit := units c (by simp)
      simp [Option.filter, endsWord, unit]

end Text

theorem Fragment.apart_fold (a b : Text) : Text.apart (a.map foldCase) (b.map foldCase) = a.apart b := by
  have any (o : Option Char) : (o.map foldCase).any isWordUnit = o.any isWordUnit := by
    cases o with
    | none => rfl
    | some c => exact word_unit_fold c
  rw [Text.apart, List.getLast?_map, List.head?_map, any, any, Text.apart]

-- What a word or another character is to the search for a query.
inductive Sign where
  | whole
  | join
  | query
  | bracket
  | gap
  | other
deriving DecidableEq

def Sign.ofPiece (piece : Text) : Sign :=
  if piece = "enum" ∨ piece = "asprojection" ∨ piece = "asselect" then whole
  else if piece = "as" then join
  else if piece = "projection" ∨ piece = "select" then query
  else if piece = "(" then bracket
  else if piece.all isWhite then gap
  else other

namespace Sign

variable (piece : Text)

theorem whole_iff : ofPiece piece = whole ↔ piece = "enum" ∨ piece = "asprojection" ∨ piece = "asselect" := by
  constructor
  · intro sign
    unfold ofPiece at sign
    split at sign
    · assumption
    · repeat' split at sign
      all_goals contradiction
  · rintro (rfl | rfl | rfl) <;> decide

theorem join_iff : ofPiece piece = join ↔ piece = "as" := by
  constructor
  · intro sign
    unfold ofPiece at sign
    repeat' split at sign
    all_goals first | assumption | contradiction
  · rintro rfl
    decide

theorem query_iff : ofPiece piece = query ↔ piece = "projection" ∨ piece = "select" := by
  constructor
  · intro sign
    unfold ofPiece at sign
    repeat' split at sign
    all_goals first | assumption | contradiction
  · rintro (rfl | rfl) <;> decide

theorem of_word (word : Text) (filled : word ≠ []) (units : word.AllUnits) :
    ofPiece word = whole ∨ ofPiece word = join ∨ ofPiece word = query ∨ ofPiece word = other := by
  obtain ⟨c, word, rfl⟩ := List.exists_cons_of_ne_nil filled
  have unit := units c List.mem_cons_self
  have bracket : c ≠ '(' := by
    rintro rfl
    contradiction
  have solid := unit_not_white c unit
  unfold ofPiece
  repeat' split
  all_goals simp_all

theorem of_white (c : Char) (white : isWhite c = true) : ofPiece [c] = gap := by
  have bracket : c ≠ '(' := by
    rintro rfl
    contradiction
  simp [ofPiece, white, bracket]

theorem of_other (c : Char) (white : isWhite c = false) (bracket : c ≠ '(') : ofPiece [c] = other := by
  simp [ofPiece, white, bracket]

end Sign

-- What has been read: nothing of interest, `as`, `as` and a parenthesis behind it, or the start of a query.
inductive Sighting where
  | nothing
  | joined
  | opened
  | view
deriving DecidableEq

namespace Sighting

def next : Sighting → Sign → Sighting
  | view, _ | _, .whole => view
  | nothing, .query => nothing
  | _, .query => view
  | _, .join => joined
  | seen, .gap => seen
  | joined, .bracket => opened
  | _, .bracket | _, .other => nothing

def read (seen : Sighting) (t : Text) : Sighting := (t.pieces.map Sign.ofPiece).foldl next seen

theorem read_append (seen : Sighting) (a b : Text) (apart : a.apart b = true) :
    read seen (a ++ b) = read (read seen a) b := by
  rw [read, Text.pieces_append a b apart, List.map_append, List.foldl_append]
  rfl

theorem read_other (seen : Sighting) (c : Char) (t : Text) (other : isWordUnit c = false) :
    read seen (c :: t) = read (seen.next (.ofPiece [c])) t := by
  rw [read, Text.pieces_other c t other]
  rfl

theorem read_word (seen : Sighting) (word rest : Text) (filled : word ≠ []) (units : word.AllUnits)
    (stops : rest.head?.any isWordUnit = false) :
    read seen (word ++ rest) = read (seen.next (.ofPiece word)) rest := by
  rw [read, Text.pieces_word word rest filled units stops]
  rfl

-- How much has been seen.
def rank : Sighting → Nat
  | nothing => 0
  | opened => 1
  | joined => 2
  | view => 3

theorem next_mono (a b : Sighting) (sign : Sign) (less : a.rank ≤ b.rank) :
    (a.next sign).rank ≤ (b.next sign).rank := by
  cases sign <;> cases a <;> cases b <;> simp_all [rank, next]

theorem read_mono (a b : Sighting) (t : Text) (less : a.rank ≤ b.rank) : (a.read t).rank ≤ (b.read t).rank := by
  unfold read
  induction t.pieces.map Sign.ofPiece generalizing a b with
  | nil => exact less
  | cons sign signs ih => exact ih _ _ (next_mono a b sign less)

theorem next_view (signs : List Sign) : signs.foldl next view = view := by
  induction signs with
  | nil => rfl
  | cons sign signs ih => exact ih

theorem read_view (t : Text) : view.read t = view := next_view _

theorem read_white (seen : Sighting) (t : Text) (white : ∀ c ∈ t, isWhite c = true) : seen.read t = seen := by
  induction t with
  | nil => rfl
  | cons c t ih =>
    have first := white c List.mem_cons_self
    rw [read_other seen c t (white_no_word c first), Sign.of_white c first]
    cases seen <;> exact ih fun d member => white d (List.mem_cons_of_mem c member)

end Sighting

namespace Fragment

-- Whether `projection` or `select` comes next, and whether it does behind an `as`.
def query (t : Text) : Bool :=
  (Text.afterWord? "projection" (t.dropWhile isWhite)).isSome || (Text.afterWord? "select" (t.dropWhile isWhite)).isSome

def behindAs (t : Text) : Bool := query ((Text.after? "(" (t.dropWhile isWhite)).getD (t.dropWhile isWhite))

def startsView (t : Text) : Bool := startsQuery t || (Text.afterWord? "enum" t).isSome

def foundView (t : Text) : Bool := Text.anyWordStart startsView false t

theorem starts_view_wordy (c : Char) (t : Text) (other : isWordUnit c = false) : startsView (c :: t) = false := by
  have letter := fun d => unit_apart c d other
  simp [startsView, startsQuery, Text.afterWord?, Text.after?, letter 'a' (by decide), letter 'e' (by decide)]

-- Both searches for a view are one.
theorem any_word_start_or (first second : Text → Bool) (inside : Bool) (t : Text) :
    Text.anyWordStart (fun t => first t || second t) inside t =
      (Text.anyWordStart first inside t || Text.anyWordStart second inside t) := by
  induction t generalizing inside with
  | nil => rfl
  | cons c t ih =>
    simp only [Text.anyWordStart, ih]
    cases inside <;> cases first (c :: t) <;> cases second (c :: t) <;> simp

theorem is_view_found (fragment : Fragment) : fragment.isView = foundView (fragment.head.map foldCase) :=
  (any_word_start_or _ _ _ _).symm

section

variable (c : Char) (rest : Text)

theorem query_white (white : isWhite c = true) : query (c :: rest) = query rest := by
  rw [query, query, List.dropWhile_cons_of_pos white]

theorem behind_white (white : isWhite c = true) : behindAs (c :: rest) = behindAs rest := by
  rw [behindAs, behindAs, List.dropWhile_cons_of_pos white]

theorem query_other (white : isWhite c = false) (other : isWordUnit c = false) : query (c :: rest) = false := by
  have letter := fun d => unit_apart c d other
  rw [query, List.dropWhile_cons_of_neg (by simp [white])]
  simp [Text.afterWord?, Text.after?, letter 'p' (by decide), letter 's' (by decide)]

theorem behind_bracket : behindAs ('(' :: rest) = query rest := rfl

theorem behind_other (white : isWhite c = false) (bracket : c ≠ '(') : behindAs (c :: rest) = query (c :: rest) := by
  rw [behindAs, List.dropWhile_cons_of_neg (by simp [white])]
  simp [Text.after?, Ne.symm bracket]

variable (word : Text) (filled : word ≠ []) (units : word.AllUnits) (stops : rest.head?.any isWordUnit = false)

include filled units

theorem word_stays : (word ++ rest).dropWhile isWhite = word ++ rest := by
  obtain ⟨d, word, rfl⟩ := List.exists_cons_of_ne_nil filled
  exact List.dropWhile_cons_of_neg (by simp [unit_not_white d (units d List.mem_cons_self)])

include stops

theorem query_word : query (word ++ rest) = true ↔ Sign.ofPiece word = .query := by
  rw [Sign.query_iff, query, word_stays rest word filled units, Bool.or_eq_true,
    Text.after_word_iff "projection" word rest (by decide) units stops,
    Text.after_word_iff "select" word rest (by decide) units stops]

theorem behind_word : behindAs (word ++ rest) = true ↔ Sign.ofPiece word = .query := by
  rw [← query_word rest word filled units stops]
  obtain ⟨d, word, rfl⟩ := List.exists_cons_of_ne_nil filled
  have unit := units d List.mem_cons_self
  have white := unit_not_white d unit
  have bracket : d ≠ '(' := by
    rintro rfl
    contradiction
  rw [List.cons_append, behind_other d (word ++ rest) white bracket]

theorem starts_query_word : startsQuery (word ++ rest) = true ↔
    (word = "as" ∧ behindAs rest = true) ∨ word = "asprojection" ∨ word = "asselect" := by
  rw [startsQuery, Text.after_word_front "as" word rest (by decide) stops]
  cases found : Text.after? "as" word with
  | none =>
    refine iff_of_false Bool.false_ne_true ?_
    have unread (more : Text) : word ≠ "as" ++ more := by
      intro same
      rw [(Text.after_eq_some_iff _ _ _).mpr same] at found
      contradiction
    rintro (⟨same, _⟩ | same | same)
    · exact unread [] same
    · exact unread "projection" same
    · exact unread "select" same
  | some more =>
    rw [Text.after_eq_some_iff] at found
    subst found
    change behindAs (more ++ rest) = true ↔ _
    by_cases last : more = []
    · subst last
      simp
    · have others : Text.AllUnits more := fun d member => units d (List.mem_append_right _ member)
      rw [behind_word rest more last others stops, Sign.query_iff]
      simp [last]

theorem found_word : foundView (word ++ rest) = true ↔
    (Sign.ofPiece word = .join ∧ behindAs rest = true) ∨ Sign.ofPiece word = .whole ∨ foundView rest = true := by
  rw [foundView, Text.any_word_start_word startsView starts_view_wordy word rest filled units stops, Bool.or_eq_true,
    startsView, Bool.or_eq_true, starts_query_word rest word filled units stops,
    Text.after_word_iff "enum" word rest (by decide) units stops, Sign.join_iff, Sign.whole_iff, foundView]
  tauto

end

theorem found_other (c : Char) (rest : Text) (other : isWordUnit c = false) :
    foundView (c :: rest) = foundView rest :=
  Text.any_word_start_other startsView starts_view_wordy c rest other

-- What a reading from each state on says about the text.
structure Read (t : Text) : Prop where
  nothing : Sighting.nothing.read t = .view ↔ foundView t = true
  joined : Sighting.joined.read t = .view ↔ foundView t = true ∨ behindAs t = true
  opened : Sighting.opened.read t = .view ↔ foundView t = true ∨ query t = true

theorem Read.of_word (word rest : Text) (filled : word ≠ []) (units : word.AllUnits)
    (stops : rest.head?.any isWordUnit = false) (behind : Read rest) : Read (word ++ rest) := by
  obtain ⟨nothing, joined, opened⟩ := behind
  have viewed := Sighting.read_view rest
  have seen (seen : Sighting) := Sighting.read_word seen word rest filled units stops
  have found := found_word rest word filled units stops
  have next := query_word rest word filled units stops
  have further := behind_word rest word filled units stops
  rcases Sign.of_word word filled units with sign | sign | sign | sign
  all_goals
    rw [sign] at found next further
    constructor <;> simp [seen, sign, found, next, further, Sighting.next, viewed, nothing, joined, or_comm]

theorem Read.of_other (c : Char) (rest : Text) (other : isWordUnit c = false) (behind : Read rest) :
    Read (c :: rest) := by
  obtain ⟨nothing, joined, opened⟩ := behind
  have seen (seen : Sighting) := Sighting.read_other seen c rest other
  have found := found_other c rest other
  cases white : isWhite c with
  | true =>
    have sign := Sign.of_white c white
    have next := query_white c rest white
    have further := behind_white c rest white
    constructor <;> simp [seen, sign, found, next, further, Sighting.next, nothing, joined, opened]
  | false =>
    have next := query_other c rest white other
    by_cases bracket : c = '('
    · subst bracket
      have sign : Sign.ofPiece ['('] = .bracket := by decide
      have further := behind_bracket rest
      constructor <;> simp [seen, sign, found, next, further, Sighting.next, nothing, opened]
    · have sign := Sign.of_other c white bracket
      have further := behind_other c rest white bracket
      constructor <;> simp [seen, sign, found, next, further, Sighting.next, nothing]

theorem read_text (t : Text) : Read t := by
  induction t using Text.piece_induction with
  | nil => refine ⟨?_, ?_, ?_⟩ <;> decide
  | word word rest filled units stops ih => exact .of_word word rest filled units stops ih
  | other c rest other ih => exact .of_other c rest other ih

end Fragment

/-! The same, told by tokens. -/

open Fragment

def showsView (t : Text) : Bool := foundView (t.map foldCase)

namespace Token

def isQuery (token : Token) : Bool := token.isWord "projection" || token.isWord "select"

-- Neither shows a view nor takes part in one.
def quiet (token : Token) : Bool := !showsView ("as " ++ token.text ++ " select")

def legible (token : Token) : Bool :=
  token.isSpace || token.isPunct '(' || token.isWord "as" || token.isQuery || token.isWord "enum" || token.quiet

end Token

-- Whether a query starts behind an `as`, and whether one does among tokens without white space.
def tellsQuery : List Token → Bool
  | [] => false
  | token :: rest => token.isQuery || (token.isPunct '(' && rest.head?.any Token.isQuery)

def tellsView : List Token → Bool
  | [] => false
  | token :: rest => token.isWord "enum" || (token.isWord "as" && tellsQuery rest) || tellsView rest

-- No word goes on from one token to the next.
def unjoined : List Token → Bool
  | [] => true
  | token :: rest => token.text.apart (untokenize rest) && unjoined rest

-- What is known of the text of a token by its kind.
structure Token.Shaped (token : Token) : Prop where
  space : token.kind = .space → ∀ c ∈ token.text, isWhite c = true
  punct : token.kind = .punct → ∃ c, token.text = [c]

theorem token_shaped (start : Nat) (t : Text) (token : Token) (member : token ∈ tokensFrom start t) : token.Shaped := by
  refine ⟨?_, punct_single start t token member⟩
  intro space c inside
  have blank := space_blank start t token member space c inside
  simp only [Scan.isBlank, Bool.or_eq_true, decide_eq_true_eq] at blank
  rcases blank with ((rfl | rfl) | rfl) | rfl <;> decide

def Token.sign (token : Token) : Sign :=
  if token.isSpace then .gap
  else if token.isPunct '(' then .bracket
  else if token.isWord "enum" then .whole
  else if token.isWord "as" then .join
  else if token.isQuery then .query
  else .other

namespace Token

variable (token : Token)

theorem word_punct (c : Char) (word : Text) (punct : token.isPunct c = true) : token.isWord word = false := by
  rw [isPunct, Bool.and_eq_true, decide_eq_true_eq] at punct
  simp [isWord, punct.1]

theorem word_only (word other : Text) (read : token.isWord word = true) (apart : word.asciiLower ≠ other.asciiLower) :
    token.isWord other = false := by
  rw [isWord, Bool.and_eq_true, decide_eq_true_eq, decide_eq_true_eq] at read
  rw [isWord, read.2, decide_eq_false apart, Bool.and_false]

theorem sign_cases (solid : token.isSpace = false) :
    (token.sign = .bracket ∧ token.isPunct '(' = true ∧ token.isWord "enum" = false ∧ token.isWord "as" = false ∧
      token.isQuery = false) ∨
    (token.sign = .whole ∧ token.isWord "enum" = true) ∨
    (token.sign = .join ∧ token.isWord "enum" = false ∧ token.isWord "as" = true ∧ token.isQuery = false ∧
      token.isPunct '(' = false) ∨
    (token.sign = .query ∧ token.isWord "enum" = false ∧ token.isWord "as" = false ∧ token.isQuery = true) ∨
    (token.sign = .other ∧ token.isWord "enum" = false ∧ token.isWord "as" = false ∧ token.isQuery = false ∧
      token.isPunct '(' = false) := by
  cases bracket : token.isPunct '(' with
  | true =>
    have word (word : Text) := token.word_punct '(' word bracket
    exact .inl ⟨by rw [sign, solid, bracket]; rfl, rfl, word "enum", word "as", by rw [isQuery, word, word]; rfl⟩
  | false =>
    cases enum : token.isWord "enum" with
    | true => exact .inr (.inl ⟨by rw [sign, solid, bracket, enum]; rfl, rfl⟩)
    | false =>
      cases as : token.isWord "as" with
      | true =>
        have unasked : token.isQuery = false := by
          rw [isQuery, token.word_only "as" "projection" as (by decide), token.word_only "as" "select" as (by decide)]
          rfl
        exact .inr (.inr (.inl ⟨by rw [sign, solid, bracket, enum, as]; rfl, rfl, rfl, unasked, rfl⟩))
      | false =>
        cases query : token.isQuery with
        | true =>
          exact .inr (.inr (.inr (.inl ⟨by rw [sign, solid, bracket, enum, as, query]; rfl, rfl, rfl, rfl⟩)))
        | false =>
          exact .inr (.inr (.inr (.inr ⟨by rw [sign, solid, bracket, enum, as, query]; rfl, rfl, rfl, rfl, rfl⟩)))

theorem folded_word (word : Text) (read : token.isWord word = true) (small : word.asciiLower = word)
    (ascii : word.all (fun c => c ≠ '\u017F' && c ≠ '\u212A') = true) : token.text.map foldCase = word := by
  rw [isWord, Bool.and_eq_true, decide_eq_true_eq, decide_eq_true_eq, small] at read
  exact fold_of_lower token.text word read.2 ascii

end Token

namespace Sighting

theorem read_single (seen : Sighting) (word : Text) (filled : word ≠ []) (units : word.AllUnits) :
    seen.read word = seen.next (.ofPiece word) := by
  have whole := read_word seen word [] filled units rfl
  rwa [List.append_nil] at whole

-- A text between `as` and `select` without a view says nothing anywhere.
theorem read_quiet (seen : Sighting) (token : Token) (quiet : token.quiet = true) :
    seen.read (token.text.map foldCase) = seen.next .other := by
  have between : joined.read (token.text.map foldCase) = nothing := by
    have unseen : nothing.read (("as " ++ token.text ++ " select").map foldCase) ≠ view := by
      rw [Ne, (read_text _).nothing]
      simpa [Token.quiet, showsView] using quiet
    have split : ("as " ++ token.text ++ " select").map foldCase =
        "as" ++ ' ' :: (token.text.map foldCase ++ " select") := by
      rw [List.map_append, List.map_append, List.append_assoc]
      rfl
    rw [split, read_word nothing "as" _ (by decide) (by decide) rfl,
      read_other _ ' ' _ (by decide)] at unseen
    change joined.read (token.text.map foldCase ++ " select") ≠ view at unseen
    have blank : isWordUnit ' ' = false := by decide
    rw [read_append _ _ " select" (by simp [Text.apart, blank])] at unseen
    generalize joined.read (token.text.map foldCase) = seen at unseen ⊢
    cases seen with
    | nothing => rfl
    | joined => exact absurd rfl unseen
    | opened => exact absurd rfl unseen
    | view => exact absurd rfl unseen
  have least (seen : Sighting) (less : seen.rank ≤ joined.rank) : seen.read (token.text.map foldCase) = nothing := by
    have more := read_mono seen joined (token.text.map foldCase) less
    rw [between] at more
    generalize seen.read (token.text.map foldCase) = after at more ⊢
    cases after <;> first | rfl | contradiction
  cases seen with
  | view => exact read_view _
  | nothing => exact least nothing (by decide)
  | joined => exact between
  | opened => exact least opened (by decide)

theorem read_sign (seen : Sighting) (token : Token) (shaped : token.Shaped) (legible : token.legible = true) :
    seen.read (token.text.map foldCase) = seen.next token.sign := by
  cases space : token.isSpace with
  | true =>
    have white := shaped.space (of_decide_eq_true space)
    have sign : token.sign = .gap := if_pos space
    rw [fold_white token.text white, sign, read_white seen token.text white]
    cases seen <;> rfl
  | false =>
    rcases token.sign_cases space with ⟨sign, bracket, _⟩ | ⟨sign, enum⟩ | ⟨sign, _, as, _⟩ | ⟨sign, _, _, query⟩ |
      ⟨sign, enum, as, query, bracket⟩
    · rw [Token.isPunct, Bool.and_eq_true, decide_eq_true_eq, decide_eq_true_eq] at bracket
      obtain ⟨c, single⟩ := shaped.punct bracket.1
      obtain rfl : c = '(' := by simpa [single] using bracket.2
      rw [sign, single]
      rfl
    · rw [sign, token.folded_word "enum" enum (by decide) (by decide)]
      exact read_single seen "enum" (by decide) (by decide)
    · rw [sign, token.folded_word "as" as (by decide) (by decide)]
      exact read_single seen "as" (by decide) (by decide)
    · rw [Token.isQuery, Bool.or_eq_true] at query
      rw [sign]
      rcases query with query | query
      · rw [token.folded_word "projection" query (by decide) (by decide)]
        exact read_single seen "projection" (by decide) (by decide)
      · rw [token.folded_word "select" query (by decide) (by decide)]
        exact read_single seen "select" (by decide) (by decide)
    · rw [Token.legible, space, bracket, as, query, enum] at legible
      rw [sign]
      exact read_quiet seen token legible

theorem read_tokens (seen : Sighting) (tokens : List Token) (shaped : ∀ token ∈ tokens, token.Shaped)
    (legible : ∀ token ∈ tokens, token.legible = true) (apart : unjoined tokens = true) :
    seen.read ((untokenize tokens).map foldCase) = (tokens.map Token.sign).foldl next seen := by
  induction tokens generalizing seen with
  | nil => rfl
  | cons token rest ih =>
    rw [unjoined, Bool.and_eq_true] at apart
    have first := read_sign seen token (shaped token List.mem_cons_self) (legible token List.mem_cons_self)
    have others := fun seen => ih seen (fun other member => shaped other (List.mem_cons_of_mem token member))
      (fun other member => legible other (List.mem_cons_of_mem token member)) apart.2
    rw [untokenize, List.flatMap_cons, List.map_append, read_append, first, List.map_cons, List.foldl_cons]
    · exact others _
    · rw [apart_fold]
      exact apart.1

end Sighting

-- What signs in a row say, white space left out.
structure Told (tokens : List Token) : Prop where
  nothing : (tokens.map Token.sign).foldl Sighting.next .nothing = .view ↔ tellsView (tokens.filter (!·.isSpace)) = true
  joined : (tokens.map Token.sign).foldl Sighting.next .joined = .view ↔
    tellsView (tokens.filter (!·.isSpace)) = true ∨ tellsQuery (tokens.filter (!·.isSpace)) = true
  opened : (tokens.map Token.sign).foldl Sighting.next .opened = .view ↔
    tellsView (tokens.filter (!·.isSpace)) = true ∨ (tokens.filter (!·.isSpace)).head?.any Token.isQuery = true

theorem told (tokens : List Token) : Told tokens := by
  induction tokens with
  | nil => refine ⟨?_, ?_, ?_⟩ <;> decide
  | cons token rest ih =>
    obtain ⟨nothing, joined, opened⟩ := ih
    have viewed := Sighting.next_view (rest.map Token.sign)
    cases space : token.isSpace with
    | true =>
      have sign : token.sign = .gap := if_pos space
      constructor <;> simp [sign, space, Sighting.next, nothing, joined, opened]
    | false =>
      have solid : (token :: rest).filter (!·.isSpace) = token :: rest.filter (!·.isSpace) := by simp [space]
      generalize rest.filter (!·.isSpace) = others at nothing joined opened solid
      have view : tellsView (token :: others) =
        (token.isWord "enum" || (token.isWord "as" && tellsQuery others) || tellsView others) := rfl
      have behind : tellsQuery (token :: others) =
        (token.isQuery || (token.isPunct '(' && others.head?.any Token.isQuery)) := rfl
      rcases token.sign_cases space with ⟨sign, bracket, enum, as, query⟩ | ⟨sign, enum⟩ |
        ⟨sign, enum, as, query, bracket⟩ | ⟨sign, enum, as, query⟩ | ⟨sign, enum, as, query, bracket⟩
      · rw [enum, as] at view
        rw [query, bracket] at behind
        constructor <;> simp [solid, view, behind, sign, query, Sighting.next, nothing, opened]
      · rw [enum] at view
        constructor <;> simp [solid, view, sign, Sighting.next, viewed]
      · rw [enum, as] at view
        rw [query, bracket] at behind
        constructor <;> simp [solid, view, behind, sign, query, Sighting.next, joined, or_comm]
      · rw [enum, as] at view
        rw [query] at behind
        constructor <;> simp [solid, view, behind, sign, query, Sighting.next, viewed, nothing]
      · rw [enum, as] at view
        rw [query, bracket] at behind
        constructor <;> simp [solid, view, behind, sign, query, Sighting.next, nothing]

theorem tokens_told (tokens : List Token) (shaped : ∀ token ∈ tokens, token.Shaped)
    (legible : ∀ token ∈ tokens, token.legible = true) (apart : unjoined tokens = true) :
    showsView (untokenize tokens) = tellsView (tokens.filter (!·.isSpace)) := by
  rw [Bool.eq_iff_iff, showsView, ← (read_text _).nothing, Sighting.read_tokens .nothing tokens shaped legible apart]
  exact (told tokens).nothing

end SchemaDiagram
