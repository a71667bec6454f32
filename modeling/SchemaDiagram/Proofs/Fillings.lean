import SchemaDiagram.Proofs.Bodies
import SchemaDiagram.Proofs.Joining

/-!
Blanks and annotations put in among the tokens of a text. Headers are found as before, the declarations in front of the
place stay, the one that the place is inside of takes in what is put there, and those behind it move.
-/

set_option autoImplicit false

namespace SchemaDiagram

-- Tokens that no clause begins with and no bracket is among.
def Loose (tokens : List Token) : Prop := ∀ token ∈ tokens, token.kind = .space ∨ token.kind = .tag

namespace Loose

variable {tokens : List Token}

theorem unpunctuated (loose : Loose tokens) (token : Token) (member : token ∈ tokens) (c : Char) :
    token.isPunct c = false := by
  rcases loose token member with kind | kind <;> simp [Token.isPunct, kind]

theorem behind (token : Token) (loose : Loose (token :: tokens)) : Loose tokens :=
  fun other member => loose other (List.mem_cons_of_mem token member)

theorem moved (bytes : Nat) (loose : Loose tokens) : Loose (tokens.map (Token.moved bytes)) := by
  intro token member
  obtain ⟨other, inside, rfl⟩ := List.mem_map.mp member
  exact loose other inside

end Loose

-- Tokens that are none, or begin with punctuation.
def Marked (tokens : List Token) : Prop := ∀ token, tokens.head? = some token → token.kind = .punct

namespace Header

-- No name stands behind a keyword where annotations or punctuation follow.
theorem of_keyword_loose (keyword : Token) (loose marked : List Token) (idle : Loose loose) (mark : Marked marked) :
    ofKeyword? keyword (loose ++ marked) = none := by
  have nameless : ∀ name, ((loose ++ marked).dropWhile Token.isSpace).head? = some name → name.kind ≠ .word := by
    intro name first
    induction loose with
    | nil =>
      cases marked with
      | nil => contradiction
      | cons token marked =>
        have punct : token.kind = .punct := mark token rfl
        rw [List.nil_append, List.dropWhile_cons_of_neg (by simp [Token.isSpace, punct])] at first
        obtain rfl : token = name := Option.some.inj first
        simp [punct]
    | cons token loose ih =>
      rcases idle token List.mem_cons_self with space | tag
      · rw [List.cons_append, List.dropWhile_cons_of_pos (by simp [Token.isSpace, space])] at first
        exact ih (idle.behind token) first
      · rw [List.cons_append, List.dropWhile_cons_of_neg (by simp [Token.isSpace, tag])] at first
        obtain rfl : token = name := Option.some.inj first
        simp [tag]
  unfold ofKeyword?
  cases DeclarationKind.ofKeyword? keyword.text.asciiLower with
  | none => rfl
  | some kind =>
    dsimp only
    cases found : (loose ++ marked).dropWhile Token.isSpace with
    | nil => rfl
    | cons name after =>
      have other := nameless name (by rw [found]; rfl)
      exact if_pos (by simp [other])

theorem collect_loose (boundary : Bool) (loose more : List Token) (idle : Loose loose) :
    collect boundary (loose ++ more) = collect (boundary || loose.any Token.isLineBreak) more := by
  induction loose generalizing boundary with
  | nil => simp
  | cons token loose ih =>
    have step : token.clauseAfter boundary = (boundary || token.isLineBreak) := by
      rcases idle token List.mem_cons_self with kind | kind
      · rw [Token.clauseAfter, kind]
      · simp [Token.clauseAfter, Token.isLineBreak, kind]
    have solid : token.kind ≠ .word := by
      rcases idle token List.mem_cons_self with kind | kind <;> simp [kind]
    rw [List.cons_append, collect_step, step, if_neg (by simp [solid]), List.nil_append, ih _ (idle.behind token),
      List.any_cons, Bool.or_assoc]

end Header

namespace Declaration

/-! The tokens that a declaration takes in. -/

theorem extent_through (limit : Option Nat) (depth : Nat) (tokens more : List Token)
    (through : (extent limit depth tokens).2 = .endOfText) :
    extent limit depth (tokens ++ more) =
      (tokens ++ (extent limit (bracesOpen depth tokens) more).1, (extent limit (bracesOpen depth tokens) more).2) := by
  induction tokens generalizing depth with
  | nil => rfl
  | cons token rest ih =>
    rcases extent_step limit depth token with ⟨taken, ends, read⟩ | ⟨_, _, read⟩
    · rw [read] at through
      exact absurd through ends
    · rw [read] at through
      rw [List.cons_append, read, ih _ through]
      rfl

-- Once a brace is open, it stays open as long as the declaration does not end.
theorem braces_stay_open (limit : Option Nat) (depth : Nat) (tokens : List Token)
    (through : (extent limit depth tokens).2 = .endOfText)
    (opened : depth ≠ 0 ∨ ∃ opening ∈ tokens, opening.isPunct '\x7b' = true) : bracesOpen depth tokens ≠ 0 := by
  induction tokens generalizing depth with
  | nil => simpa [bracesOpen] using opened
  | cons token rest ih =>
    rcases extent_step limit depth token with ⟨taken, ends, read⟩ | ⟨_, stays, read⟩
    · rw [read] at through
      exact absurd through ends
    · rw [read] at through
      refine ih _ through ?_
      rcases opened with deep | ⟨opening, member, brace⟩
      · exact .inl (stays deep)
      · rcases List.mem_cons.mp member with rfl | inside
        · left
          rw [Token.bracesAfter, if_pos brace]
          omega
        · exact .inr ⟨opening, inside, brace⟩

theorem extent_unlimited (limit other : Option Nat) (depth : Nat) (tokens : List Token) (deep : depth ≠ 0) :
    extent limit depth tokens = extent other depth tokens := by
  induction tokens generalizing depth with
  | nil => rfl
  | cons token rest ih =>
    have level : decide (depth = 0) = false := decide_eq_false deep
    rw [extent, extent, level, Bool.false_and, Bool.false_and, ih (depth + 1) (by omega), ih depth deep]
    by_cases last : depth = 1
    · rw [if_pos last, if_pos last]
    · rw [if_neg last, if_neg last, ih (depth - 1) (by omega)]

-- Inside of braces a token is taken in whatever it is.
theorem extent_first (limit : Option Nat) (depth : Nat) (token : Token) (rest : List Token) (deep : depth ≠ 0) :
    ∃ others, (extent limit depth (token :: rest)).1 = token :: others := by
  rw [extent, if_neg (by simp [deep])]
  split
  · exact ⟨_, rfl⟩
  · split
    · split <;> exact ⟨_, rfl⟩
    · split <;> exact ⟨_, rfl⟩

theorem extent_loose (limit : Option Nat) (depth : Nat) (loose more : List Token) (idle : Loose loose) (deep : depth ≠ 0) :
    extent limit depth (loose ++ more) = (loose ++ (extent limit depth more).1, (extent limit depth more).2) := by
  induction loose with
  | nil => rfl
  | cons token loose ih =>
    have other := idle.unpunctuated token List.mem_cons_self
    rw [List.cons_append, extent, if_neg (by simp [deep]), other, other, other, if_neg Bool.false_ne_true,
      if_neg (by simp), if_neg (by simp), ih (idle.behind token)]
    rfl

end Declaration

/-! The declarations of the headers in front of a place, whatever stands behind it. -/

-- A header in front of a place, with the tokens up to there.
structure Header.InFront (place : Nat) (header : Header) : Prop where
  ordered : Ordered header.tokens
  before : ∀ token ∈ header.tokens, token.start < place
  size : header.start + (untokenize header.tokens).byteSize = place

theorem Header.in_front (t : Text) (header : Header) (member : header ∈ ofText t) : header.InFront t.byteSize := by
  obtain ⟨⟨keyword, more, lead, start⟩, before, split⟩ := collected_stands true _ header member
  change before ++ header.tokens = tokenize t at split
  refine ⟨(tokens_ordered 0 t).sublist (List.IsSuffix.sublist ⟨before, split⟩), ?_, ?_⟩
  · intro token inside
    apply token_before t token
    rw [← split]
    exact List.mem_append_right before inside
  · have first : tokenize t = before ++ keyword :: (more ++ header.rest) := by
      rw [← split, Header.tokens, lead]
      rfl
    have whole := untokenize_tokens_from 0 t
    rw [← tokenize, ← split, untokenize_append] at whole
    rw [← start, token_start 0 t before _ keyword first, Nat.zero_add, ← Text.byte_size_append, whole]

-- Bounds that are the same in front of a place.
def Agree (place : Nat) (limit other : Option Nat) : Prop :=
  ∀ start < place, limit.any (· ≤ start) = other.any (· ≤ start)

namespace Declaration

-- Whether the declaration of a header goes on behind the tokens that are left of the text.
def Crosses (header : Header) (limit : Option Nat) : Prop :=
  (∀ token ∈ header.lead, limit.any (· ≤ token.start) = false) ∧ (extent limit 0 header.rest).2 = .endOfText

theorem Crosses.lead (header : Header) (limit : Option Nat) (crosses : Crosses header limit) (more : List Token) :
    (ofHeader (header.extended more) limit).lead = header.lead := by
  change header.lead.takeWhile (fun token => !limit.any (· ≤ token.start)) = header.lead
  rw [List.takeWhile_eq_self_iff]
  intro token member
  simp [crosses.1 token member]

theorem Crosses.tokens (header : Header) (limit : Option Nat) (crosses : Crosses header limit) (more : List Token) :
    (ofHeader (header.extended more) limit).tokens =
      header.tokens ++ (extent limit (bracesOpen 0 header.rest) more).1 := by
  rw [Declaration.tokens, crosses.lead header limit more]
  change header.lead ++ (extent limit 0 (header.rest ++ more)).1 = _
  rw [extent_through limit 0 header.rest more crosses.2, ← List.append_assoc]
  rfl

section

variable (place : Nat) (header : Header) (front : header.InFront place) (limit other : Option Nat)
  (agree : Agree place limit other) (more more' : List Token) (filled : more ≠ []) (filled' : more' ≠ [])
  (behind : ∀ token ∈ more, place ≤ token.start) (behind' : ∀ token ∈ more', place ≤ token.start)

include front

theorem Crosses.stop (crosses : Crosses header limit) : place ≤ (ofHeader (header.extended more) limit).stop := by
  change place ≤ header.start + (untokenize (ofHeader (header.extended more) limit).tokens).byteSize
  rw [crosses.tokens header limit more, untokenize_append, Text.byte_size_append, ← Nat.add_assoc, front.size]
  exact Nat.le_add_right _ _

include filled behind in
-- Nothing behind the name is taken in where the next header starts within the name or the gap in front of it.
theorem extent_stopped (token : Token) (member : token ∈ header.lead) (early : limit.any (· ≤ token.start) = true) :
    extent limit 0 (header.rest ++ more) = ([], .header) := by
  obtain ⟨bound, rfl, least⟩ := (Option.any_eq_true _ _).mp early
  have least := of_decide_eq_true least
  have start := front.before token (List.mem_append_left _ member)
  refine extent_header bound _ (by simp [filled]) fun next inside => least.trans ?_
  rcases List.mem_append.mp inside with near | far
  · exact (List.pairwise_append.mp front.ordered).2.2 token member next near
  · have further := behind next far
    omega

include agree filled filled' behind behind' in
-- A declaration that comes to its end in front of the place.
theorem of_header_short (short : ¬ Crosses header limit) :
    ofHeader (header.extended more) limit = ofHeader (header.extended more') other ∧
      (ofHeader (header.extended more) limit).stop ≤ place := by
  have same : ∀ token ∈ header.tokens, limit.any (· ≤ token.start) = other.any (· ≤ token.start) :=
    fun token member => agree token.start (front.before token member)
  have lead : header.lead.takeWhile (fun token => !limit.any (· ≤ token.start)) =
      header.lead.takeWhile fun token => !other.any (· ≤ token.start) :=
    take_while_congr _ _ _ fun token member => congrArg not (same token (List.mem_append_left _ member))
  suffices taken : extent limit 0 (header.rest ++ more) = extent other 0 (header.rest ++ more') ∧
      header.lead.takeWhile (fun token => !limit.any (· ≤ token.start)) ++
        (extent limit 0 (header.rest ++ more)).1 <+: header.tokens by
    constructor
    · unfold ofHeader Header.extended
      dsimp only
      rw [taken.1, lead]
    · obtain ⟨left, split⟩ := taken.2
      have size := front.size
      rw [← split, untokenize_append, Text.byte_size_append] at size
      change header.start + (untokenize (header.lead.takeWhile (fun token => !limit.any (· ≤ token.start)) ++
        (extent limit 0 (header.rest ++ more)).1)).byteSize ≤ place
      omega
  by_cases whole : ∀ token ∈ header.lead, limit.any (· ≤ token.start) = false
  · have ended : (extent limit 0 header.rest).2 ≠ .endOfText := fun through => short ⟨whole, through⟩
    have alike := extent_limit limit other 0 header.rest fun token member => same token (List.mem_append_right _ member)
    rw [extent_append limit 0 header.rest more ended]
    rw [alike] at ended
    rw [extent_append other 0 header.rest more' ended, alike]
    have kept : header.lead.takeWhile (fun token => !limit.any (· ≤ token.start)) = header.lead := by
      rw [List.takeWhile_eq_self_iff]
      intro token member
      simp [whole token member]
    rw [kept]
    exact ⟨rfl, (List.prefix_append_right_inj _).mpr (extent_taken other 0 header.rest)⟩
  · obtain ⟨token, member, early⟩ : ∃ token ∈ header.lead, limit.any (· ≤ token.start) = true := by simpa using whole
    have early' := (same token (List.mem_append_left _ member)).symm.trans early
    rw [extent_stopped place header front limit more filled behind token member early,
      extent_stopped place header front other more' filled' behind' token member early', List.append_nil]
    exact ⟨rfl, (List.takeWhile_prefix _).trans (List.prefix_append _ _)⟩

end

theorem agree_next (place bytes : Nat) (headers behind : List Header) (more more' : List Token)
    (later : ∀ header ∈ behind, place ≤ header.start) :
    Agree place ((headers.map (Header.extended more) ++ behind).head?.map Header.start)
      ((headers.map (Header.extended more') ++ behind.map (Header.moved bytes)).head?.map Header.start) := by
  intro start less
  cases headers with
  | cons header headers => rfl
  | nil =>
    cases behind with
    | nil => rfl
    | cons next behind =>
      have far := later next List.mem_cons_self
      have near : ¬ next.start ≤ start := by omega
      have further : ¬ bytes + next.start ≤ start := by omega
      simp [Header.moved, near, further]

theorem Crosses.agree (place : Nat) (header : Header) (front : header.InFront place) (limit other : Option Nat)
    (agree : Agree place limit other) (crosses : Crosses header limit) : Crosses header other := by
  have same : ∀ token ∈ header.tokens, limit.any (· ≤ token.start) = other.any (· ≤ token.start) :=
    fun token member => agree token.start (front.before token member)
  constructor
  · intro token member
    rw [← same token (List.mem_append_left _ member), crosses.1 token member]
  · rw [← extent_limit limit other 0 header.rest fun token member => same token (List.mem_append_right _ member)]
    exact crosses.2

theorem of_headers_skip (consumed : Nat) (inside behind : List Header) (early : ∀ header ∈ inside, header.start < consumed) :
    ofHeaders consumed (inside ++ behind) = ofHeaders consumed behind := by
  induction inside with
  | nil => rfl
  | cons header inside ih =>
    obtain ⟨first, others⟩ := List.forall_mem_cons.mp early
    rw [List.cons_append, ofHeaders, if_pos first]
    exact ih others

-- The declaration that goes on behind the place stands behind the same ones with either text, and in front of those that
-- begin behind it.
theorem of_headers_across (place bytes consumed : Nat) (headers behind : List Header) (more more' : List Token)
    (front : ∀ header ∈ headers, header.InFront place ∧ header.start < place)
    (later : ∀ header ∈ behind, place ≤ header.start) (filled : more ≠ []) (filled' : more' ≠ [])
    (far : ∀ token ∈ more, place ≤ token.start) (far' : ∀ token ∈ more', place ≤ token.start) (declaration : Declaration)
    (member : declaration ∈ ofHeaders consumed (headers.map (Header.extended more) ++ behind))
    (start : declaration.start < place) (stop : place < declaration.stop) :
    ∃ earlier header limit other, header ∈ headers ∧ Agree place limit other ∧ Crosses header limit ∧
      declaration = ofHeader (header.extended more) limit ∧
      ofHeaders consumed (headers.map (Header.extended more) ++ behind) =
        earlier ++ declaration :: ofHeaders declaration.stop behind ∧
      ofHeaders consumed (headers.map (Header.extended more') ++ behind.map (Header.moved bytes)) =
        earlier ++ ofHeader (header.extended more') other ::
          ofHeaders (ofHeader (header.extended more') other).stop (behind.map (Header.moved bytes)) := by
  induction headers generalizing consumed with
  | nil =>
    obtain ⟨_, before, header, after, split, rfl⟩ := of_headers_at consumed _ declaration member
    change behind = before ++ header :: after at split
    have far := later header (by simp [split])
    change header.start < place at start
    omega
  | cons header headers ih =>
    obtain ⟨⟨first, early⟩, others⟩ := List.forall_mem_cons.mp front
    have agree := agree_next place bytes headers behind more more' later
    have skipped (tokens : List Token) (next : List Header) (stop : Nat) (beyond : place ≤ stop) :
        ofHeaders stop (headers.map (Header.extended tokens) ++ next) = ofHeaders stop next := by
      apply of_headers_skip
      intro inner among
      obtain ⟨other, inside, rfl⟩ := List.mem_map.mp among
      exact Nat.lt_of_lt_of_le (others other inside).2 beyond
    rw [List.map_cons, List.cons_append, ofHeaders] at member ⊢
    rw [List.map_cons, List.cons_append, ofHeaders]
    by_cases within : header.start < consumed
    · have passed (tokens : List Token) : (header.extended tokens).start < consumed := within
      rw [if_pos (passed more)] at member
      rw [if_pos (passed more), if_pos (passed more')]
      obtain ⟨earlier, other, limit, bound, among, rest⟩ := ih consumed others member
      exact ⟨earlier, other, limit, bound, List.mem_cons_of_mem header among, rest⟩
    · have passed (tokens : List Token) : ¬ (header.extended tokens).start < consumed := within
      rw [if_neg (passed more)] at member
      rw [if_neg (passed more), if_neg (passed more')]
      generalize (headers.map (Header.extended more) ++ behind).head?.map Header.start = limit at *
      generalize (headers.map (Header.extended more') ++ behind.map (Header.moved bytes)).head?.map Header.start = other at *
      dsimp only at member ⊢
      by_cases crosses : Crosses header limit
      · have reached := crosses.stop place header first limit more
        have reached' := (crosses.agree place header first limit other agree).stop place header first other more'
        rcases List.mem_cons.mp member with rfl | behind
        · refine ⟨[], header, limit, other, List.mem_cons_self, agree, crosses, rfl, ?_, ?_⟩
          · rw [skipped _ _ _ reached]
            rfl
          · rw [skipped _ _ _ reached']
            rfl
        · have beyond := (of_headers_at _ _ declaration behind).1
          omega
      · obtain ⟨same, ended⟩ := of_header_short place header first limit other agree more more' filled filled' far far' crosses
        rcases List.mem_cons.mp member with rfl | behind
        · omega
        · obtain ⟨earlier, next, bound, bound', among, agrees, crossing, whole, old, new⟩ := ih _ others behind
          refine ⟨ofHeader (header.extended more) limit :: earlier, next, bound, bound', List.mem_cons_of_mem header among,
            agrees, crossing, whole, congrArg (List.cons _) old, ?_⟩
          rw [← same]
          exact congrArg (List.cons _) new

end Declaration

-- A text in two parts at a byte offset is so in one way.
theorem Text.parts_at (a a' b b' : Text) (same : a ++ b = a' ++ b') (bytes : a.byteSize = a'.byteSize) : a = a' ∧ b = b' := by
  have first := cut_at_append a b
  rw [same, bytes, cut_at_append] at first
  exact (Prod.mk.inj (Option.some.inj first)).imp Eq.symm Eq.symm

theorem Token.punct_filled (c : Char) (token : Token) (punct : token.isPunct c = true) : 0 < token.text.byteSize := by
  apply Text.byte_size_pos
  intro nothing
  simp [isPunct, nothing] at punct

namespace Body

-- Inside of `depth` braces a body comes to its end among tokens, or takes them in and goes on behind them.
def EndsOrGoesOn (depth : Nat) (tokens : List Token) : Prop :=
  (∃ inside closing after, tokens = inside ++ closing :: after ∧ closing.isPunct '\x7d' = true ∧
      ∀ more, inside? depth (tokens ++ more) = some inside) ∨
    ∃ deeper, ∀ more, inside? depth (tokens ++ more) = (inside? deeper more).map (tokens ++ ·)

theorem EndsOrGoesOn.onward (token : Token) (rest : List Token) (depth deeper : Nat)
    (step : ∀ tokens, inside? depth (token :: tokens) = (inside? deeper tokens).map (token :: ·))
    (behind : EndsOrGoesOn deeper rest) : EndsOrGoesOn depth (token :: rest) := by
  rcases behind with ⟨inside, closing, after, rfl, punct, read⟩ | ⟨further, read⟩
  · refine .inl ⟨token :: inside, closing, after, rfl, punct, fun more => ?_⟩
    rw [List.cons_append, step, read]
    rfl
  · refine .inr ⟨further, fun more => ?_⟩
    rw [List.cons_append, step, read, Option.map_map]
    rfl

theorem inside_through (depth : Nat) (tokens : List Token) : EndsOrGoesOn depth tokens := by
  induction tokens generalizing depth with
  | nil => exact .inr ⟨depth, fun more => by simp⟩
  | cons token rest ih =>
    by_cases opening : token.isPunct '\x7b' = true
    · exact (ih _).onward token rest _ _ fun tokens => inside_opening depth token tokens opening
    · by_cases closing : token.isPunct '\x7d' = true
      · cases depth with
        | zero => exact .inl ⟨[], token, rest, rfl, closing, fun more => inside_closed token _ closing⟩
        | succ depth => exact (ih _).onward token rest _ _ fun tokens => inside_closing depth token tokens closing
      · exact (ih _).onward token rest _ _ fun tokens => inside_other depth token tokens opening closing

theorem inside_loose (depth : Nat) (loose more : List Token) (idle : Loose loose) :
    inside? depth (loose ++ more) = (inside? depth more).map (loose ++ ·) := by
  induction loose with
  | nil => simp
  | cons token loose ih =>
    have other := idle.unpunctuated token List.mem_cons_self
    rw [List.cons_append, inside_other depth token _ (by simp [other]) (by simp [other]), ih (idle.behind token),
      Option.map_map]
    rfl

-- A brace behind a place opens no body that begins in front of it.
theorem opened_in_front (place : Nat) (front more : List Token) (body : Body)
    (far : ∀ token ∈ more, place ≤ token.start) (found : ofTokens? (front ++ more) = some body) (start : body.start ≤ place) :
    ∃ opening ∈ front, opening.isPunct '\x7b' = true := by
  by_contra none
  have closed : ∀ token ∈ front, token.isPunct '\x7b' = false := by
    intro token member
    cases brace : token.isPunct '\x7b' with
    | false => rfl
    | true => exact absurd ⟨token, member, brace⟩ none
  have left : (front ++ more).dropWhile (!·.isPunct '\x7b') = more.dropWhile (!·.isPunct '\x7b') :=
    List.dropWhile_append_of_pos fun token member => by simp [closed token member]
  rw [ofTokens?, left] at found
  cases first : more.dropWhile (!·.isPunct '\x7b') with
  | nil =>
    rw [first] at found
    contradiction
  | cons opening rest =>
    rw [first] at found
    obtain ⟨inside, _, rfl⟩ := Option.map_eq_some_iff.mp found
    have brace := List.head?_dropWhile_not (!·.isPunct '\x7b') more
    rw [first] at brace
    have filled := opening.punct_filled '\x7b' (by simpa using brace)
    have beyond := far opening ((List.dropWhile_sublist _).subset (by rw [first]; exact List.mem_cons_self))
    change opening.start + opening.text.byteSize ≤ place at start
    omega

theorem stop_before_end (t : Text) (body : Body) (found : ofText? t = some body) : body.stop < t.byteSize := by
  rw [ofText?, ofTokens?] at found
  have whole := List.takeWhile_append_dropWhile (p := (!·.isPunct '\x7b')) (l := tokenize t)
  generalize (tokenize t).takeWhile (!·.isPunct '\x7b') = front at whole
  split at found
  · contradiction
  · rename_i opening rest left
    obtain ⟨inside, read, rfl⟩ := Option.map_eq_some_iff.mp found
    obtain ⟨closing, after, rfl, punct⟩ := inside_split 0 rest inside read
    rw [left] at whole
    have stop := token_stop 0 t front _ opening whole.symm
    have texts := stretch_of_tokens t (front ++ [opening]) inside (closing :: after) (by simp [← whole])
    have last : untokenize (closing :: after) = closing.text ++ untokenize after := List.flatMap_cons
    have filled := closing.punct_filled '\x7d' punct
    rw [texts, last, Body.stop, stop]
    simp only [Text.byte_size_append]
    omega

-- What is put in inside of a body is put in its text.
theorem refilled (a p gap q : Text) (loose loose' marked : List Token) (bytes : Nat) (idle : Loose loose)
    (idle' : Loose loose') (text : untokenize loose = gap)
    (far : ∀ token ∈ loose ++ marked, (a ++ p).byteSize ≤ token.start)
    (found : ofTokens? (tokenize (a ++ p) ++ (loose ++ marked)) = some ⟨a.byteSize, p ++ (gap ++ q)⟩) :
    ofTokens? (tokenize (a ++ p) ++ (loose' ++ marked.map (Token.moved bytes))) =
        some ⟨a.byteSize, p ++ (untokenize loose' ++ q)⟩ ∧
      ∃ before opening rest, tokenize (a ++ p) = before ++ opening :: rest ∧ opening.isPunct '\x7b' = true ∧
        untokenize rest = p := by
  have opened := opened_in_front (a ++ p).byteSize _ _ _ far found (by
    rw [Text.byte_size_append]
    exact Nat.le_add_right _ _)
  obtain ⟨before, opening, rest, free, whole, brace⟩ := first_brace _ opened
  have stop := token_stop 0 (a ++ p) before rest opening whole
  have texts : a ++ p = untokenize (before ++ [opening]) ++ untokenize rest := by
    have parts := untokenize_tokens_from 0 (a ++ p)
    rw [← tokenize, whole, List.append_cons, untokenize_append] at parts
    exact parts.symm
  rw [whole, List.append_assoc, List.cons_append, of_tokens_first before _ opening free brace] at found ⊢
  obtain ⟨inside, read, same⟩ := Option.map_eq_some_iff.mp found
  obtain ⟨start, inner⟩ := Body.mk.inj same
  rw [Nat.zero_add, start] at stop
  obtain ⟨_, rest_text⟩ := Text.parts_at _ _ _ _ texts stop
  refine ⟨?_, before, opening, rest, rfl, brace, rest_text.symm⟩
  rcases inside_through 0 rest with ⟨early, closing, after, rfl, punct, ended⟩ | ⟨deeper, through⟩
  · -- A body that ends in front of the place is no longer than what stands there.
    exfalso
    rw [ended] at read
    obtain rfl := Option.some.inj read
    have filled := closing.punct_filled '\x7d' punct
    have longer := congrArg Text.byteSize rest_text
    have last : untokenize (closing :: after) = closing.text ++ untokenize after := List.flatMap_cons
    rw [untokenize_append, inner, last] at longer
    simp only [Text.byte_size_append] at longer
    omega
  · rw [through, inside_loose deeper loose marked idle, Option.map_map] at read
    obtain ⟨behind, taken, rfl⟩ := Option.map_eq_some_iff.mp read
    change untokenize (rest ++ (loose ++ behind)) = p ++ (gap ++ q) at inner
    rw [untokenize_append, untokenize_append, text, ← rest_text, List.append_cancel_left_eq,
      List.append_cancel_left_eq] at inner
    rw [through, inside_loose deeper loose' _ idle', inside_moved, taken, start]
    change some (⟨_, untokenize (rest ++ (loose' ++ behind.map (Token.moved bytes)))⟩ : Body) = _
    rw [untokenize_append, untokenize_append, untokenize_moved, ← rest_text, inner]

end Body

end SchemaDiagram
