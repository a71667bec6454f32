import SchemaDiagram.Proofs.Extents

/-!
Where declarations end: behind a brace or a semicolon, at the keyword of the next header, or with the text. The keyword
of the next header stands behind the name of a declaration, or is that name.
-/

set_option autoImplicit false

namespace SchemaDiagram

/-! The tokens of a declaration behind its name. -/

namespace Declaration

-- A declaration does not end at a header or a semicolon while braces are open.
theorem extent_deep (limit : Option Nat) (depth : Nat) (tokens : List Token) (deep : depth ≠ 0) :
    (extent limit depth tokens).2 = .brace ∨ (extent limit depth tokens).2 = .endOfText := by
  fun_induction extent limit depth tokens with
  | case1 => exact .inr rfl
  | case2 depth token rest before =>
    rw [Bool.and_eq_true, decide_eq_true_eq] at before
    exact absurd before.1 deep
  | case3 depth token rest _ _ ih => exact ih (by omega)
  | case4 => exact .inl rfl
  | case5 depth token rest _ _ _ inner ih => exact ih (by omega)
  | case6 depth token rest _ _ _ semicolon =>
    rw [Bool.and_eq_true, decide_eq_true_eq] at semicolon
    exact absurd semicolon.2 deep
  | case7 depth token rest _ _ _ _ ih => exact ih deep

-- How the tokens that a declaration takes of those behind its name come to an end.
def Stops (limit : Option Nat) (tokens taken : List Token) : Ending → Prop
  | .brace => ∃ inside last, taken = inside ++ [last] ∧ last.isPunct '\x7d' = true
  | .semicolon => ∃ inside last, taken = inside ++ [last] ∧ last.isPunct ';' = true
  | .header =>
    (∃ next after, tokens = taken ++ next :: after ∧ limit.any (· ≤ next.start) = true) ∧
      ∀ token ∈ taken, limit.any (· ≤ token.start) = false
  | .endOfText => taken = tokens

theorem Stops.onward (limit : Option Nat) (token : Token) (tokens taken : List Token) (ending : Ending)
    (stops : Stops limit tokens taken ending) (before : ending = .header → limit.any (· ≤ token.start) = false) :
    Stops limit (token :: tokens) (token :: taken) ending := by
  cases ending with
  | brace =>
    obtain ⟨inside, last, rfl, punct⟩ := stops
    exact ⟨token :: inside, last, rfl, punct⟩
  | semicolon =>
    obtain ⟨inside, last, rfl, punct⟩ := stops
    exact ⟨token :: inside, last, rfl, punct⟩
  | header =>
    obtain ⟨⟨next, after, rfl, beyond⟩, others⟩ := stops
    exact ⟨⟨next, after, rfl, beyond⟩, List.forall_mem_cons.mpr ⟨before rfl, others⟩⟩
  | endOfText => exact congrArg (token :: ·) stops

theorem extent_stops (limit : Option Nat) (depth : Nat) (tokens : List Token) :
    Stops limit tokens (extent limit depth tokens).1 (extent limit depth tokens).2 := by
  have deeper (depth : Nat) (rest : List Token) (deep : depth ≠ 0) : (extent limit depth rest).2 ≠ .header := by
    rcases extent_deep limit depth rest deep with last | last <;> rw [last] <;> simp
  fun_induction extent limit depth tokens with
  | case1 => rfl
  | case2 depth token rest before =>
    rw [Bool.and_eq_true] at before
    exact ⟨⟨token, rest, rfl, before.2⟩, by simp⟩
  | case3 depth token rest _ _ ih => exact ih.onward _ _ _ _ _ fun last => absurd last (deeper _ rest (by omega))
  | case4 token rest _ _ closing =>
    rw [Bool.and_eq_true] at closing
    exact ⟨[], token, rfl, closing.1⟩
  | case5 depth token rest _ _ closing inner ih =>
    rw [Bool.and_eq_true, decide_eq_true_eq] at closing
    exact ih.onward _ _ _ _ _ fun last => absurd last (deeper _ rest (by omega))
  | case6 depth token rest _ _ _ semicolon =>
    rw [Bool.and_eq_true] at semicolon
    exact ⟨[], token, rfl, semicolon.1⟩
  | case7 depth token rest before _ _ _ ih =>
    refine ih.onward _ _ _ _ _ fun last => ?_
    by_cases outermost : depth = 0
    · simpa [outermost] using before
    · exact absurd last (deeper depth rest outermost)

end Declaration

/-! The next header. -/

theorem clause_after_spaces (boundary : Bool) (tokens : List Token) (spaces : ∀ token ∈ tokens, token.isSpace = true) :
    clauseAfter boundary tokens = (boundary || tokens.any Token.isLineBreak) := by
  induction tokens generalizing boundary with
  | nil => simp [clauseAfter]
  | cons token rest ih =>
    rw [List.forall_mem_cons] at spaces
    have kind : token.kind = .space := of_decide_eq_true spaces.1
    have step : token.clauseAfter boundary = (boundary || token.isLineBreak) := by rw [Token.clauseAfter, kind]
    change clauseAfter (token.clauseAfter boundary) rest = _
    rw [ih _ spaces.2, step, List.any_cons, Bool.or_assoc]

namespace Header

-- Where the first header behind this one starts, if there is another.
structure Limits (t : Text) (header : Header) (limit : Option Nat) : Prop where
  later : ∀ bound, limit = some bound → header.start < bound ∧ ∃ next ∈ ofText t, next.start = bound
  first : ∀ other ∈ ofText t, header.start < other.start → ∃ bound, limit = some bound ∧ bound ≤ other.start

theorem limits_of_split (t : Text) (before after : List Header) (header : Header)
    (split : ofText t = before ++ header :: after) : header.Limits t (after.head?.map Header.start) := by
  have increasing := collected_increasing true _ (tokenize_increasing t)
  change (ofText t).Pairwise _ at increasing
  rw [split] at increasing
  obtain ⟨_, behind, across⟩ := List.pairwise_append.mp increasing
  obtain ⟨later, others⟩ := List.pairwise_cons.mp behind
  constructor
  · intro bound same
    obtain ⟨next, first, rfl⟩ := Option.map_eq_some_iff.mp same
    have member := List.mem_of_head? first
    exact ⟨later next member, next, by simp [split, member], rfl⟩
  · intro other member start
    rw [split, List.mem_append, List.mem_cons] at member
    rcases member with early | rfl | late
    · have sooner := across other early header List.mem_cons_self
      omega
    · omega
    · cases after with
      | nil => contradiction
      | cons next after =>
        refine ⟨next.start, rfl, ?_⟩
        rcases List.mem_cons.mp late with rfl | further
        · exact Nat.le_refl _
        · exact Nat.le_of_lt ((List.pairwise_cons.mp others).1 other further)

-- A header at its place among the tokens of a text.
structure Placed (t : Text) (header : Header) (before gap : List Token) (keyword name : Token) : Prop where
  split : tokenize t = before ++ keyword :: (gap ++ name :: header.rest)
  word : keyword.kind = .word
  spelled : header.Spelled keyword gap name

theorem placed (t : Text) (header : Header) (member : header ∈ ofText t) :
    ∃ before gap keyword name, header.Placed t before gap keyword name := by
  obtain ⟨before, keyword, gap, name, split, _, word, spelled⟩ := (written_iff t header).mp member
  exact ⟨before, gap, keyword, name, split, word, spelled⟩

namespace Placed

variable {t : Text} {header : Header} {before gap : List Token} {keyword name : Token}
  (placed : header.Placed t before gap keyword name)

include placed

theorem at_name : tokenize t = (before ++ keyword :: gap) ++ name :: header.rest := by simp [placed.split]

theorem at_lead : tokenize t = before ++ (header.lead ++ header.rest) := by simp [placed.split, placed.spelled.lead]

-- Behind the keyword no clause starts, so where one starts at the name a line ends in front of that.
theorem line_break (starts : clauseAfter true (before ++ keyword :: gap) = true) :
    gap.any Token.isLineBreak = true := by
  have read := of_keyword_of_spelled keyword gap name header placed.spelled
  have closed (boundary : Bool) : keyword.clauseAfter boundary = false := by
    rw [Token.clauseAfter, placed.word]
    dsimp only
    rw [keyword_apart keyword _ header read, Bool.and_false]
  rw [clauseAfter, List.foldl_append, List.foldl_cons, closed] at starts
  change clauseAfter false gap = true at starts
  rwa [clause_after_spaces false gap placed.spelled.spaces, Bool.false_or] at starts

-- The keyword of a later header is the name of this one, in front of which a line ends, or stands behind that.
theorem next_behind (next : Header) (member : next ∈ ofText t) (later : header.start < next.start) :
    (next.start = name.start ∧ next.lead.head? = some name ∧ header.rest ≠ [] ∧ gap.any Token.isLineBreak = true) ∨
      ∃ token ∈ header.rest, token.start = next.start := by
  obtain ⟨before', keyword', gap', name', split, starts, word, spelled⟩ := (written_iff t next).mp member
  have increasing := tokenize_increasing t
  have inside : keyword' ∈ tokenize t := by simp [split]
  rw [placed.spelled.start, spelled.start] at later
  rw [placed.split, List.mem_append, List.mem_cons, List.mem_append, List.mem_cons] at inside
  rcases inside with early | rfl | space | rfl | behind
  · rw [placed.split] at increasing
    have sooner := (List.pairwise_append.mp increasing).2.2 keyword' early keyword List.mem_cons_self
    omega
  · omega
  · have space := placed.spelled.spaces keyword' space
    rw [Token.isSpace, word] at space
    contradiction
  · left
    rw [placed.at_name] at increasing split
    obtain ⟨front, _, behind⟩ := increasing.place _ _ _ _ _ _ split rfl
    refine ⟨spelled.start, by rw [spelled.lead]; rfl, by simp [behind], ?_⟩
    rw [← front] at starts
    exact placed.line_break starts
  · exact .inr ⟨keyword', behind, spelled.start.symm⟩

-- The limit of a declaration lies behind its name, or the name is the keyword of the next header.
theorem limit_behind (limit : Option Nat) (limits : header.Limits t limit) :
    (∀ token ∈ header.lead, limit.any (· ≤ token.start) = false) ∨
      limit = some name.start ∧ header.rest ≠ [] ∧ gap.any Token.isLineBreak = true ∧
        ∃ next ∈ ofText t, next.start = name.start ∧ next.lead.head? = some name := by
  cases limit with
  | none => simp
  | some bound =>
    obtain ⟨later, next, member, rfl⟩ := limits.later bound rfl
    rcases placed.next_behind next member later with ⟨same, lead, filled, breaks⟩ | ⟨token, behind, same⟩
    · exact .inr ⟨congrArg some same, filled, breaks, next, member, same, lead⟩
    · left
      intro other among
      have increasing := tokenize_increasing t
      rw [placed.at_lead] at increasing
      have sooner := (List.pairwise_append.mp (List.pairwise_append.mp increasing).2.1).2.2 other among token behind
      simp only [Option.any_some, decide_eq_false_iff_not]
      omega

-- In the first case a token behind the name starts there.
theorem token_at_limit (bound : Nat) (limits : header.Limits t (some bound))
    (apart : ∀ token ∈ header.lead, (some bound).any (· ≤ token.start) = false) :
    ∃ token ∈ header.rest, token.start = bound := by
  obtain ⟨later, next, member, rfl⟩ := limits.later bound rfl
  rcases placed.next_behind next member later with ⟨named, _⟩ | behind
  · have unlimited := apart name (by simp [placed.spelled.lead])
    simp [named] at unlimited
  · exact behind

end Placed

end Header

namespace Declaration

-- The place where a declaration ends.
def EndsAt (t : Text) (declaration : Declaration) : Prop :=
  match declaration.ending with
  | .brace => ∃ token ∈ tokenize t, token.isPunct '\x7d' = true ∧ token.stop = declaration.stop
  | .semicolon => ∃ token ∈ tokenize t, token.isPunct ';' = true ∧ token.stop = declaration.stop
  | .header =>
    (∃ next ∈ Header.ofText t, next.start = declaration.stop) ∧
      ∀ other ∈ Header.ofText t, declaration.start < other.start → declaration.stop ≤ other.start
  | .endOfText => declaration.stop = t.byteSize

-- A declaration that stops at the limit ends there at the next header.
theorem ends_at_limit (t : Text) (header : Header) (bound : Nat) (limits : header.Limits t (some bound))
    (ending : (ofHeader header (some bound)).ending = .header) (stop : (ofHeader header (some bound)).stop = bound) :
    (ofHeader header (some bound)).EndsAt t := by
  rw [EndsAt, ending, stop]
  refine ⟨(limits.later bound rfl).2, ?_⟩
  intro other among later
  obtain ⟨least, limited, reached⟩ := limits.first other among later
  cases limited
  exact reached

theorem of_header_whole (header : Header) (limit : Option Nat)
    (apart : ∀ token ∈ header.lead, limit.any (· ≤ token.start) = false) :
    (ofHeader header limit).tokens = header.lead ++ (extent limit 0 header.rest).1 := by
  have lead : header.lead.takeWhile (fun token => !limit.any (· ≤ token.start)) = header.lead := by
    rw [List.takeWhile_eq_self_iff]
    intro token member
    rw [apart token member]
    rfl
  exact congrArg (· ++ (extent limit 0 header.rest).1) lead

section

variable {t : Text} {header : Header} {before gap : List Token} {keyword name : Token}
  (placed : header.Placed t before gap keyword name)

include placed

theorem stop_behind (limit : Option Nat) :
    (ofHeader header limit).stop = (untokenize (before ++ (ofHeader header limit).tokens)).byteSize := by
  rw [untokenize_append, Text.byte_size_append, stop, text]
  have start := token_start 0 t before _ keyword placed.split
  rw [Nat.zero_add, ← placed.spelled.start] at start
  rw [← start]
  rfl

-- Where the name belongs to the next header, only keyword and white space are left.
theorem of_header_nameless (filled : header.rest ≠ []) :
    ofHeader header (some name.start) = ⟨header.kind, header.name, header.start, keyword :: gap, [], .header⟩ := by
  have increasing := tokenize_increasing t
  rw [placed.split, ← List.cons_append] at increasing
  obtain ⟨_, further, across⟩ := List.pairwise_append.mp (List.pairwise_append.mp increasing).2.1
  have lead : header.lead.takeWhile (fun token => !(some name.start).any (· ≤ token.start)) = keyword :: gap := by
    rw [placed.spelled.lead, List.takeWhile_append_of_pos, List.takeWhile_cons_of_neg (by simp), List.append_nil]
    intro token member
    have sooner := across token member name List.mem_cons_self
    simpa using sooner
  have nothing : extent (some name.start) 0 header.rest = ([], .header) := by
    obtain ⟨first, others, same⟩ := List.exists_cons_of_ne_nil filled
    rw [same] at further
    have sooner := (List.pairwise_cons.mp further).1 first List.mem_cons_self
    rw [same, extent, if_pos (by simpa using Nat.le_of_lt sooner)]
  unfold ofHeader
  rw [nothing, lead]

theorem stop_nameless (filled : header.rest ≠ []) : (ofHeader header (some name.start)).stop = name.start := by
  rw [stop_behind placed, of_header_nameless placed filled, token_start 0 t _ _ name placed.at_name, Nat.zero_add,
    Declaration.tokens, List.append_nil]

theorem ends_nameless (filled : header.rest ≠ []) (limits : header.Limits t (some name.start)) :
    (ofHeader header (some name.start)).EndsAt t :=
  ends_at_limit t header name.start limits (by rw [of_header_nameless placed filled]) (stop_nameless placed filled)

variable (limit : Option Nat) (apart : ∀ token ∈ header.lead, limit.any (· ≤ token.start) = false)

include apart

theorem stop_whole :
    (ofHeader header limit).stop =
      (untokenize (before ++ (header.lead ++ (extent limit 0 header.rest).1))).byteSize := by
  rw [stop_behind placed, of_header_whole header limit apart]

omit apart in
theorem taken_place (after : List Token) (taken : (extent limit 0 header.rest).1 ++ after = header.rest) :
    tokenize t = (before ++ (header.lead ++ (extent limit 0 header.rest).1)) ++ after := by
  rw [List.append_assoc, List.append_assoc, taken, placed.at_lead]

-- The last token of a declaration ends where that does.
theorem stop_of_last (inside : List Token) (last : Token) (taken : (extent limit 0 header.rest).1 = inside ++ [last]) :
    last ∈ tokenize t ∧ last.stop = (ofHeader header limit).stop := by
  obtain ⟨after, further⟩ := extent_taken limit 0 header.rest
  have whole := taken_place placed limit after further
  rw [taken] at whole
  have place : tokenize t = (before ++ (header.lead ++ inside)) ++ last :: after := by simp [whole]
  refine ⟨by simp [place], ?_⟩
  rw [token_stop 0 t _ _ last place, Nat.zero_add, stop_whole placed limit apart, taken]
  simp

-- The first token that is left behind a declaration starts where that ends.
theorem stop_of_next (next : Token) (after : List Token)
    (taken : (extent limit 0 header.rest).1 ++ next :: after = header.rest) :
    next.start = (ofHeader header limit).stop := by
  rw [token_start 0 t _ after next (taken_place placed limit _ taken), Nat.zero_add, stop_whole placed limit apart]

theorem ends_whole (limits : header.Limits t limit) : (ofHeader header limit).EndsAt t := by
  have stops := extent_stops limit 0 header.rest
  have ending : (ofHeader header limit).ending = (extent limit 0 header.rest).2 := rfl
  cases ended : (extent limit 0 header.rest).2 with
  | brace =>
    rw [EndsAt, ending, ended]
    rw [ended] at stops
    obtain ⟨inside, last, taken, punct⟩ := stops
    obtain ⟨member, stop⟩ := stop_of_last placed limit apart inside last taken
    exact ⟨last, member, punct, stop⟩
  | semicolon =>
    rw [EndsAt, ending, ended]
    rw [ended] at stops
    obtain ⟨inside, last, taken, punct⟩ := stops
    obtain ⟨member, stop⟩ := stop_of_last placed limit apart inside last taken
    exact ⟨last, member, punct, stop⟩
  | header =>
    rw [ended] at stops
    obtain ⟨⟨next, after, rest, beyond⟩, others⟩ := stops
    cases limit with
    | none => contradiction
    | some bound =>
      have reached : bound ≤ next.start := by simpa using beyond
      -- The keyword of the next header is the first token that is left.
      have same : next.start = bound := by
        obtain ⟨token, behind, start⟩ := placed.token_at_limit bound limits apart
        rw [rest, List.mem_append, List.mem_cons] at behind
        rcases behind with inside | rfl | further
        · have unlimited := others token inside
          simp [start] at unlimited
        · exact start
        · have increasing := tokenize_increasing t
          rw [taken_place placed (some bound) _ rest.symm] at increasing
          have sooner := (List.pairwise_cons.mp (List.pairwise_append.mp increasing).2.1).1 token further
          omega
      have stop := stop_of_next placed (some bound) apart next after rest.symm
      exact ends_at_limit t header bound limits (ending.trans ended) (stop.symm.trans same)
  | endOfText =>
    rw [EndsAt, ending, ended]
    rw [ended] at stops
    have whole := taken_place placed limit [] (by rw [stops, List.append_nil])
    rw [List.append_nil] at whole
    change (ofHeader header limit).stop = t.byteSize
    rw [stop_whole placed limit apart, ← whole, tokenize, untokenize_tokens_from]

end

theorem of_text_limits (t : Text) (declaration : Declaration) (member : declaration ∈ ofText t) :
    ∃ header ∈ Header.ofText t, ∃ limit, header.Limits t limit ∧ declaration = ofHeader header limit := by
  obtain ⟨_, before, header, after, split, rfl⟩ := of_headers_at 0 (Header.ofText t) declaration member
  exact ⟨header, by simp [split], _, Header.limits_of_split t before after header split, rfl⟩

end Declaration

end SchemaDiagram
