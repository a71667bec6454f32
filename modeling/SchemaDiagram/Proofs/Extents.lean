import SchemaDiagram.Proofs.Headers

/-!
Where declarations stand. A header is found at its keyword, and its declaration takes tokens from there on without
leaving one out, so that its text is a stretch of the source.
-/

set_option autoImplicit false

namespace SchemaDiagram

theorem untokenize_append (a b : List Token) : untokenize (a ++ b) = untokenize a ++ untokenize b :=
  List.flatMap_append

-- Tokens next to each other are a stretch of the text.
theorem stretch_of_tokens (t : Text) (before inside after : List Token)
    (split : tokenize t = before ++ (inside ++ after)) :
    t = untokenize before ++ (untokenize inside ++ untokenize after) := by
  have whole := untokenize_tokens_from 0 t
  rw [← tokenize, split, untokenize_append, untokenize_append] at whole
  exact whole.symm

theorem token_start (start : Nat) (t : Text) (before after : List Token) (token : Token)
    (split : tokensFrom start t = before ++ token :: after) :
    token.start = start + (untokenize before).byteSize := by
  induction before generalizing start t with
  | nil =>
    cases t with
    | nil =>
      rw [tokensFrom] at split
      contradiction
    | cons c t =>
      rw [tokensFrom] at split
      rw [← (List.cons.inj split).1]
      rfl
  | cons first before ih =>
    cases t with
    | nil =>
      rw [tokensFrom] at split
      contradiction
    | cons c t =>
      rw [tokensFrom] at split
      obtain ⟨rfl, others⟩ := List.cons.inj split
      rw [ih _ _ others, untokenize, untokenize, List.flatMap_cons, Text.byte_size_append, Nat.add_assoc]

theorem token_stop (start : Nat) (t : Text) (before after : List Token) (token : Token)
    (split : tokensFrom start t = before ++ token :: after) :
    token.stop = start + (untokenize (before ++ [token])).byteSize := by
  have last : untokenize [token] = token.text := List.flatMap_singleton Token.text token
  rw [Token.stop, token_start start t before after token split, untokenize_append, last, Text.byte_size_append,
    Nat.add_assoc]

-- Each token starts no later than the ones behind it.
def Ordered (tokens : List Token) : Prop := tokens.Pairwise fun a b => a.start ≤ b.start

theorem start_le_of_token (start : Nat) (t : Text) : ∀ token ∈ tokensFrom start t, start ≤ token.start := by
  intro token member
  obtain ⟨before, after, split⟩ := List.append_of_mem member
  rw [token_start start t before after token split]
  exact Nat.le_add_right _ _

theorem token_filled (start : Nat) (t : Text) : ∀ token ∈ tokensFrom start t, token.start < token.stop := by
  fun_induction tokensFrom start t with
  | case1 => simp
  | case2 start c t cut ih =>
    rw [List.forall_mem_cons]
    exact ⟨Nat.lt_add_of_pos_right (Text.byte_size_pos _ (Scan.cut_lexeme_ne_nil c t)), ih⟩

theorem tokens_apart (start : Nat) (t : Text) : (tokensFrom start t).Pairwise fun a b => a.stop ≤ b.start := by
  fun_induction tokensFrom start t with
  | case1 => exact .nil
  | case2 start c t cut ih => exact .cons (start_le_of_token _ _) ih

theorem tokens_ordered (start : Nat) (t : Text) : Ordered (tokensFrom start t) :=
  (tokens_apart start t).imp fun apart => Nat.le_trans (Nat.le_add_right _ _) apart

-- No two tokens start at one place.
def Increasing (tokens : List Token) : Prop := tokens.Pairwise fun a b => a.start < b.start

theorem tokens_increasing (start : Nat) (t : Text) : Increasing (tokensFrom start t) :=
  (tokens_apart start t).imp_of_mem fun member _ apart => Nat.lt_of_lt_of_le (token_filled start t _ member) apart

theorem tokenize_increasing (t : Text) : Increasing (tokenize t) := tokens_increasing 0 t

theorem Increasing.place (before before' after after' : List Token) (token other : Token)
    (increasing : Increasing (before ++ token :: after)) (split : before ++ token :: after = before' ++ other :: after')
    (same : token.start = other.start) : before = before' ∧ token = other ∧ after = after' := by
  induction before generalizing before' with
  | nil =>
    cases before' with
    | nil => exact ⟨rfl, List.cons.inj split⟩
    | cons first before' =>
      obtain ⟨rfl, behind⟩ := List.cons.inj split
      have later := (List.pairwise_cons.mp increasing).1 other (by rw [behind]; simp)
      omega
  | cons first before ih =>
    cases before' with
    | nil =>
      obtain ⟨rfl, behind⟩ := List.cons.inj split
      have later := (List.pairwise_cons.mp increasing).1 token (by simp)
      omega
    | cons first' before' =>
      obtain ⟨rfl, behind⟩ := List.cons.inj split
      obtain ⟨rfl, others⟩ := ih before' (List.pairwise_cons.mp increasing).2 behind
      exact ⟨rfl, others⟩

namespace Header

def tokens (header : Header) : List Token := header.lead ++ header.rest

-- A header found at its keyword, with the tokens that follow.
structure Stands (tokens : List Token) (header : Header) : Prop where
  keyword : ∃ token more, header.lead = token :: more ∧ token.start = header.start
  behind : header.tokens <:+ tokens

theorem collected_stands (boundary : Bool) (tokens : List Token) :
    ∀ header ∈ collect boundary tokens, Stands tokens header := by
  intro header member
  obtain ⟨before, keyword, gap, name, spelled, _, rfl⟩ := collected_spelled boundary tokens header member
  refine ⟨⟨keyword, gap ++ [name], spelled.lead, spelled.start.symm⟩, before, ?_⟩
  simp [Header.tokens, spelled.lead]

theorem collected_start (boundary : Bool) (tokens : List Token) :
    ∀ header ∈ collect boundary tokens, ∃ token ∈ tokens, header.start = token.start := by
  intro header member
  obtain ⟨before, keyword, gap, name, spelled, _, rfl⟩ := collected_spelled boundary tokens header member
  exact ⟨keyword, by simp, spelled.start⟩

-- At most one header begins with a token, and the others begin behind it.
theorem collected_increasing (boundary : Bool) (tokens : List Token) (increasing : Increasing tokens) :
    (collect boundary tokens).Pairwise fun a b => a.start < b.start := by
  induction tokens generalizing boundary with
  | nil => exact .nil
  | cons token rest ih =>
    obtain ⟨first, later⟩ := List.pairwise_cons.mp increasing
    have here : ∀ header ∈ (ofKeyword? token rest).toList, header.start = token.start := by
      intro header member
      obtain ⟨_, _, spelled, _⟩ := of_keyword_spelled token rest header (Option.mem_toList.mp member)
      exact spelled.start
    rw [collect_step, List.pairwise_append]
    refine ⟨?_, ih _ later, ?_⟩
    · split
      · cases ofKeyword? token rest <;> simp
      · exact .nil
    · intro header member other behind
      obtain ⟨next, inside, start⟩ := collected_start _ _ other behind
      split at member
      · rw [here header member, start]
        exact first next inside
      · contradiction

end Header

namespace Declaration

theorem of_headers_apart (consumed : Nat) (headers : List Header) :
    (ofHeaders consumed headers).Pairwise fun a b => a.stop ≤ b.start := by
  induction headers generalizing consumed with
  | nil => exact .nil
  | cons header others ih =>
    rw [ofHeaders]
    split
    · exact ih consumed
    · exact .cons (fun other member => (of_headers_at _ others other member).1) (ih _)

theorem extent_taken (limit : Option Nat) (depth : Nat) (tokens : List Token) :
    (extent limit depth tokens).1 <+: tokens := by
  have onward (token : Token) (rest : List Token) (more : List Token × Ending) (inside : more.1 <+: rest) :
      (goesOn token more).1 <+: token :: rest := (List.prefix_cons_inj token).mpr inside
  have single (token : Token) (rest : List Token) : [token] <+: token :: rest := ⟨rest, rfl⟩
  fun_induction extent limit depth tokens with
  | case1 => exact List.prefix_refl _
  | case2 => exact List.nil_prefix
  | case3 depth token rest _ _ ih => exact onward token rest _ ih
  | case4 token rest => exact single token rest
  | case5 depth token rest _ _ _ _ ih => exact onward token rest _ ih
  | case6 depth token rest => exact single token rest
  | case7 depth token rest _ _ _ _ ih => exact onward token rest _ ih

theorem extent_header (limit : Nat) (tokens : List Token) (filled : tokens ≠ [])
    (beyond : ∀ token ∈ tokens, limit ≤ token.start) : extent (some limit) 0 tokens = ([], .header) := by
  obtain ⟨token, rest, rfl⟩ := List.exists_cons_of_ne_nil filled
  have first := beyond token List.mem_cons_self
  rw [extent, if_pos (by simpa using first)]

theorem extent_beyond (limit : Nat) (tokens : List Token) (beyond : ∀ token ∈ tokens, limit ≤ token.start) :
    (extent (some limit) 0 tokens).1 = [] := by
  by_cases filled : tokens = []
  · rw [filled, extent]
  · rw [extent_header limit tokens filled beyond]

-- Where the name belongs to the next header already, nothing behind it is taken.
theorem of_header_tokens (header : Header) (limit : Option Nat) (ordered : Ordered header.tokens) :
    (ofHeader header limit).tokens <+: header.tokens := by
  have lead : header.lead.takeWhile (fun token => !limit.any (· ≤ token.start)) <+: header.lead :=
    List.takeWhile_prefix _
  change header.lead.takeWhile _ ++ (extent limit 0 header.rest).1 <+: header.lead ++ header.rest
  cases early : header.lead.any fun token => limit.any (· ≤ token.start) with
  | false =>
    have whole : header.lead.takeWhile (fun token => !limit.any (· ≤ token.start)) = header.lead := by
      rw [List.takeWhile_eq_self_iff]
      intro token member
      simpa using List.any_eq_false.mp early token member
    rw [whole]
    exact (List.prefix_append_right_inj _).mpr (extent_taken limit 0 header.rest)
  | true =>
    obtain ⟨token, member, before⟩ := List.any_eq_true.mp early
    cases limit with
    | none => contradiction
    | some limit =>
      rw [extent_beyond limit header.rest, List.append_nil]
      · exact lead.trans (List.prefix_append _ _)
      · intro other behind
        have follows := (List.pairwise_append.mp ordered).2.2 token member other behind
        exact Nat.le_trans (of_decide_eq_true before) follows

theorem of_header_stands (t : Text) (header : Header) (member : header ∈ Header.ofText t) (limit : Option Nat) :
    ∃ before after, tokenize t = before ++ ((ofHeader header limit).tokens ++ after) ∧
      header.start = (untokenize before).byteSize := by
  obtain ⟨⟨keyword, more, lead, start⟩, before, split⟩ := Header.collected_stands true _ header member
  have ordered : Ordered header.tokens :=
    (tokens_ordered 0 t).sublist (List.IsSuffix.sublist ⟨before, split⟩)
  obtain ⟨after, taken⟩ := of_header_tokens header limit ordered
  refine ⟨before, after, ?_, ?_⟩
  · rw [taken, split]
  · have first : tokenize t = before ++ keyword :: (more ++ header.rest) := by
      rw [← split, Header.tokens, lead]
      rfl
    rw [← start, token_start 0 t before _ keyword first, Nat.zero_add]

theorem text_of_source (t : Text) (header : Header) (member : header ∈ Header.ofText t) (limit : Option Nat) :
    ∃ front behind, t = front ++ ((ofHeader header limit).text ++ behind) ∧ header.start = front.byteSize := by
  obtain ⟨before, after, split, start⟩ := of_header_stands t header member limit
  exact ⟨untokenize before, untokenize after, stretch_of_tokens t before _ after split, start⟩

end Declaration

end SchemaDiagram
