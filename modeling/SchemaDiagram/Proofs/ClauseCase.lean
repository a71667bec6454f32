import SchemaDiagram.Proofs.ClauseTokens

/-!
A clause with its words spelled in another case. The reader of lines knows them in any case, so each part of the line
is the same part again, and what stands for the clause is a clause.
-/

set_option autoImplicit false

namespace SchemaDiagram

open Text TypeClause BodyLine

namespace BodyLine

theorem sides_append (depth : Nat) (tokens first second : List Token)
    (split : splitAtColon? depth tokens = some (first, second)) :
    ∃ colon, colon.isPunct ':' = true ∧ tokens = first ++ colon :: second := by
  induction tokens generalizing depth first with
  | nil => contradiction
  | cons token rest ih =>
    rw [splitAtColon?] at split
    split at split
    · rename_i here
      obtain ⟨rfl, rfl⟩ := Prod.mk.inj (Option.some.inj split)
      rw [Bool.and_eq_true] at here
      exact ⟨token, here.2, rfl⟩
    · obtain ⟨parts, found, same⟩ := Option.map_eq_some_iff.mp split
      obtain ⟨rfl, rfl⟩ := Prod.mk.inj same
      obtain ⟨colon, isColon, whole⟩ := ih _ _ found
      exact ⟨colon, isColon, congrArg (token :: ·) whole⟩

theorem type_text_lower (spell : Token → Text) (conditional : Bool) (depth : Nat) (tokens : List Token)
    (recases : ∀ token ∈ tokens, (spell token).asciiLower = token.text.asciiLower) :
    (typeText conditional depth (tokens.map (Token.spelled spell))).asciiLower =
      (typeText conditional depth tokens).asciiLower := by
  rw [type_text_kept, type_text_kept, kept_spelled spell conditional depth tokens recases, List.flatMap_map, asciiLower,
    asciiLower, List.map_flatMap, List.map_flatMap]
  apply List.flatMap_congr
  intro token member
  have same := recases token ((kept_sublist conditional depth tokens).subset member)
  change (if token.isSpace then [' '] else spell token).map Char.toLower = _
  unfold shown
  split
  · rfl
  · exact same

end BodyLine

theorem TypeClause.starts_iff (t : Text) : Starts t ↔ t.head?.any (fun c => !isWhite c && c ≠ '[') = true := by
  cases t with
  | nil => simp [Starts]
  | cons c t => simp [Starts]

theorem TypeClause.starts_lower (t u : Text) (same : t.asciiLower = u.asciiLower) (starts : Starts t) : Starts u := by
  rw [starts_iff] at starts ⊢
  rw [← starts]
  exact (head_any_lower t u same _ (lower_keeps _ (by decide +kernel))).symm

namespace Keyword

def spelled (spell : Token → Text) (keyword : Keyword) : Keyword :=
  ⟨keyword.word.spelled spell, keyword.gap.map (Token.spelled spell)⟩

theorem mem_before (keyword? : Option Keyword) (rest : List Token) (token : Token) :
    token ∈ before keyword? rest ↔ (∃ keyword, keyword? = some keyword ∧ token ∈ keyword.tokens) ∨ token ∈ rest := by
  cases keyword? with
  | none => simp [before]
  | some keyword => simp [before]

theorem suffix_before (keyword? : Option Keyword) (rest : List Token) : rest <:+ before keyword? rest := by
  cases keyword? with
  | none => exact List.suffix_refl rest
  | some keyword => exact List.suffix_append keyword.tokens rest

theorem before_spelled (spell : Token → Text) (keyword? : Option Keyword) (rest : List Token) :
    before (keyword?.map (spelled spell)) (rest.map (Token.spelled spell)) =
      (before keyword? rest).map (Token.spelled spell) := by
  cases keyword? with
  | none => rfl
  | some keyword => simp [before, tokens, spelled]

theorem Stands.spelled (spell : Token → Text) {keyword : Keyword} {words : List Text} {behind other : Text}
    (stands : keyword.Stands words behind) (same : (spell keyword.word).asciiLower = keyword.word.text.asciiLower)
    (lower : behind.asciiLower = other.asciiLower) : (keyword.spelled spell).Stands words other := by
  obtain ⟨word, member, read⟩ := stands.among
  refine ⟨⟨word, member, (keyword.word.is_word_spelled spell same word).trans read⟩, ?_, ?_⟩
  · exact List.forall_mem_map.mpr stands.blank
  · intro nothing
    rw [← head_any_lower behind other lower isWordUnit word_unit_lower]
    exact stands.ends (List.map_eq_nil_iff.mp nothing)

end Keyword

namespace Clause

variable (clause : Clause)

def spelled (spell : Token → Text) : Clause where
  name := clause.name.map (Token.spelled spell)
  before := clause.before.map (Token.spelled spell)
  main := clause.main.spelled spell
  link := clause.link.map (Keyword.spelled spell)
  count := clause.count.map (Keyword.spelled spell)
  target := clause.target.map (Token.spelled spell)
  on := clause.on.map (Token.spelled spell)

-- The words in front of the target.
def leads : List Token := clause.main.word :: (clause.link.toList ++ clause.count.toList).map Keyword.word

-- Another case for the words of a clause, and for nothing else of its line.
structure Recases (spell : Token → Text) (line : Text) : Prop where
  cases : SchemaDiagram.Recases spell line
  others : ∀ token ∈ tokenize line, token ∉ clause.leads ++ clause.on.toList → spell token = token.text

theorem target_behind : clause.target <:+ clause.behindLink ∧ clause.behindLink <:+ clause.behindMain ∧
    clause.behindMain <:+ clause.tokens := by
  refine ⟨Keyword.suffix_before _ _, Keyword.suffix_before _ _, ?_⟩
  rw [tokens, ← List.append_assoc]
  exact List.suffix_append _ _

theorem target_in_tokens : clause.target ⊆ clause.tokens :=
  (clause.target_behind.1.trans (clause.target_behind.2.1.trans clause.target_behind.2.2)).subset

theorem main_in_tokens : clause.main.word ∈ clause.tokens := by simp [tokens, Keyword.tokens]

theorem link_in_tokens (keyword : Keyword) (linked : clause.link = some keyword) : keyword.word ∈ clause.tokens := by
  simp only [tokens, List.mem_append, behindMain, Keyword.mem_before]
  exact .inr (.inr (.inl ⟨keyword, linked, List.mem_cons_self⟩))

theorem count_in_tokens (keyword : Keyword) (counted : clause.count = some keyword) : keyword.word ∈ clause.tokens := by
  simp only [tokens, List.mem_append, behindMain, behindLink, Keyword.mem_before]
  exact .inr (.inr (.inr (.inl ⟨keyword, counted, List.mem_cons_self⟩)))

theorem behind_link_in_tokens : clause.behindLink ⊆ clause.tokens :=
  (clause.target_behind.2.1.trans clause.target_behind.2.2).subset

section

variable (spell : Token → Text)

theorem behind_link_spelled : (clause.spelled spell).behindLink = clause.behindLink.map (Token.spelled spell) :=
  Keyword.before_spelled spell clause.count clause.target

theorem behind_main_spelled : (clause.spelled spell).behindMain = clause.behindMain.map (Token.spelled spell) := by
  rw [behindMain, behind_link_spelled]
  exact Keyword.before_spelled spell clause.link clause.behindLink

theorem tokens_spelled : (clause.spelled spell).tokens = clause.tokens.map (Token.spelled spell) := by
  rw [tokens, behind_main_spelled]
  simp [tokens, spelled, Keyword.tokens, Keyword.spelled]

section

variable (each : ∀ token ∈ clause.tokens, (spell token).asciiLower = token.text.asciiLower)

include each

theorem conditional_spelled : (clause.spelled spell).conditional = clause.conditional := by
  rw [conditional, tokens_spelled]
  exact BodyLine.conditional_spelled spell clause.tokens each

theorem text_spelled (tokens : List Token) (inside : tokens ⊆ clause.tokens) :
    (clause.text tokens).asciiLower = ((clause.spelled spell).text (tokens.map (Token.spelled spell))).asciiLower := by
  rw [text, text, clause.conditional_spelled spell each]
  exact (type_text_lower spell _ 0 tokens fun token member => each token (inside member)).symm

theorem is_array_spelled : (clause.spelled spell).isArray = clause.isArray := by
  have main := each clause.main.word clause.main_in_tokens
  have same (word : Text) : (clause.spelled spell).main.word.isWord word = clause.main.word.isWord word :=
    clause.main.word.is_word_spelled spell main word
  rw [isArray, same, same, isArray]

theorem reserved_spelled : (clause.spelled spell).reserved = clause.reserved := by
  rw [reserved, clause.is_array_spelled spell each, reserved]
  simp [spelled]

end

theorem unread_spelled (same : ∀ word ∈ clause.leads, spell word = word.text) :
    (clause.spelled spell).unread = clause.unread.map (Token.spelled spell) := by
  have linked : (clause.spelled spell).link.all (·.isSpelled linkWords) = clause.link.all (·.isSpelled linkWords) := by
    change (clause.link.map (Keyword.spelled spell)).all _ = _
    cases link : clause.link with
    | none => rfl
    | some keyword => exact congrArg (linkWords.elem ·) (same keyword.word (by simp [leads, link]))
  have counted : (clause.spelled spell).count.all (·.isSpelled countWords) =
      clause.count.all (·.isSpelled countWords) := by
    change (clause.count.map (Keyword.spelled spell)).all _ = _
    cases count : clause.count with
    | none => rfl
    | some keyword => exact congrArg (countWords.elem ·) (same keyword.word (by simp [leads, count]))
  rw [unread, linked, counted, behind_link_spelled, behind_main_spelled, unread]
  split
  · split <;> rfl
  · rfl

theorem found_spelled (same : ∀ word ∈ clause.leads, spell word = word.text) :
    (clause.spelled spell).found = clause.found := by
  have main (words : List Text) : (clause.spelled spell).main.isSpelled words = clause.main.isSpelled words :=
    congrArg (words.elem ·) (same clause.main.word List.mem_cons_self)
  have linked : (clause.spelled spell).link.all (·.isSpelled ["of"]) = clause.link.all (·.isSpelled ["of"]) := by
    change (clause.link.map (Keyword.spelled spell)).all _ = _
    cases link : clause.link with
    | none => rfl
    | some keyword => exact congrArg (List.elem · ["of".toList]) (same keyword.word (by simp [leads, link]))
  rw [found, main, main, linked, found]

-- Every other token of the line stays when only the word of the condition is spelled otherwise.
theorem others_same (line : Text) (recases : clause.Recases spell line)
    (same : ∀ word ∈ clause.leads, spell word = word.text)
    (token : Token) (member : token ∈ tokenize line) (other : token ∉ clause.on) : spell token = token.text := by
  by_cases lead : token ∈ clause.leads
  · exact same token lead
  · apply recases.others token member
    rw [List.mem_append, not_or]
    exact ⟨lead, fun on => other (Option.mem_toList.mp on)⟩

variable {line : Text} (stands : clause.Stands line)

include stands

theorem parts_distinct : ∃ colon, code (tokenize line) = clause.name ++ colon :: clause.tokens ∧
    (clause.name ++ colon :: clause.tokens).Nodup := by
  obtain ⟨colon, _, whole⟩ := sides_append 0 _ _ _ stands.sides
  refine ⟨colon, whole, ?_⟩
  rw [← whole]
  exact (tokens_distinct 0 line).sublist List.filter_sublist

theorem part_of_line (token : Token) (member : token ∈ clause.name ∨ token ∈ clause.tokens) :
    token ∈ tokenize line := by
  obtain ⟨colon, whole, _⟩ := clause.parts_distinct stands
  have inside : token ∈ code (tokenize line) := by
    rw [whole, List.mem_append, List.mem_cons]
    exact member.imp_right .inr
  exact (List.mem_filter.mp inside).1

theorem keyword_in_tokens (token : Token) (member : token ∈ clause.leads ++ clause.on.toList) :
    token ∈ clause.tokens := by
  simp only [leads, List.mem_append, List.mem_cons, List.mem_map, Option.mem_toList] at member
  rcases member with (rfl | ⟨keyword, linked | counted, rfl⟩) | condition
  · exact clause.main_in_tokens
  · exact clause.link_in_tokens keyword linked
  · exact clause.count_in_tokens keyword counted
  · obtain ⟨_, front, space, behind, split, _⟩ := stands.condition token condition
    exact clause.target_in_tokens (by simp [split])

-- The name is in front of the colon, and the words of the clause behind it.
theorem name_spelled (recases : clause.Recases spell line) : clause.name.map (Token.spelled spell) = clause.name := by
  obtain ⟨colon, _, distinct⟩ := clause.parts_distinct stands
  apply Token.spelled_same
  intro token member
  apply recases.others token (clause.part_of_line stands token (.inl member))
  intro keyword
  have inside := clause.keyword_in_tokens stands token keyword
  exact (List.nodup_append.mp distinct).2.2 token member token (List.mem_cons_of_mem colon inside) rfl

theorem spelled_stands (recases : clause.Recases spell line) :
    (clause.spelled spell).Stands (respelled spell line) := by
  have each (token : Token) (member : token ∈ clause.tokens) : (spell token).asciiLower = token.text.asciiLower :=
    recases.cases token (clause.part_of_line stands token (.inr member))
  have targetLower : (clause.text clause.target).asciiLower =
      ((clause.spelled spell).text (clause.spelled spell).target).asciiLower :=
    clause.text_spelled spell each _ clause.target_in_tokens
  have linkLower := clause.text_spelled spell each _ clause.behind_link_in_tokens
  have mainLower := clause.text_spelled spell each _ clause.target_behind.2.2.subset
  rw [← behind_link_spelled] at linkLower
  rw [← behind_main_spelled] at mainLower
  constructor
  case sides =>
    have inCode (token : Token) (member : token ∈ code (tokenize line)) :=
      recases.cases token (List.mem_filter.mp member).1
    rw [tokenize_respelled spell line recases.cases, code_spelled spell _ recases.cases, split_spelled spell 0 _ inCode,
      stands.sides, tokens_spelled]
    rfl
  case named =>
    change elementName (clause.name.map (Token.spelled spell)) ≠ []
    rw [clause.name_spelled spell stands recases]
    exact stands.named
  case before => exact List.forall_mem_map.mpr stands.before
  case main => exact stands.main.spelled spell (each _ clause.main_in_tokens) mainLower
  case link =>
    intro keyword found
    obtain ⟨keyword, linked, rfl⟩ := Option.map_eq_some_iff.mp found
    exact (stands.link keyword linked).spelled spell (each _ (clause.link_in_tokens keyword linked)) linkLower
  case count =>
    intro keyword found
    obtain ⟨keyword, counted, rfl⟩ := Option.map_eq_some_iff.mp found
    exact (stands.count keyword counted).spelled spell (each _ (clause.count_in_tokens keyword counted)) targetLower
  case array =>
    intro isArray
    rw [clause.is_array_spelled spell each] at isArray
    obtain ⟨uncounted, linked, ofs⟩ := stands.array isArray
    refine ⟨congrArg (Option.map (Keyword.spelled spell)) uncounted, ?_, ?_⟩
    · exact (Option.isSome_map.trans linked).trans
        (clause.main.word.is_word_spelled spell (each _ clause.main_in_tokens) "array").symm
    · change (clause.link.map (Keyword.spelled spell)).all (·.word.isWord "of") = true
      cases link : clause.link with
      | none => rfl
      | some keyword =>
        rw [link] at ofs
        exact (keyword.word.is_word_spelled spell (each _ (clause.link_in_tokens keyword link)) "of").trans ofs
  case starts => exact starts_lower _ _ targetLower stands.starts
  case unread =>
    rw [clause.reserved_spelled spell each, ← targetLower]
    exact stands.unread
  case condition =>
    intro on found
    obtain ⟨on, condition, rfl⟩ := Option.map_eq_some_iff.mp found
    obtain ⟨read, front, space, behind, split, blank, ends⟩ := stands.condition on condition
    have member : on ∈ clause.tokens := clause.target_in_tokens (by simp [split])
    refine ⟨(on.is_word_spelled spell (each on member) "on").trans read, front.map (Token.spelled spell),
      space.spelled spell, behind.map (Token.spelled spell), ?_, blank, ?_⟩
    · change clause.target.map (Token.spelled spell) = _
      rw [split, List.map_append, List.map_cons, List.map_cons]
    · cases behind with
      | nil => rfl
      | cons token behind =>
        have inside : token ∈ clause.tokens := clause.target_in_tokens (by simp [split])
        have head := token.head_spelled spell (each token inside) isWordUnit word_unit_lower
        change (token.isSpace || !(spell token).head?.any isWordUnit) = true
        rw [head]
        exact ends

end

end Clause

end SchemaDiagram
