import Mathlib.Data.List.Nodup
import SchemaDiagram.Proofs.ClauseCase
import SchemaDiagram.Rendering

/-!
The case of the words of a clause. A line in another case is the same element, and its type is the same but for the
case. The reader of types knows each word in one case only: of what is spelled otherwise it makes a name. The word
that begins a condition is the only one whose case changes nothing.
-/

set_option autoImplicit false

namespace SchemaDiagram

open Text TypeClause BodyLine

namespace BodyLine

theorem read_sides (line : Text) (name type : List Token)
    (sides : splitAtColon? 0 (code (tokenize line)) = some (name, type)) :
    BodyLine.read line = ofSides name type := by
  obtain ⟨colon, isColon, whole⟩ := sides_append 0 _ name type sides
  have solid : (code (tokenize line)).all Token.isSpace = false := by
    have apart : colon.isSpace = false := by
      simp only [Token.isPunct, Bool.and_eq_true, decide_eq_true_eq] at isColon
      simp [Token.isSpace, isColon.1]
    rw [whole, List.all_append, List.all_cons, apart, Bool.false_and, Bool.and_false]
  unfold BodyLine.read ofTokens
  dsimp only
  rw [solid, if_neg Bool.false_ne_true, sides]

theorem read_of_sides (line : Text) (name type : List Token)
    (sides : splitAtColon? 0 (code (tokenize line)) = some (name, type)) (named : elementName name ≠ [])
    (typed : elementType type ≠ []) : BodyLine.read line = .element (elementName name) (elementType type) :=
  (read_sides line name type sides).trans (if_neg (by simp [named, typed]))

-- Of what stands behind a space the type shows nothing, or the space as well.
theorem kept_behind_space (conditional : Bool) (depth : Nat) (front : List Token) (space on : Token)
    (behind : List Token) (blank : space.isSpace = true) (read : on.isWord "on" = true) :
    (∀ token ∈ kept conditional depth (front ++ space :: on :: behind), token ∈ front) ∨
      ∃ shown more, kept conditional depth (front ++ space :: on :: behind) = shown ++ space :: on :: more ∧
        shown ⊆ front := by
  induction front generalizing depth with
  | nil =>
    right
    obtain ⟨solid, wordless⟩ := space_is_no_word space blank
    obtain ⟨kind, _, _, told⟩ := on.word_of_keyword "on" (by decide) read
    refine ⟨[], kept conditional depth behind, ?_, List.nil_subset _⟩
    rw [List.nil_append, kept_word conditional depth space _ solid fun silent _ => wordless silent,
      kept_word conditional depth on _ (by simp [kind]) told]
    rfl
  | cons token front ih =>
    rw [List.cons_append, kept]
    split
    · exact .inl fun other member => by cases member
    · split
      · rcases ih depth with alone | ⟨shown, more, split, inside⟩
        · exact .inl fun other member => List.mem_cons_of_mem token (alone other member)
        · exact .inr ⟨shown, more, split, fun other member => List.mem_cons_of_mem token (inside member)⟩
      · rcases ih (token.depthAfter depth) with alone | ⟨shown, more, split, inside⟩
        · left
          intro other member
          rcases List.mem_cons.mp member with rfl | later
          · exact List.mem_cons_self
          · exact List.mem_cons_of_mem token (alone other later)
        · exact .inr ⟨token :: shown, more, congrArg (token :: ·) split, List.cons_subset_cons token inside⟩

theorem first_word_stays (spell : Token → Text) (conditional : Bool) (tokens front behind : List Token)
    (space on : Token) (split : tokens = front ++ space :: on :: behind) (blank : space.isSpace = true)
    (read : on.isWord "on" = true)
    (recases : ∀ token ∈ tokens, (spell token).asciiLower = token.text.asciiLower)
    (fixed : ∀ token ∈ front, spell token = token.text) :
    (typeText conditional 0 (tokens.map (Token.spelled spell))).takeWhile (!isWhite ·) =
      (typeText conditional 0 tokens).takeWhile (!isWhite ·) := by
  rw [type_text_kept, type_text_kept, kept_spelled spell conditional 0 tokens recases]
  have front := kept_behind_space conditional 0 front space on behind blank read
  rw [← split] at front
  rcases front with alone | ⟨shownFront, more, shape, inside⟩
  · rw [Token.spelled_same spell _ fun token member => fixed token (alone token member)]
  · have same := Token.spelled_same spell shownFront fun token member => fixed token (inside member)
    have gap (other : Token) (isSpace : other.isSpace = true) (rest : List Token) (lead : Text) :
        (lead ++ (other :: rest).flatMap shown).takeWhile (!isWhite ·) = lead.takeWhile (!isWhite ·) := by
      rw [List.flatMap_cons, shown, if_pos isSpace, List.takeWhile_append]
      split
      · rename_i all
        have whole := (List.takeWhile_prefix (l := lead) (!isWhite ·)).eq_of_length all
        rw [whole]
        exact List.append_nil lead
      · rfl
    rw [shape, List.map_append, same, List.map_cons, List.flatMap_append, List.flatMap_append,
      gap space blank, gap (space.spelled spell) blank]

end BodyLine

/-! What is around a word in the line without its remarks. -/

-- What a token of a text is like.
structure Token.Formed (token : Token) : Prop extends token.Shaped where
  filled : token.text ≠ []

theorem Token.formed (start : Nat) (t : Text) (token : Token) (member : token ∈ tokensFrom start t) :
    token.Formed := by
  refine ⟨token_shaped start t token member, ?_⟩
  obtain ⟨c, front, _, text, _⟩ := cut_of_token start t token member
  rw [text]
  exact List.cons_ne_nil c front

namespace BodyLine

-- What no type takes a token of leaves nothing or no word character.
theorem without_remark_unseen (token : Token) (formed : token.Formed)
    (unseen : (!token.isRemark && !token.isPunct ';') = false) :
    token.withoutRemark = [] ∨ token.withoutRemark = [' '] ∨ token.withoutRemark = [';'] := by
  rw [Bool.and_eq_false_iff, Bool.not_eq_false', Bool.not_eq_false'] at unseen
  rcases unseen with remark | semicolon
  · simp only [Token.isRemark, Bool.or_eq_true, decide_eq_true_eq] at remark
    rcases remark with comment | tag
    · left
      rw [Token.withoutRemark, comment]
    · right
      left
      rw [Token.withoutRemark, tag]
  · simp only [Token.isPunct, Bool.and_eq_true, decide_eq_true_eq] at semicolon
    obtain ⟨c, text⟩ := formed.punct semicolon.1
    right
    right
    rw [Token.withoutRemark, semicolon.1]
    rw [text] at semicolon ⊢
    rw [Option.some.inj semicolon.2]

theorem without_remark_seen (token : Token) (seen : token.isRemark = false) : token.withoutRemark = token.text := by
  simp only [Token.isRemark, Bool.or_eq_false_iff, decide_eq_false_iff_not] at seen
  unfold Token.withoutRemark
  split
  · rename_i tag
    exact absurd tag seen.2
  · rename_i comment
    exact absurd comment seen.1
  · rfl

theorem word_starts_behind (tokens : List Token) (formed : ∀ token ∈ tokens, token.Formed)
    (parted : (code tokens).head?.all Clause.parts = true) :
    (tokens.flatMap Token.withoutRemark).head?.any isWordUnit = false := by
  induction tokens with
  | nil => rfl
  | cons token rest ih =>
    rw [List.forall_mem_cons] at formed
    rw [List.flatMap_cons]
    cases seen : !token.isRemark && !token.isPunct ';' with
    | true =>
      rw [code, List.filter_cons, if_pos seen] at parted
      rw [Bool.and_eq_true, Bool.not_eq_true'] at seen
      rw [without_remark_seen token seen.1]
      obtain ⟨c, more, text⟩ := List.exists_cons_of_ne_nil formed.1.filled
      have parts : (token.isSpace || !token.text.head?.any isWordUnit) = true := parted
      rw [text] at parts ⊢
      cases space : token.isSpace with
      | true =>
        have blank := formed.1.space (by simpa [Token.isSpace] using space) c (by simp [text])
        exact white_no_word c blank
      | false =>
        rw [space, Bool.false_or, Bool.not_eq_true'] at parts
        exact parts
    | false =>
      rw [code, List.filter_cons, if_neg (by simp [seen])] at parted
      rcases without_remark_unseen token formed.1 seen with nothing | blank | semicolon
      · rw [nothing]
        exact ih formed.2 parted
      · rw [blank]
        rfl
      · rw [semicolon]
        rfl

theorem word_ends_before (tokens front : List Token) (space : Token) (formed : ∀ token ∈ tokens, token.Formed)
    (split : code tokens = front ++ [space]) (blank : space.isSpace = true) :
    (tokens.flatMap Token.withoutRemark).getLast?.any isWordUnit = false := by
  induction tokens using List.reverseRecOn generalizing front with
  | nil => rfl
  | append_singleton tokens token ih =>
    rw [List.forall_mem_append, List.forall_mem_singleton] at formed
    rw [List.flatMap_append, List.flatMap_singleton]
    have whole : code (tokens ++ [token]) = code tokens ++ code [token] := List.filter_append _ _
    rw [whole] at split
    cases seen : !token.isRemark && !token.isPunct ';' with
    | true =>
      have last : code [token] = [token] := by rw [code, List.filter_cons, if_pos seen, List.filter_nil]
      rw [last] at split
      obtain ⟨_, same⟩ := List.append_inj' split rfl
      obtain rfl := List.singleton_inj.mp same
      rw [Bool.and_eq_true, Bool.not_eq_true'] at seen
      rw [without_remark_seen token seen.1, List.getLast?_append_of_ne_nil _ formed.2.filled]
      have each := formed.2.space (by simpa [Token.isSpace] using blank)
      cases last : token.text.getLast? with
      | none => rfl
      | some c => exact white_no_word c (each c (List.mem_of_getLast? last))
    | false =>
      have last : code [token] = [] := by rw [code, List.filter_cons, if_neg (by simp [seen]), List.filter_nil]
      rw [last, List.append_nil] at split
      rcases without_remark_unseen token formed.2 seen with nothing | blank | semicolon
      · rw [nothing, List.append_nil]
        exact ih front formed.1 split
      · rw [blank, List.getLast?_append_of_ne_nil _ (by simp)]
        rfl
      · rw [semicolon, List.getLast?_append_of_ne_nil _ (by simp)]
        rfl

end BodyLine

namespace Clause

variable (clause : Clause) (spell : Token → Text) {line : Text} (stands : clause.Stands line)

section

include stands

-- The line has the word of its condition in one place only, so what is around it in the code is around it in the line.
theorem condition_in_line (on : Token) (condition : clause.on = some on) :
    ∃ before after lead space, tokenize line = before ++ on :: after ∧ on ∉ before ∧ on ∉ after ∧
      on.isRemark = false ∧ code before = lead ++ [space] ∧ space.isSpace = true ∧
      (code after).head?.all parts = true := by
  obtain ⟨read, front, space, behind, split, blank, parted⟩ := stands.condition on condition
  obtain ⟨kind, _, _, _⟩ := on.word_of_keyword "on" (by decide) read
  obtain ⟨before, after, whole⟩ := List.append_of_mem
    (clause.part_of_line stands on (.inr (clause.target_in_tokens (by simp [split]))))
  have distinct := tokens_distinct 0 line
  change (tokenize line).Nodup at distinct
  rw [whole, List.nodup_middle, List.nodup_cons, List.mem_append, not_or] at distinct
  obtain ⟨⟨first, second⟩, _⟩ := distinct
  have unremarked : on.isRemark = false := by simp [Token.isRemark, kind]
  have seen : code (before ++ on :: after) = code before ++ on :: code after := by
    rw [code, List.filter_append, List.filter_cons, if_pos (by simp [unremarked, Token.isPunct, kind])]
    rfl
  obtain ⟨colon, sides, _⟩ := clause.parts_distinct stands
  obtain ⟨last, inner, outer⟩ := clause.target_behind
  obtain ⟨lead, tokens⟩ := last.trans (inner.trans outer)
  rw [whole, seen, ← tokens, split] at sides
  have shape : code before ++ on :: code after =
      (clause.name ++ colon :: (lead ++ (front ++ [space]))) ++ on :: behind := by
    rw [sides]
    simp
  have unseen (tokens : List Token) (absent : on ∉ tokens) : on ∉ code tokens :=
    fun member => absent (List.mem_filter.mp member).1
  obtain ⟨firstCode, _, lastCode⟩ :=
    (List.append_cons_inj_of_notMem (unseen before first) (unseen after second)).mp shape
  refine ⟨before, after, clause.name ++ colon :: (lead ++ front), space, whole, first, second, unremarked, ?_, blank,
    ?_⟩
  · rw [firstCode]
    simp
  · rw [lastCode]
    exact parted

-- In the line without its remarks the word of a condition stands by itself.
theorem remarks_around (on : Token) (condition : clause.on = some on) (recases : clause.Recases spell line)
    (same : ∀ word ∈ clause.leads, spell word = word.text) :
    ∃ a b, withoutRemarks line = a ++ (on.text ++ b) ∧ withoutRemarks (respelled spell line) = a ++ (spell on ++ b) ∧
      a.getLast?.any isWordUnit = false ∧ b.head?.any isWordUnit = false := by
  obtain ⟨before, after, lead, space, whole, first, second, unremarked, firstCode, blank, lastCode⟩ :=
    clause.condition_in_line stands on condition
  have stays (tokens : List Token) (inside : tokens ⊆ tokenize line) (absent : on ∉ tokens) :
      tokens.map (Token.spelled spell) = tokens := by
    apply Token.spelled_same
    intro token member
    apply clause.others_same spell line recases same token (inside member)
    rw [condition, Option.mem_some_iff]
    exact fun equal => absent (equal ▸ member)
  have formed (tokens : List Token) (inside : tokens ⊆ tokenize line) : ∀ token ∈ tokens, token.Formed :=
    fun token member => token.formed 0 line (inside member)
  have firstInside : before ⊆ tokenize line := by simp [whole]
  have lastInside : after ⊆ tokenize line := by simp [whole]
  refine ⟨before.flatMap Token.withoutRemark, after.flatMap Token.withoutRemark, ?_, ?_, ?_, ?_⟩
  · rw [withoutRemarks, whole, List.flatMap_append, List.flatMap_cons, without_remark_seen on unremarked]
  · rw [withoutRemarks, tokenize_respelled spell line recases.cases, whole, List.map_append, List.map_cons,
      stays before firstInside first, stays after lastInside second, List.flatMap_append, List.flatMap_cons,
      without_remark_seen (on.spelled spell) unremarked]
    rfl
  · exact word_ends_before before lead space (formed before firstInside) firstCode blank
  · exact word_starts_behind after (formed after lastInside) lastCode

theorem of_clause_stays (recases : clause.Recases spell line) (same : ∀ word ∈ clause.leads, spell word = word.text)
    (owner target : Text) (kind : EdgeKind) :
    Edge.ofClause (withoutRemarks (respelled spell line)) owner target kind =
      Edge.ofClause (withoutRemarks line) owner target kind := by
  cases condition : clause.on with
  | none =>
    have whole : respelled spell line = line := by
      have each : (tokenize line).flatMap spell = (tokenize line).flatMap Token.text :=
        List.flatMap_congr fun token member =>
          clause.others_same spell line recases same token member (by simp [condition])
      exact each.trans (untokenize_tokens_from 0 line)
    rw [whole]
  | some on =>
    obtain ⟨a, b, before, after, left, right⟩ := clause.remarks_around spell stands on condition recases same
    obtain ⟨read, front, space, behind, split, _⟩ := stands.condition on condition
    have lower : on.text.asciiLower = "on" := by
      rw [Token.isWord, Bool.and_eq_true, decide_eq_true_eq, decide_eq_true_eq] at read
      exact read.2
    have member : on ∈ clause.tokens := clause.target_in_tokens (by simp [split])
    have recased := (recases.cases on (clause.part_of_line stands on (.inr member))).trans lower
    rw [before, after]
    exact Edge.of_clause_around a b _ _ owner target kind recased lower left right

-- Up to its first word the text behind the words of the clause is the same.
theorem shown_stays (recases : clause.Recases spell line) (same : ∀ word ∈ clause.leads, spell word = word.text)
    (tokens : List Token) (first : clause.target <:+ tokens) (last : tokens <:+ clause.tokens)
    (starts : Starts (clause.text tokens)) :
    ∃ word rest other, clause.shown tokens = word ++ rest ∧
      (clause.spelled spell).shown (tokens.map (Token.spelled spell)) = word ++ other ∧ word ≠ [] ∧ word.Solid ∧
      Parted rest ∧ Parted other := by
  have each (token : Token) (member : token ∈ clause.tokens) : (spell token).asciiLower = token.text.asciiLower :=
    recases.cases token (clause.part_of_line stands token (.inr member))
  have lower := clause.text_spelled spell each tokens last.subset
  have front : ((clause.spelled spell).text (tokens.map (Token.spelled spell))).takeWhile (!isWhite ·) =
      (clause.text tokens).takeWhile (!isWhite ·) := by
    rw [text, clause.conditional_spelled spell each, text]
    have fixed (token : Token) (member : token ∈ clause.tokens) (other : token ∉ clause.on) :
        spell token = token.text :=
      clause.others_same spell line recases same token (clause.part_of_line stands token (.inr member)) other
    cases condition : clause.on with
    | none =>
      rw [Token.spelled_same spell tokens fun token member => fixed token (last.subset member) (by simp [condition])]
    | some on =>
      obtain ⟨read, before, space, behind, split, blank, _⟩ := stands.condition on condition
      obtain ⟨lead, whole⟩ := first
      rw [split, ← List.append_assoc] at whole
      refine first_word_stays spell _ tokens (lead ++ before) behind space on whole.symm blank read
        (fun token member => each token (last.subset member)) fun token member => ?_
      have inside : token ∈ tokens := whole ▸ List.mem_append_left _ member
      refine fixed token (last.subset inside) fun equal => ?_
      rw [condition, Option.mem_some_iff] at equal
      obtain ⟨_, _, distinct⟩ := clause.parts_distinct stands
      have apart := (List.nodup_cons.mp (List.nodup_append.mp distinct).2.1).2.sublist last.sublist
      rw [← whole] at apart
      exact (List.nodup_append.mp apart).2.2 token member on (by simp) equal.symm
  obtain ⟨word, _, rest, _, shown, taken, filled, solid, _, parted⟩ := normalized_word _ starts
  obtain ⟨again, _, other, _, shownAgain, takenAgain, _, _, _, partedAgain⟩ :=
    normalized_word _ (starts_lower _ _ lower starts)
  rw [front, taken] at takenAgain
  subst takenAgain
  exact ⟨word, rest, other, shown, shownAgain, filled, solid, parted, partedAgain⟩

theorem unread_within : clause.target <:+ clause.unread ∧ clause.unread <:+ clause.tokens ∧
    Starts (clause.text clause.unread) := by
  obtain ⟨last, inner, outer⟩ := clause.target_behind
  rw [unread]
  split
  · split
    · exact ⟨List.suffix_refl _, last.trans (inner.trans outer), stands.starts⟩
    · exact ⟨last, inner.trans outer, clause.starts_behind_link stands⟩
  · exact ⟨last.trans inner, outer, clause.starts_behind_main stands⟩

theorem resolution_stays (types : TypeTable) (file : SourceFile) (recases : clause.Recases spell line)
    (same : ∀ word ∈ clause.leads, spell word = word.text) :
    (clause.spelled spell).resolution types file = clause.resolution types file := by
  have main : (clause.spelled spell).main.word.text = clause.main.word.text := same clause.main.word List.mem_cons_self
  obtain ⟨first, last, starts⟩ := clause.unread_within stands
  have related (kind : EdgeKind) :
      Resolution.ofRelationship types file kind ((clause.spelled spell).shown (clause.spelled spell).unread) =
        Resolution.ofRelationship types file kind (clause.shown clause.unread) := by
    obtain ⟨word, rest, other, shown, again, filled, solid, parted, partedAgain⟩ :=
      clause.shown_stays spell stands recases same clause.unread first last starts
    rw [clause.unread_spelled spell same, again, shown,
      Resolution.of_relationship_parted types file kind word rest filled solid parted,
      Resolution.of_relationship_parted types file kind word other filled solid partedAgain]
  have array : Resolution.ofArray types file ((clause.spelled spell).shown (clause.spelled spell).target) =
      Resolution.ofArray types file (clause.shown clause.target) := by
    obtain ⟨word, rest, other, shown, again, filled, solid, parted, partedAgain⟩ :=
      clause.shown_stays spell stands recases same clause.target (List.suffix_refl _) (first.trans last) stands.starts
    change Resolution.ofArray types file ((clause.spelled spell).shown (clause.target.map (Token.spelled spell))) = _
    rw [again, shown, Resolution.of_array_parted types file word rest filled solid parted,
      Resolution.of_array_parted types file word other filled solid partedAgain]
  rw [resolution, main, related, related, array, resolution]

theorem shown_lower (recases : clause.Recases spell line) :
    ((clause.spelled spell).shown (clause.spelled spell).tokens).asciiLower =
      (clause.shown clause.tokens).asciiLower := by
  have each (token : Token) (member : token ∈ clause.tokens) : (spell token).asciiLower = token.text.asciiLower :=
    recases.cases token (clause.part_of_line stands token (.inr member))
  rw [shown, ← normalized_lower, tokens_spelled, ← clause.text_spelled spell each _ (List.Subset.refl _),
    normalized_lower, shown]

theorem read_line : BodyLine.read line = .element (elementName clause.name) (clause.shown clause.tokens) := by
  apply read_of_sides line clause.name clause.tokens stands.sides stands.named
  change clause.shown clause.tokens ≠ []
  rw [clause.shown_tokens stands]
  intro nothing
  exact (clause.main.shape clause.conditional _ mainWords main_texts stands.main).2.2.1
    (List.append_eq_nil_iff.mp nothing).1

end

end Clause

theorem Yield.edge_of_element (types : TypeTable) (file : SourceFile) (owner line name raw : Text)
    (read : BodyLine.read line = .element name raw) :
    (ofStatement types file owner line).edge =
      ((Resolution.resolve types file raw).relation.filter (·.target ≠ owner)).map fun relation =>
        Edge.ofClause (withoutRemarks line) owner relation.target relation.kind := by
  rw [ofStatement, read]
  rfl

def booksLine : Text := "books : Association to many Book on id"

def booksClause : Clause where
  name := [⟨.word, "books", 0⟩, ⟨.space, " ", 5⟩]
  before := [⟨.space, " ", 7⟩]
  main := ⟨⟨.word, "Association", 8⟩, [⟨.space, " ", 19⟩]⟩
  link := some ⟨⟨.word, "to", 20⟩, [⟨.space, " ", 22⟩]⟩
  count := some ⟨⟨.word, "many", 23⟩, [⟨.space, " ", 27⟩]⟩
  target := tokensFrom 28 "Book on id"
  on := some ⟨.word, "on", 33⟩

def loudly (token : Token) : Text := if token.start = 33 then "ON" else token.text

theorem books_clause_stands : booksClause.Stands booksLine where
  sides := by decide +kernel
  named := by decide +kernel
  before := by decide
  main := ⟨⟨"Association", by decide, by decide⟩, by decide, by decide⟩
  link keyword found := by
    obtain rfl := Option.some.inj found
    exact ⟨⟨"to", by decide, by decide⟩, by decide, by decide⟩
  count keyword found := by
    obtain rfl := Option.some.inj found
    exact ⟨⟨"many", by decide, by decide⟩, by decide, by decide⟩
  array isArray := by
    have single : booksClause.isArray = false := by decide
    rw [single] at isArray
    contradiction
  starts := (starts_iff _).mpr (by decide +kernel)
  unread := by decide +kernel
  condition on found := by
    obtain rfl := Option.some.inj found
    refine ⟨by decide, [⟨.word, "Book", 28⟩], ⟨.space, " ", 32⟩, tokensFrom 35 " id", ?_,
      by decide, ?_⟩
    · decide +kernel
    · decide +kernel

def softly (token : Token) : Text := if token.start = 8 then "association" else token.text

end SchemaDiagram
