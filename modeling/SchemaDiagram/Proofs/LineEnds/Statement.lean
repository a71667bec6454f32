import SchemaDiagram.Proofs.LineEnds.Declaration
import SchemaDiagram.Rendering

/-!
Bodies, their statements and what these say, with and without the CRs of the text. A statement says the same, and
shows the same text but for the CRs in it.
-/

set_option autoImplicit false

namespace SchemaDiagram

open Text

-- A text whose LFs keep their CRs, and the text that is left without them.
structure Text.Bare (t other : Text) : Prop where
  same : other = withoutReturns t
  paired : pairedReturns t = true

namespace Text.Bare

variable {t other u more : Text}

theorem append (first : Bare t other) (second : Bare u more) : Bare (t ++ u) (other ++ more) := by
  refine ⟨?_, paired_append t u first.paired second.paired⟩
  rw [first.same, second.same, without_returns_append]

theorem nil : Bare [] [] := ⟨rfl, rfl⟩

theorem blank : Bare [' '] [' '] := ⟨rfl, rfl⟩

end Text.Bare

theorem Token.Bare.text_bare {token other : Token} (bare : Token.Bare token other) : Text.Bare token.text other.text :=
  ⟨bare.text, bare.paired⟩

/-! The body of a declaration. -/

namespace Body

theorem inside_bare (depth : Nat) (tokens others : List Token) (bare : List.Forall₂ Token.Bare tokens others) :
    Option.Rel (List.Forall₂ Token.Bare) (inside? depth tokens) (inside? depth others) := by
  have put (token other : Token) (first : Token.Bare token other) (found found' : Option (List Token))
      (inside : Option.Rel (List.Forall₂ Token.Bare) found found') :
      Option.Rel (List.Forall₂ Token.Bare) (found.map (token :: ·)) (found'.map (other :: ·)) := by
    cases inside with
    | none => exact .none
    | some behind => exact .some (.cons first behind)
  induction bare generalizing depth with
  | nil => exact .none
  | cons first _ ih =>
    unfold inside?
    rw [first.is_punct, first.is_punct]
    split
    · exact put _ _ first _ _ (ih _)
    · split
      · cases depth with
        | zero => exact .some .nil
        | succ depth => exact put _ _ first _ _ (ih depth)
      · exact put _ _ first _ _ (ih _)

theorem of_text_bare (t : Text) (paired : pairedReturns t = true) :
    Option.Rel Text.Bare ((ofText? t).map Body.text) ((ofText? (withoutReturns t)).map Body.text) := by
  have opened := related_drop_while (p := fun token => !token.isPunct '{') (q := fun token => !token.isPunct '{')
    (tokenize_bare t paired) fun token other bare => by rw [bare.is_punct]
  rw [ofText?, ofText?, ofTokens?, ofTokens?]
  generalize (tokenize t).dropWhile (!·.isPunct '{') = found at opened ⊢
  generalize (tokenize (withoutReturns t)).dropWhile (!·.isPunct '{') = found' at opened ⊢
  cases opened with
  | nil => exact .none
  | cons _ behind =>
    rename_i opening opening' rest rest' _
    have inside := inside_bare 0 _ _ behind
    dsimp only
    generalize inside? 0 rest = among at inside ⊢
    generalize inside? 0 rest' = among' at inside ⊢
    cases inside with
    | none => exact .none
    | some tokens =>
      obtain ⟨same, whole⟩ := untokenize_bare tokens
      exact .some ⟨same, whole⟩

end Body

/-! Its statements. -/

namespace Statement

theorem carries_on_bare (words : Nat) (tokens others : List Token) (bare : List.Forall₂ Token.Bare tokens others) :
    carriesOn words others = carriesOn words tokens := by
  induction bare generalizing words with
  | nil => rfl
  | cons first _ ih => rw [carriesOn, carriesOn, first.is_trivia, first.is_punct, first.kind, ih, ih]

theorem finish_bare (statement other : Text) (read : Text.Bare statement other) (texts others : List Text)
    (behind : List.Forall₂ Text.Bare texts others) :
    List.Forall₂ Text.Bare (finish statement texts) (finish other others) := by
  rw [finish, finish, read.same, blank_without_returns]
  split
  · exact behind
  · exact .cons ⟨rfl, read.paired⟩ behind

theorem indentation_bare (token other : Token) (bare : Token.Bare token other) :
    Text.Bare (Text.afterLast '\n' token.text) (Text.afterLast '\n' other.text) := by
  refine ⟨?_, paired_after_last '\n' _ bare.paired⟩
  rw [bare.text, after_last_without_returns]

theorem collect_bare (statement other : Text) (read : Text.Bare statement other) (typed : Bool) (depth : Nat)
    (tokens others : List Token) (bare : List.Forall₂ Token.Bare tokens others) :
    List.Forall₂ Text.Bare (collect statement typed depth tokens) (collect other typed depth others) := by
  induction bare generalizing statement other typed depth with
  | nil => exact finish_bare statement other read [] [] .nil
  | cons first behind ih =>
    rw [collect, collect, first.is_punct, first.is_punct, first.is_line_break, first.depth_after,
      carries_on_bare 0 _ _ behind]
    split
    · exact finish_bare statement other read _ _ (ih [] [] .nil _ _)
    · split
      · split
        · exact ih _ _ (read.append .blank) _ _
        · exact finish_bare statement other read _ _ (ih _ _ (indentation_bare _ _ first) _ _)
      · exact ih _ _ (read.append first.text_bare) _ _

end Statement

theorem statements_bare (body other : Text) (bare : Text.Bare body other) :
    List.Forall₂ Text.Bare (statements body) (statements other) := by
  rw [bare.same]
  exact Statement.collect_bare [] [] .nil false 0 _ _ (tokenize_bare body bare.paired)

theorem Fragment.statements_bare (fragment : Fragment) (paired : pairedReturns fragment.text = true) :
    List.Forall₂ Text.Bare fragment.statements fragment.withoutReturns.statements := by
  have bodies := Body.of_text_bare fragment.text paired
  rw [statements, statements, body?, body?]
  apply SchemaDiagram.statements_bare
  change Option.Rel Text.Bare _ ((Body.ofText? fragment.withoutReturns.text).map Body.text) at bodies
  generalize (Body.ofText? fragment.text).map Body.text = found at bodies ⊢
  generalize (Body.ofText? fragment.withoutReturns.text).map Body.text = found' at bodies ⊢
  cases bodies with
  | none => exact .nil
  | some body => exact body

/-! What a statement says. -/

namespace BodyLine

def bare : BodyLine → BodyLine
  | verbatim text => verbatim text.withoutReturns
  | line => line

theorem is_name_keyword_bare (token other : Token) (bare : Token.Bare token other) :
    isNameKeyword other = isNameKeyword token := by
  have words : (fun word => other.isWord word) = fun word => token.isWord word := funext bare.is_word
  rw [isNameKeyword, isNameKeyword, words]

variable (tokens others : List Token) (bare : List.Forall₂ Token.Bare tokens others)

theorem letters_without_returns (t : Text) : (withoutReturns t).filter Char.isAlpha = t.filter Char.isAlpha := by
  rw [withoutReturns, List.filter_filter]
  apply List.filter_congr
  intro c _
  by_cases same : c = '\r'
  · subst same
    rfl
  · simp [same]

section

include bare

theorem element_name_bare : elementName others = elementName tokens := by
  have words := related_filter (p := fun token => !isNameKeyword token) (q := fun token => !isNameKeyword token)
    bare fun token other first => by rw [is_name_keyword_bare token other first]
  have joined := (untokenize_bare words).1
  rw [untokenize, untokenize] at joined
  rw [elementName, elementName, joined, letters_without_returns]

theorem next_is_null_bare : nextIsNull others = nextIsNull tokens := by
  rw [nextIsNull, nextIsNull]
  induction bare with
  | nil => rfl
  | cons first _ ih =>
    rw [List.find?_cons, List.find?_cons, first.is_space]
    split
    · exact first.is_word _
    · exact ih

theorem type_text_bare (conditional : Bool) (depth : Nat) :
    Text.Bare (typeText conditional depth tokens) (typeText conditional depth others) := by
  induction bare generalizing depth with
  | nil => exact .nil
  | cons first behind ih =>
    rw [typeText, typeText, first.is_word, first.is_word, first.is_word, first.is_word, first.is_punct, first.is_space,
      first.depth_after, next_is_null_bare _ _ behind]
    split
    · exact .nil
    · split
      · exact ih depth
      · split
        · exact Text.Bare.blank.append (ih _)
        · exact first.text_bare.append (ih _)

theorem element_type_bare : elementType others = elementType tokens := by
  have conditional := related_any (p := (·.isWord "on")) (q := (·.isWord "on")) bare
    fun _ _ first => first.is_word _
  have text := type_text_bare tokens others bare (tokens.any (·.isWord "on")) 0
  rw [elementType, elementType, conditional, text.same, normalized_without_returns _ text.paired]

theorem relates_bare : relates others = relates tokens := by
  induction bare with
  | nil => rfl
  | cons first behind ih =>
    have next : ∀ {rest rest' : List Token}, List.Forall₂ Token.Bare rest rest' →
        rest'.head?.any (·.isWord "of") = rest.head?.any (·.isWord "of") := by
      intro rest rest' related
      cases related with
      | nil => rfl
      | cons second _ => exact second.is_word _
    rw [relates, relates, first.is_word, first.is_word, first.is_word, first.is_word, next behind, ih]

theorem code_bare : List.Forall₂ Token.Bare (code tokens) (code others) :=
  related_filter bare fun _ _ first => by rw [first.is_remark, first.is_punct]

end

theorem is_filler_bare (token other : Token) (bare : Token.Bare token other) : isFiller other = isFiller token := by
  have puncts : (fun c => other.isPunct c) = fun c => token.isPunct c := funext bare.is_punct
  rw [isFiller, isFiller, bare.is_space, puncts]

theorem split_bare (bare : List.Forall₂ Token.Bare tokens others) (depth : Nat) :
    Option.Rel (fun sides sides' => List.Forall₂ Token.Bare sides.1 sides'.1 ∧ List.Forall₂ Token.Bare sides.2 sides'.2)
      (splitAtColon? depth tokens) (splitAtColon? depth others) := by
  induction bare generalizing depth with
  | nil => exact .none
  | cons first behind ih =>
    rename_i token other rest rest'
    rw [splitAtColon?, splitAtColon?, first.is_punct, first.depth_after]
    split
    · exact .some ⟨.nil, behind⟩
    · have further := ih (token.depthAfter depth)
      generalize splitAtColon? (token.depthAfter depth) rest = found at further ⊢
      generalize splitAtColon? (token.depthAfter depth) rest' = found' at further ⊢
      cases further with
      | none => exact .none
      | some sides => exact .some ⟨.cons first sides.1, sides.2⟩

theorem of_colonless_bare (statement : Text) (remarked : Bool) (bare : List.Forall₂ Token.Bare tokens others) :
    ofColonless (withoutReturns statement) remarked others = (ofColonless statement remarked tokens).bare := by
  have words := related_filter (p := (·.kind = .word)) (q := (·.kind = .word)) bare
    fun _ _ first => by rw [first.kind]
  rw [ofColonless, ofColonless, relates_bare _ _ words, related_all bare is_filler_bare]
  split
  · rfl
  · split
    · rfl
    · rw [trim_end_without_returns]
      rfl

theorem of_sides_bare (name name' type type' : List Token) (first : List.Forall₂ Token.Bare name name')
    (second : List.Forall₂ Token.Bare type type') : ofSides name' type' = (ofSides name type).bare := by
  rw [ofSides, ofSides, element_name_bare _ _ first, element_type_bare _ _ second]
  split <;> rfl

theorem read_bare (statement : Text) (paired : pairedReturns statement = true) :
    BodyLine.read (withoutReturns statement) = (BodyLine.read statement).bare := by
  have tokens := tokenize_bare statement paired
  have lean := code_bare _ _ tokens
  have sides := split_bare _ _ lean 0
  have remarked := related_any tokens fun _ _ first => first.is_remark
  rw [BodyLine.read, BodyLine.read, ofTokens, ofTokens, remarked, related_all lean fun _ _ first => first.is_space]
  split
  · rfl
  · generalize splitAtColon? 0 (code (tokenize statement)) = found at sides ⊢
    generalize splitAtColon? 0 (code (tokenize (withoutReturns statement))) = found' at sides ⊢
    cases sides with
    | none => exact of_colonless_bare _ _ statement _ lean
    | some parts => exact of_sides_bare _ _ _ _ parts.1 parts.2

end BodyLine

/-! What a statement yields. -/

theorem Edge.of_clause_without_returns (clause owner target : Text) (kind : EdgeKind)
    (paired : pairedReturns clause = true) :
    ofClause (withoutReturns clause) owner target kind = ofClause clause owner target kind := by
  rw [ofClause, ofClause, Cardinality.ofClause, Cardinality.ofClause, normalized_without_returns clause paired, labelOf,
    labelOf, has_word_without_returns "many" (by decide) (by decide) clause paired,
    has_word_without_returns "one" (by decide) (by decide) clause paired]

/-! Text of a file shows as it stands in two places: in a verbatim line, and in the message on an unusable one. -/

def Member.bare : Member → Member
  | verbatim line => verbatim line.withoutReturns
  | typed element => typed element

def Diagnostic.bare (finding : Diagnostic) : Diagnostic :=
  if finding.code = .unparsableLine then { finding with message := finding.message.withoutReturns } else finding

def Entity.bare (entity : Entity) : Entity := { entity with members := entity.members.map Member.bare }

def Yield.bare (yield : Yield) : Yield :=
  { yield with member := yield.member.map Member.bare, finding := yield.finding.map Diagnostic.bare }

def Rendering.bare (rendering : Rendering) : Rendering :=
  { rendering with entity := rendering.entity.bare, findings := rendering.findings.map Diagnostic.bare }

theorem Diagnostic.quoted_without_returns (t : Text) : withoutReturns (quoted t) = quoted (withoutReturns t) := by
  rw [quoted, quoted, without_returns_append, without_returns_other _ '\'' (by decide)]
  rfl

theorem Diagnostic.unusable_bare (owner statement : Text) :
    unusable owner (withoutReturns statement) = (unusable owner statement).bare := by
  have code : (unusable owner statement).code = .unparsableLine := rfl
  rw [bare, if_pos code, unusable, unusable, trim_without_returns, without_returns_append, quoted_without_returns]
  rfl

namespace Yield

variable (types : TypeTable) (file : SourceFile) (owner statement : Text)

-- What an element yields depends on its file only by the names that are declared there.
theorem of_element_bare (name rawType : Text) (paired : pairedReturns statement = true) :
    ofElement types file.withoutReturns owner (withoutReturns statement) name rawType =
      (ofElement types file owner statement name rawType).bare := by
  obtain ⟨clause, remarks⟩ := without_remarks_bare statement paired
  have resolved : Resolution.resolve types file.withoutReturns rawType = Resolution.resolve types file rawType := rfl
  have known : (Resolution.resolve types file rawType).isOpaque types file.withoutReturns =
      (Resolution.resolve types file rawType).isOpaque types file := rfl
  have edge (relation : Relation) :
      Edge.ofClause (withoutRemarks (withoutReturns statement)) owner relation.target relation.kind =
        Edge.ofClause (withoutRemarks statement) owner relation.target relation.kind := by
    rw [clause, Edge.of_clause_without_returns _ _ _ _ remarks]
  simp only [ofElement, bare, resolved, known, edge]
  split <;> rfl

theorem of_statement_bare (paired : pairedReturns statement = true) :
    ofStatement types file.withoutReturns owner (withoutReturns statement) =
      (ofStatement types file owner statement).bare := by
  rw [ofStatement, ofStatement, BodyLine.read_bare statement paired]
  cases BodyLine.read statement with
  | element name rawType => exact of_element_bare types file owner statement name rawType paired
  | verbatim text => rfl
  | skip reason =>
    cases reason with
    | blank => rfl
    | remarks => rfl
    | unusable => simp [BodyLine.bare, bare, Diagnostic.unusable_bare]

end Yield

namespace Fragment

variable (types : TypeTable) (file : SourceFile) (fragment : Fragment) (paired : pairedReturns fragment.text = true)

include paired

theorem yields_bare :
    fragment.withoutReturns.yields types file.withoutReturns = (fragment.yields types file).map Yield.bare := by
  have statements := fragment.statements_bare paired
  rw [yields, yields]
  generalize fragment.statements = texts at statements ⊢
  generalize fragment.withoutReturns.statements = others at statements ⊢
  induction statements with
  | nil => rfl
  | cons first _ ih =>
    have yielded := Yield.of_statement_bare types file fragment.name _ first.paired
    rw [← first.same] at yielded
    rw [List.map_cons, List.map_cons, List.map_cons, ih, ← yielded]
    rfl

theorem render_bare :
    fragment.withoutReturns.render types file.withoutReturns = (fragment.render types file).bare := by
  rw [render, render, yields_bare types file fragment paired]
  simp only [List.filterMap_map, Rendering.bare, Entity.bare, List.map_filterMap]
  rfl

end Fragment

end SchemaDiagram
