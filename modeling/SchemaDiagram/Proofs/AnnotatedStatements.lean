import SchemaDiagram.Proofs.Insertions
import SchemaDiagram.Proofs.KeywordCase
import SchemaDiagram.Proofs.LocalEdges
import SchemaDiagram.Proofs.OneLine
import SchemaDiagram.Proofs.OpenBrackets

/-!
The statements of a body with an annotation behind the type of an element. The element keeps its name, its type and its
edge. Where a line break parts the annotation from it, the annotation is a statement of its own and says nothing.
-/

set_option autoImplicit false

namespace SchemaDiagram

open Scan

/-! White space at the end of a clause. -/

namespace Text

theorem normalized_trailing (t u : Text) (white : ∀ c ∈ u, isWhite c = true) : normalized (t ++ u) = normalized t := by
  by_cases nothing : u = []
  · rw [nothing, List.append_nil]
  · have same : words (t ++ (u ++ [])) = words t ++ words [] := words_gap t u [] nothing white
    rw [normalized, ← List.append_nil u, same]
    exact congrArg [' '].intercalate (List.append_nil _)

theorem has_word_trailing (word t u : Text) (filled : word ≠ []) (letters : word.AllUnits)
    (white : ∀ c ∈ u, isWhite c = true) : hasWord word (t ++ u) = hasWord word t := by
  have unread : afterWord? word [] = none := by
    obtain ⟨c, word, rfl⟩ := List.exists_cons_of_ne_nil filled
    rfl
  have same (s v : Text) (white : ∀ c ∈ v, isWhite c = true) :
      (afterWord? word (s ++ v)).isSome = (afterWord? word s).isSome := by
    have parted : Parted v := fun c first => white c (List.mem_of_mem_head? first)
    rw [Bool.eq_iff_iff, Option.isSome_iff_ne_none, Option.isSome_iff_ne_none]
    exact not_congr (after_word_parted word s v letters parted)
  unfold hasWord
  generalize false = inside
  induction t generalizing inside with
  | nil =>
    induction u generalizing inside with
    | nil => rfl
    | cons c u ih =>
      have here := same [] (c :: u) white
      rw [unread, List.nil_append] at here
      have behind := ih (List.forall_mem_cons.mp white).2 (isWordUnit c)
      change (!inside && (afterWord? word (c :: u)).isSome || anyWordStart _ (isWordUnit c) u) = false
      rw [here, Option.isSome_none, Bool.and_false, Bool.false_or]
      exact behind
  | cons c t ih =>
    have here := same (c :: t) u white
    rw [List.cons_append] at here ⊢
    rw [anyWordStart, anyWordStart]
    exact congrArg₂ _ (congrArg _ here) (ih (isWordUnit c))

end Text

theorem Edge.of_clause_trailing (clause u owner target : Text) (kind : EdgeKind) (white : ∀ c ∈ u, isWhite c = true) :
    ofClause (clause ++ u) owner target kind = ofClause clause owner target kind := by
  have many := Text.has_word_trailing "many" clause u (by decide) (by decide) white
  have one := Text.has_word_trailing "one" clause u (by decide) (by decide) white
  rw [ofClause, ofClause, labelOf, labelOf, many, one, Cardinality.ofClause, Cardinality.ofClause,
    Text.normalized_trailing clause u white]

/-! What an element says with annotations and blanks behind it. -/

namespace BodyLine

theorem code_of_loose (tokens : List Token) (loose : Loose tokens) : ∀ token ∈ code tokens, token.isSpace = true := by
  intro token member
  obtain ⟨inside, shown⟩ := List.mem_filter.mp member
  rcases loose token inside with space | tag
  · simp [Token.isSpace, space]
  · simp [Token.isRemark, tag] at shown

theorem split_trailing (depth : Nat) (tokens more first second : List Token)
    (sides : splitAtColon? depth tokens = some (first, second)) :
    splitAtColon? depth (tokens ++ more) = some (first, second ++ more) := by
  induction tokens generalizing depth first with
  | nil => contradiction
  | cons token rest ih =>
    rw [splitAtColon?] at sides
    rw [List.cons_append, splitAtColon?]
    split at sides
    · rename_i here
      obtain ⟨rfl, rfl⟩ := Prod.mk.inj (Option.some.inj sides)
      rw [if_pos here]
    · rename_i further
      obtain ⟨⟨left, right⟩, found, same⟩ := Option.map_eq_some_iff.mp sides
      obtain ⟨rfl, rfl⟩ := Prod.mk.inj same
      rw [if_neg further, ih _ _ found]
      rfl

section

variable (tokens spaces : List Token) (blank : ∀ token ∈ spaces, token.isSpace = true)

include blank

theorem next_is_null_trailing : nextIsNull (tokens ++ spaces) = nextIsNull tokens := by
  have nothing : spaces.find? (!·.isSpace) = none := by
    rw [List.find?_eq_none]
    intro token member
    simp [blank token member]
  rw [nextIsNull, nextIsNull, List.find?_append, nothing, Option.or_none]

theorem kept_trailing (conditional : Bool) (depth : Nat) : ∃ more, (∀ token ∈ more, token.isSpace = true) ∧
    kept conditional depth (tokens ++ spaces) = kept conditional depth tokens ++ more := by
  induction tokens generalizing depth with
  | nil =>
    refine ⟨spaces, blank, ?_⟩
    have alone := kept_spaces conditional depth spaces [] blank
    rwa [List.append_nil, kept, List.append_nil] at alone
  | cons token rest ih =>
    rw [List.cons_append, kept, kept, next_is_null_trailing rest spaces blank]
    split
    · exact ⟨[], by simp, rfl⟩
    · split
      · exact ih depth
      · obtain ⟨more, blank, same⟩ := ih (token.depthAfter depth)
        exact ⟨more, blank, congrArg (token :: ·) same⟩

theorem element_type_trailing : elementType (tokens ++ spaces) = elementType tokens := by
  have unconditional : spaces.any (·.isWord "on") = false := by
    rw [List.any_eq_false]
    intro token member
    rw [(space_is_no_word token (blank token member)).2]
    exact Bool.false_ne_true
  obtain ⟨more, blank, same⟩ := kept_trailing tokens spaces blank (tokens.any (·.isWord "on")) 0
  rw [elementType, elementType, List.any_append, unconditional, Bool.or_false, type_text_kept, same, List.flatMap_append,
    Text.normalized_trailing _ _ (shown_spaces more blank), type_text_kept]

end

end BodyLine

section

variable (statement rest : Text) (apart : Apart statement rest) (loose : Loose (tokenize rest))

include apart loose

theorem BodyLine.read_trailing (name rawType : Text) (element : read statement = .element name rawType) :
    read (statement ++ rest) = .element name rawType := by
  obtain ⟨first, second, sides, rfl, rfl, named, typed⟩ := sides_of_element statement _ _ element
  have spaces := code_of_loose _ (loose.moved statement.byteSize)
  have same := element_type_trailing second _ spaces
  have further := split_trailing 0 _ (code ((tokenize rest).map (Token.moved statement.byteSize))) first second sides
  have whole : code (tokenize (statement ++ rest)) =
      code (tokenize statement) ++ code ((tokenize rest).map (Token.moved statement.byteSize)) := by
    rw [apart, code, code, code, List.filter_append]
  rw [← same] at typed ⊢
  exact read_of_sides (statement ++ rest) first _ (by rw [whole, further]) named typed

theorem without_remarks_trailing :
    ∃ u, (∀ c ∈ u, isWhite c = true) ∧ withoutRemarks (statement ++ rest) = withoutRemarks statement ++ u := by
  refine ⟨withoutRemarks rest, ?_, ?_⟩
  · intro c member
    obtain ⟨token, inside, shown⟩ := List.mem_flatMap.mp member
    rcases loose token inside with space | tag
    · rw [Token.withoutRemark, space] at shown
      exact blank_white c (space_blank 0 rest token inside space c shown)
    · rw [Token.withoutRemark, tag, List.mem_singleton] at shown
      rw [shown]
      decide
  · rw [withoutRemarks, apart, List.flatMap_append, List.flatMap_map]
    rfl

theorem Yield.of_statement_trailing (types : TypeTable) (file : SourceFile) (owner name rawType : Text)
    (element : BodyLine.read statement = .element name rawType) :
    ofStatement types file owner (statement ++ rest) = ofStatement types file owner statement := by
  obtain ⟨u, white, text⟩ := without_remarks_trailing statement rest apart loose
  rw [ofStatement, ofStatement, BodyLine.read_trailing statement rest apart loose name rawType element, element]
  simp only [ofElement, text, Edge.of_clause_trailing _ u _ _ _ white]

end

namespace Yield

theorem of_statement_blanks (statement name rawType : Text) (whole : Seam statement [';'])
    (element : BodyLine.read statement = .element name rawType) (w : Text) (blanks : ∀ c ∈ w, isBlank c = true)
    (types : TypeTable) (file : SourceFile) (owner : Text) :
    ofStatement types file owner (statement ++ w) = ofStatement types file owner statement := by
  have halts : Halts [';'] (w ++ []) := by
    refine Ends.halts [';'] w [] blanks (by simp [Ends]) fun _ => ?_
    cases w with
    | nil => rfl
    | cons c w => exact (blank_tests c (blanks c List.mem_cons_self)).2.1
  rw [List.append_nil] at halts
  exact of_statement_trailing statement w (whole.apart_of_halts _ _ _ halts) (loose_blanks w blanks) types file owner
    name rawType element

end Yield

/-! Where the statements of a body are parted around the place. -/

namespace Statement

theorem carries_on_loose (words : Nat) (loose more : List Token) (idle : Loose loose) :
    carriesOn words (loose ++ more) = carriesOn words more := by
  induction loose with
  | nil => rfl
  | cons token loose ih =>
    have trivia : token.isTrivia = true := by
      rcases idle token List.mem_cons_self with kind | kind <;>
        simp [Token.isTrivia, Token.isSpace, Token.isRemark, kind]
    rw [List.cons_append, carriesOn, if_pos trivia, ih (idle.behind token)]

-- Tokens that an element goes on with alike.
def Alike (more other : List Token) : Prop := ∀ words, carriesOn words more = carriesOn words other

theorem Alike.behind (tokens more other : List Token) (alike : Alike more other) :
    Alike (tokens ++ more) (tokens ++ other) := by
  induction tokens with
  | nil => exact alike
  | cons token rest ih =>
    intro words
    rw [List.cons_append, List.cons_append, carriesOn, carriesOn, ih, ih]

theorem Alike.breaks (tokens more other : List Token) (alike : Alike more other) : BreaksAlike tokens more other :=
  fun rest _ _ => alike.behind rest more other 0

theorem collect_tag (statement : Text) (typed : Bool) (depth : Nat) (tag : Token) (rest : List Token)
    (kind : tag.kind = .tag) :
    collect statement typed depth (tag :: rest) = collect (statement ++ tag.text) typed depth rest := by
  have level : tag.depthAfter depth = depth := by simp [Token.depthAfter, Token.isOpener, Token.isCloser, kind]
  rw [collect, if_neg (by simp [Token.isPunct, kind]), if_neg (by simp [Token.isLineBreak, kind]), level]
  simp [Token.isPunct, kind]

-- Tokens in front of which a statement ends, whatever it is.
def Concludes (depth : Nat) (tokens : List Token) (after : List Text) : Prop :=
  ∀ statement typed, collect statement typed depth tokens = finish statement after

theorem finish_white (statement : Text) (others : List Text) (blanks : ∀ c ∈ statement, isBlank c = true) :
    finish statement others = others :=
  if_pos (List.all_eq_true.mpr fun c member => blank_white c (blanks c member))

section

variable (depth : Nat) (more : List Token) (after : List Text) (concludes : Concludes depth more after)

include concludes

theorem collect_spaces (statement : Text) (typed : Bool) (spaces : List Token)
    (blank : ∀ token ∈ spaces, token.kind = .space ∧ ∀ c ∈ token.text, isBlank c = true) :
    ∃ w, (∀ c ∈ w, isBlank c = true) ∧
      collect statement typed depth (spaces ++ more) = finish (statement ++ w) after := by
  induction spaces generalizing statement typed with
  | nil => exact ⟨[], by simp, by rw [List.nil_append, concludes, List.append_nil]⟩
  | cons token spaces ih =>
    obtain ⟨⟨kind, blanks⟩, others⟩ := List.forall_mem_cons.mp blank
    have punct (c : Char) : token.isPunct c = false := by simp [Token.isPunct, kind]
    rw [List.cons_append, collect, if_neg (by simp [punct])]
    split
    · split
      · obtain ⟨w, white, read⟩ := ih (statement ++ [' ']) typed others
        refine ⟨' ' :: w, List.forall_mem_cons.mpr ⟨rfl, white⟩, ?_⟩
        rw [read, List.append_assoc, List.singleton_append]
      · obtain ⟨w, white, read⟩ := ih (Text.afterLast '\n' token.text) false others
        refine ⟨[], by simp, ?_⟩
        have indent := indentation_blank token.text blanks
        rw [read, List.append_nil, finish_white _ after fun c member => (List.mem_append.mp member).elim (indent c) (white c)]
    · obtain ⟨w, white, read⟩ := ih (statement ++ token.text) (typed || (depth = 0 && token.isPunct ':')) others
      refine ⟨token.text ++ w, fun c member => (List.mem_append.mp member).elim (blanks c) (white c), ?_⟩
      rw [depth_after_space depth token kind, read, List.append_assoc]

end

end Statement

theorem space_tokens (bytes : Nat) (g : Text) (blanks : ∀ c ∈ g, isBlank c = true) :
    ∀ token ∈ (tokenize g).map (Token.moved bytes), token.kind = .space ∧ ∀ c ∈ token.text, isBlank c = true := by
  rcases tokens_of_blanks g blanks with rfl | alone
  · simp [tokenize_nil]
  · simpa [alone] using blanks

theorem statements_nil : statements [] = [] := by
  rw [statements, tokenize_nil]
  rfl

-- The end of the text, or a semicolon outside brackets.
def EndsElement (depth : Nat) (q : Text) : Prop := q = [] ∨ q.head? = some ';' ∧ depth = 0

instance (depth : Nat) (q : Text) : Decidable (EndsElement depth q) := inferInstanceAs (Decidable (_ ∨ _))

namespace EndsElement

variable {depth : Nat} {q : Text}

theorem cases (ended : EndsElement depth q) :
    q = [] ∨ ∃ rest, q = ';' :: rest ∧ depth = 0 ∧
      tokenize q = ⟨.punct, [';'], 0⟩ :: (tokenize rest).map (Token.moved (Text.byteSize [';'])) := by
  rcases ended with nothing | ⟨semicolon, ground⟩
  · exact .inl nothing
  · obtain ⟨rest, rfl⟩ := List.head?_eq_some_iff.mp semicolon
    exact .inr ⟨rest, rfl, ground, tokenize_of_cut ';' [] rest .punct (.plain ';' rest (by decide))⟩

theorem concludes (ended : EndsElement depth q) (bytes : Nat) :
    Statement.Concludes depth ((tokenize q).map (Token.moved bytes)) (statements (q.drop 1)) := by
  intro statement typed
  rw [Statement.collect_moved]
  rcases ended.cases with rfl | ⟨rest, rfl, rfl, read⟩
  · rw [tokenize_nil, Statement.collect, List.drop_nil, statements_nil]
  · rw [read, Statement.collect, if_pos (by decide), Statement.collect_moved]
    rfl

-- The element goes on up to there as it does with its end alone.
theorem alike (ended : EndsElement depth q) (bytes : Nat) :
    Statement.Alike ((tokenize q).map (Token.moved bytes)) (tokenize (q.take 1)) := by
  intro words
  rw [Statement.carries_on_moved]
  rcases ended.cases with rfl | ⟨rest, rfl, _, read⟩
  · rfl
  · have alone := tokenize_of_cut ';' [] [] .punct (.plain ';' [] (by decide))
    change tokenize [';'] = _ at alone
    rw [read, List.take_succ_cons, List.take_zero, alone]
    rfl

theorem first (ended : EndsElement depth q) : EndsElement depth (q.take 1) := by
  rcases ended with rfl | ⟨semicolon, ground⟩
  · exact .inl rfl
  · obtain ⟨rest, rfl⟩ := List.head?_eq_some_iff.mp semicolon
    exact .inr ⟨rfl, ground⟩

theorem halts (ended : EndsElement depth q) (w : Text) : Halts w q := by
  have ends : Ends q := by
    intro c first
    rcases ended with rfl | ⟨semicolon, _⟩
    · contradiction
    · exact .inl (Option.some.inj (first.symm.trans semicolon))
  refine ends.halts w [] q (by simp) fun _ => ?_
  rcases ended.cases with rfl | ⟨rest, rfl, _⟩ <;> rfl

end EndsElement

-- The statement in front of a seam is the one that is read there, whatever follows that ends it.
theorem Seam.statement_on (p w q : Text) (seam : Seam p w) (ended : EndsElement (bracketsOpen 0 (tokenize p)) q)
    (earlier : List Text) (statement : Text) (alone : statements (p ++ q.take 1) = earlier ++ [statement]) :
    statement.isBlank = false ∧ ∃ typed, ∀ more, Statement.Alike more (tokenize (q.take 1)) →
      Statement.collect [] false 0 (tokenize p ++ more) =
        earlier ++ Statement.collect statement typed (bracketsOpen 0 (tokenize p)) more := by
  obtain ⟨c, ends, solid, _, open_⟩ := seam.last
  have filled : tokenize p ≠ [] := by
    rw [Ne, tokenize_eq_nil_iff]
    rintro rfl
    contradiction
  have closed : (tokenize p).getLast?.all (!·.isPunct ';') = true := by
    rw [Option.all_eq_true]
    intro token last
    rw [last_of_tokens p token last] at ends
    rw [Bool.not_eq_true', Bool.eq_false_iff]
    intro semicolon
    rw [punct_text 0 p token (List.mem_of_getLast? last) ';' semicolon] at ends
    exact open_ (Option.some.inj ends).symm
  obtain ⟨others, front, last, typed, final, read⟩ :=
    Statement.collect_on [] false 0 (tokenize p) (tokenize (q.take 1)) filled seam.last_token (.inl closed)
  have seen : (front ++ last.text).isBlank = false := by
    rw [last_of_tokens p last final] at ends
    refine Statement.filled_append front last.text (.inr ?_)
    rw [Text.isBlank, List.all_eq_false]
    exact ⟨c, List.mem_of_getLast? ends, by simp [solid]⟩
  have split : statements (p ++ q.take 1) = others ++ [front ++ last.text] := by
    have behind := ended.first.concludes p.byteSize (front ++ last.text) typed
    have alike := ended.first.alike p.byteSize
    rw [List.take_take, Nat.min_self] at alike
    have nothing : (q.take 1).drop 1 = [] := List.drop_eq_nil_of_le (List.length_take_le 1 q)
    rw [nothing, statements_nil] at behind
    rw [statements, seam.apart_of_halts p w _ (ended.first.halts w), read _ (alike.breaks _ _ _), behind, Statement.finish, seen,
      if_neg Bool.false_ne_true]
  obtain ⟨rfl, same⟩ := List.append_inj' (alone.symm.trans split) rfl
  obtain rfl := List.singleton_inj.mp same
  exact ⟨seen, typed, fun more alike => read more (alike.breaks _ _ _)⟩

namespace Insertion

variable (insertion : Insertion)

-- Where a line ends in front of the annotation, the annotation may be parted from the statement.
theorem collect_text (depth bytes : Nat) (more : List Token) (after : List Text)
    (concludes : Statement.Concludes depth more after) (statement : Text) (typed : Bool) :
    ∃ left right : Text, (∀ c ∈ left, isBlank c = true) ∧ (∀ c ∈ right, isBlank c = true) ∧
      (Statement.collect statement typed depth ((tokenize insertion.text).map (Token.moved bytes) ++ more) =
          Statement.finish (statement ++ (left ++ ' ' :: '@' :: (insertion.body ++ right))) after ∨
        Statement.collect statement typed depth ((tokenize insertion.text).map (Token.moved bytes) ++ more) =
          Statement.finish statement (Statement.finish (left ++ '@' :: (insertion.body ++ right)) after)) := by
  have trailing := space_tokens (bytes + (insertion.left.byteSize + insertion.bytes)) insertion.right insertion.trails
  rw [insertion.tokens, List.map_cons, List.map_cons, moved_again, List.cons_append, List.cons_append]
  have kind : (Token.moved bytes ⟨.tag, '@' :: insertion.body, insertion.left.byteSize + 1⟩).kind = .tag := rfl
  have text : (Token.moved bytes ⟨.tag, '@' :: insertion.body, insertion.left.byteSize + 1⟩).text =
    '@' :: insertion.body := rfl
  generalize Token.moved bytes ⟨.tag, '@' :: insertion.body, insertion.left.byteSize + 1⟩ = tag at kind text ⊢
  generalize (tokenize insertion.right).map (Token.moved (bytes + (insertion.left.byteSize + insertion.bytes))) = spaces
    at trailing ⊢
  have tagged (front : Text) (typed : Bool) : ∃ right, (∀ c ∈ right, isBlank c = true) ∧
      Statement.collect front typed depth (tag :: (spaces ++ more)) =
        Statement.finish (front ++ '@' :: (insertion.body ++ right)) after := by
    obtain ⟨right, trails, read⟩ :=
      Statement.collect_spaces depth more after concludes (front ++ tag.text) typed spaces trailing
    refine ⟨right, trails, ?_⟩
    rw [Statement.collect_tag front typed depth tag _ kind, read, text, List.append_assoc, List.cons_append]
  rw [Statement.collect, if_neg (by simp [Token.isPunct])]
  split
  · split
    · obtain ⟨right, trails, read⟩ := tagged (statement ++ [' ']) typed
      refine ⟨[], right, by simp, trails, .inl ?_⟩
      rw [read, List.append_assoc]
      rfl
    · obtain ⟨right, trails, read⟩ := tagged (Text.afterLast '\n' (insertion.left ++ [' '])) false
      have blanks : ∀ c ∈ insertion.left ++ [' '], isBlank c = true :=
        List.forall_mem_append.mpr ⟨insertion.leads, List.forall_mem_singleton.mpr rfl⟩
      exact ⟨_, right, Statement.indentation_blank _ blanks, trails, .inr (congrArg (Statement.finish statement) read)⟩
  · obtain ⟨right, trails, read⟩ := tagged (statement ++ (insertion.left ++ [' ']))
      (typed || (depth = 0 && Token.isPunct ':' ⟨.space, insertion.left ++ [' '], bytes⟩))
    refine ⟨insertion.left, right, insertion.leads, trails, .inl ?_⟩
    have whole : statement ++ (insertion.left ++ ' ' :: '@' :: (insertion.body ++ right)) =
        statement ++ (insertion.left ++ [' ']) ++ '@' :: (insertion.body ++ right) := by simp
    rw [Statement.depth_after_space depth _ rfl, whole]
    exact read

section

variable (p y q : Text) (seam : Seam p (insertion.gap ++ y)) (ends : Ends y) (inside : q <+: y)
  (ended : EndsElement (bracketsOpen 0 (tokenize p)) q) (earlier : List Text) (statement : Text)
  (alone : statements (p ++ q.take 1) = earlier ++ [statement])

include seam ended alone

theorem statements_on (g : Text) (loose : Loose (tokenize g))
    (read : tokenize (p ++ (g ++ q)) = tokenize p ++ tokensBehind p g q) : ∃ typed,
    statements (p ++ (g ++ q)) = earlier ++ Statement.collect statement typed (bracketsOpen 0 (tokenize p))
      ((tokenize g).map (Token.moved p.byteSize) ++ (tokenize q).map (Token.moved (p.byteSize + g.byteSize))) := by
  obtain ⟨_, typed, further⟩ := seam.statement_on p _ q ended earlier statement alone
  refine ⟨typed, ?_⟩
  rw [statements, read]
  refine further _ fun words => ?_
  rw [tokensBehind, Statement.carries_on_loose words _ _ (loose.moved p.byteSize)]
  exact ended.alike _ words

include ends inside

theorem statements_with_gap : ∃ w : Text, (∀ c ∈ w, isBlank c = true) ∧
    statements (p ++ (insertion.gap ++ q)) = earlier ++ (statement ++ w) :: statements (q.drop 1) := by
  obtain ⟨seen, _⟩ := seam.statement_on p _ q ended earlier statement alone
  obtain ⟨typed, read⟩ := insertion.statements_on p y q seam ended earlier statement alone insertion.gap
    (loose_blanks _ insertion.blanks) (insertion.tokens_with_gap p y seam ends q inside)
  obtain ⟨w, white, behind⟩ := Statement.collect_spaces _ _ _ (ended.concludes (p.byteSize + insertion.gap.byteSize))
    statement typed _ (space_tokens p.byteSize insertion.gap insertion.blanks)
  refine ⟨w, white, ?_⟩
  rw [read, behind, Statement.finish, Statement.filled_append statement w (.inl seen), if_neg Bool.false_ne_true]

theorem statements_with_text (fits : insertion.Fits y) : ∃ left right : Text,
    (∀ c ∈ left, isBlank c = true) ∧ (∀ c ∈ right, isBlank c = true) ∧
      (statements (p ++ (insertion.text ++ q)) =
          earlier ++ (statement ++ (left ++ ' ' :: '@' :: (insertion.body ++ right))) :: statements (q.drop 1) ∨
        statements (p ++ (insertion.text ++ q)) =
          earlier ++ statement :: (left ++ '@' :: (insertion.body ++ right)) :: statements (q.drop 1)) := by
  obtain ⟨seen, _⟩ := seam.statement_on p _ q ended earlier statement alone
  obtain ⟨typed, read⟩ := insertion.statements_on p y q seam ended earlier statement alone insertion.text
    insertion.loose (insertion.tokens_with_text p y seam ends fits q inside)
  obtain ⟨left, right, leads, trails, behind⟩ := insertion.collect_text _ p.byteSize _ _
    (ended.concludes (p.byteSize + insertion.text.byteSize)) statement typed
  have annotated : (left ++ '@' :: (insertion.body ++ right)).isBlank = false := by
    rw [Text.isBlank, List.all_eq_false]
    exact ⟨'@', by simp, by decide⟩
  refine ⟨left, right, leads, trails, behind.imp (fun behind => ?_) fun behind => ?_⟩
  · rw [read, behind, Statement.finish, Statement.filled_append statement _ (.inl seen), if_neg Bool.false_ne_true]
  · rw [read, behind, Statement.finish, seen, if_neg Bool.false_ne_true, Statement.finish, annotated,
      if_neg Bool.false_ne_true]

end

/-! What is said by a statement with an annotation, and by an annotation alone. -/

theorem read_alone (left right : Text) (leads : ∀ c ∈ left, isBlank c = true) (trails : ∀ c ∈ right, isBlank c = true) :
    BodyLine.read (left ++ '@' :: (insertion.body ++ right)) = .skip .remarks := by
  have follows : Follows insertion.bare (right ++ []) := Ends.follows _ right [] trails (by simp [Ends]) (by simp)
  rw [List.append_nil] at follows
  have cut := insertion.shape.cut insertion.bare _ right follows
  have split := Apart.of_blanks left ('@' :: (insertion.body ++ right)) leads rfl
  rw [Apart, tokenize_of_cut '@' insertion.body right .tag cut, List.map_cons, moved_again] at split
  have loose : Loose (tokenize (left ++ '@' :: (insertion.body ++ right))) := by
    rw [split]
    refine List.forall_mem_append.mpr ⟨loose_blanks left leads, List.forall_mem_cons.mpr ⟨.inr rfl, ?_⟩⟩
    exact (loose_blanks right trails).moved _
  have silent := List.all_eq_true.mpr (BodyLine.code_of_loose _ loose)
  have remarked : (tokenize (left ++ '@' :: (insertion.body ++ right))).any Token.isRemark = true := by
    rw [split, List.any_append, List.any_cons]
    simp [Token.isRemark, Token.moved]
  unfold BodyLine.read BodyLine.ofTokens
  dsimp only
  rw [silent, if_pos rfl, remarked, if_pos rfl]

section

variable (statement name rawType : Text) (whole : Seam statement [';'])
  (element : BodyLine.read statement = .element name rawType)

include whole element

theorem said_annotated (left right : Text) (leads : ∀ c ∈ left, isBlank c = true)
    (trails : ∀ c ∈ right, isBlank c = true) (types : TypeTable) (file : SourceFile) (owner : Text) :
    Yield.ofStatement types file owner (statement ++ (left ++ ' ' :: '@' :: (insertion.body ++ right))) =
      Yield.ofStatement types file owner statement := by
  let other : Insertion := ⟨left, insertion.bare, insertion.body, right, leads, insertion.shape, trails⟩
  have halts := other.halts [';'] []
  rw [List.append_nil] at halts
  exact Yield.of_statement_trailing statement other.text (whole.apart_of_halts _ _ _ halts) other.loose types file owner
    name rawType element

end

-- What a body says, but for an annotation that stands alone and says nothing.
theorem said_around (p y q : Text) (seam : Seam p (insertion.gap ++ y)) (ends : Ends y) (fits : insertion.Fits y)
    (inside : q <+: y) (ended : EndsElement (bracketsOpen 0 (tokenize p)) q) (earlier : List Text)
    (statement name rawType : Text) (alone : statements (p ++ q.take 1) = earlier ++ [statement])
    (element : BodyLine.read statement = .element name rawType) (whole : Seam statement [';']) (types : TypeTable)
    (file : SourceFile) (owner : Text) : ∃ before silent after : List Yield, (silent = [] ∨ silent = [{}]) ∧
      (statements (p ++ (insertion.gap ++ q))).map (Yield.ofStatement types file owner) = before ++ after ∧
      (statements (p ++ (insertion.text ++ q))).map (Yield.ofStatement types file owner) =
        before ++ (silent ++ after) := by
  obtain ⟨w, blanks, old⟩ :=
    insertion.statements_with_gap p y q seam ends inside ended earlier statement alone
  obtain ⟨left, right, leads, trails, new⟩ :=
    insertion.statements_with_text p y q seam ends inside ended earlier statement alone fits
  have plain := Yield.of_statement_blanks statement name rawType whole element w blanks types file owner
  have tagged := insertion.said_annotated statement name rawType whole element left right leads trails types file owner
  have silent : Yield.ofStatement types file owner (left ++ '@' :: (insertion.body ++ right)) = {} := by
    rw [Yield.ofStatement, insertion.read_alone left right leads trails]
  have same : (statements (p ++ (insertion.gap ++ q))).map (Yield.ofStatement types file owner) =
      (earlier ++ [statement]).map (Yield.ofStatement types file owner) ++
        (statements (q.drop 1)).map (Yield.ofStatement types file owner) := by
    rw [old]
    simp [plain]
  rcases new with new | new
  · refine ⟨_, [], _, .inl rfl, same, ?_⟩
    rw [new]
    simp [tagged]
  · refine ⟨_, [{}], _, .inr rfl, same, ?_⟩
    rw [new]
    simp [silent]

-- The annotation has no part in what is shown of the fragment.
theorem render_around (p y q : Text) (seam : Seam p (insertion.gap ++ y)) (ends : Ends y) (fits : insertion.Fits y)
    (inside : q <+: y) (ended : EndsElement (bracketsOpen 0 (tokenize p)) q) (earlier : List Text)
    (statement name rawType : Text) (alone : statements (p ++ q.take 1) = earlier ++ [statement])
    (element : BodyLine.read statement = .element name rawType) (whole : Seam statement [';'])
    (fragment changed : Fragment) (kind : changed.kind = fragment.kind) (named : changed.name = fragment.name)
    (old : fragment.body? = some (p ++ (insertion.gap ++ q))) (new : changed.body? = some (p ++ (insertion.text ++ q)))
    (types : TypeTable) (file : SourceFile) : changed.render types file = fragment.render types file := by
  obtain ⟨before, silent, after, nothing, first, second⟩ := insertion.said_around p y q seam ends fits inside ended
    earlier statement name rawType alone element whole types file fragment.name
  have said : fragment.yields types file = before ++ after := by
    rw [Fragment.yields, Fragment.statements, old]
    exact first
  have saidAgain : changed.yields types file = before ++ (silent ++ after) := by
    rw [Fragment.yields, Fragment.statements, new, named]
    exact second
  rw [Fragment.render, Fragment.render, said, saidAgain, kind, named]
  rcases nothing with rfl | rfl <;> simp [List.filterMap_append]

end Insertion

end SchemaDiagram
