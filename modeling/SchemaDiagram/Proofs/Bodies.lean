import SchemaDiagram.Proofs.CutOut
import SchemaDiagram.Proofs.Fronts

/-!
The body of a fragment. A fragment is read without the text around it, and has a body where its declaration ended at a
brace, which is then the text between that brace and the first one behind the name.
-/

set_option autoImplicit false

namespace SchemaDiagram

-- Whether the first brace to be opened is closed, when `depth` braces are open already.
def closesFirst : Nat → List Bool → Bool
  | _, [] => false
  | depth, true :: marks => closesFirst (depth + 1) marks
  | 0, false :: marks => closesFirst 0 marks
  | 1, false :: _ => true
  | depth + 2, false :: marks => closesFirst (depth + 1) marks

theorem brace_marks_cons (token : Token) (tokens : List Token) :
    braceMarks (token :: tokens) = token.brace?.toList ++ braceMarks tokens := by
  rw [braceMarks, List.filterMap_cons]
  cases token.brace? <;> rfl

namespace Token

theorem brace_opening (token : Token) (opening : token.isPunct '\x7b' = true) : token.brace? = some true := by
  rw [brace?, if_pos opening]

theorem brace_closing (token : Token) (closing : token.isPunct '\x7d' = true) : token.brace? = some false := by
  rw [brace?, if_neg (by rw [token.is_punct_apart _ '\x7b' closing (by decide)]; simp), if_pos closing]

theorem brace_none (token : Token) (opening : ¬ token.isPunct '\x7b' = true) (closing : ¬ token.isPunct '\x7d' = true) :
    token.brace? = none := by
  rw [brace?, if_neg opening, if_neg closing]

end Token

namespace Body

-- One token at a time: a brace changes the depth, or the one that closes the body ends the scan.
theorem inside_opening (depth : Nat) (token : Token) (rest : List Token) (opening : token.isPunct '\x7b' = true) :
    inside? depth (token :: rest) = (inside? (depth + 1) rest).map (token :: ·) := by
  rw [inside?.eq_def]
  exact if_pos opening

theorem inside_closing (depth : Nat) (token : Token) (rest : List Token) (closing : token.isPunct '\x7d' = true) :
    inside? (depth + 1) (token :: rest) = (inside? depth rest).map (token :: ·) := by
  rw [inside?.eq_def]
  dsimp only
  rw [if_neg (by rw [token.is_punct_apart _ '\x7b' closing (by decide)]; simp), if_pos closing]

theorem inside_closed (token : Token) (rest : List Token) (closing : token.isPunct '\x7d' = true) :
    inside? 0 (token :: rest) = some [] := by
  rw [inside?.eq_def]
  dsimp only
  rw [if_neg (by rw [token.is_punct_apart _ '\x7b' closing (by decide)]; simp), if_pos closing]

theorem inside_other (depth : Nat) (token : Token) (rest : List Token) (opening : ¬ token.isPunct '\x7b' = true)
    (closing : ¬ token.isPunct '\x7d' = true) :
    inside? depth (token :: rest) = (inside? depth rest).map (token :: ·) := by
  rw [inside?.eq_def]
  dsimp only
  rw [if_neg opening, if_neg closing]

theorem inside_closes (depth : Nat) (tokens : List Token) :
    (inside? depth tokens).isSome = closesFirst (depth + 1) (braceMarks tokens) := by
  fun_induction inside? depth tokens with
  | case1 => rfl
  | case2 depth token rest opening ih =>
    rw [brace_marks_cons, token.brace_opening opening, Option.isSome_map]
    exact ih
  | case3 token rest _ closing =>
    rw [brace_marks_cons, token.brace_closing closing]
    rfl
  | case4 token rest _ closing depth ih =>
    rw [brace_marks_cons, token.brace_closing closing, Option.isSome_map]
    exact ih
  | case5 depth token rest opening closing ih =>
    rw [brace_marks_cons, token.brace_none opening closing, Option.isSome_map]
    exact ih

theorem of_tokens_closes (tokens : List Token) : (ofTokens? tokens).isSome = closesFirst 0 (braceMarks tokens) := by
  induction tokens with
  | nil => rfl
  | cons token rest ih =>
    by_cases opening : token.isPunct '\x7b' = true
    · rw [ofTokens?, List.dropWhile_cons_of_neg (by simp [opening]), brace_marks_cons, token.brace_opening opening]
      dsimp only
      rw [Option.isSome_map]
      exact inside_closes 0 rest
    · have passed : ofTokens? (token :: rest) = ofTokens? rest := by
        rw [ofTokens?, ofTokens?, List.dropWhile_cons_of_pos (by simp [opening])]
      rw [passed, ih, brace_marks_cons]
      by_cases closing : token.isPunct '\x7d' = true
      · rw [token.brace_closing closing]
        rfl
      · rw [token.brace_none opening closing]
        rfl

theorem inside_moved (bytes depth : Nat) (tokens : List Token) :
    inside? depth (tokens.map (Token.moved bytes)) = (inside? depth tokens).map (List.map (Token.moved bytes)) := by
  fun_induction inside? depth tokens with
  | case1 => rfl
  | case2 depth token rest opening ih =>
    rw [List.map_cons, inside_opening depth (token.moved bytes) _ opening, ih, Option.map_map, Option.map_map]
    rfl
  | case3 token rest _ closing => exact inside_closed (token.moved bytes) _ closing
  | case4 token rest _ closing depth ih =>
    rw [List.map_cons, inside_closing depth (token.moved bytes) _ closing, ih, Option.map_map, Option.map_map]
    rfl
  | case5 depth token rest opening closing ih =>
    rw [List.map_cons, inside_other depth (token.moved bytes) _ opening closing, ih, Option.map_map, Option.map_map]
    rfl

-- The text of a body does not depend on the place of the tokens.
theorem text_moved (bytes : Nat) (tokens : List Token) :
    (ofTokens? (tokens.map (Token.moved bytes))).map Body.text = (ofTokens? tokens).map Body.text := by
  have left : (tokens.map (Token.moved bytes)).dropWhile (!·.isPunct '\x7b') =
      (tokens.dropWhile (!·.isPunct '\x7b')).map (Token.moved bytes) := List.dropWhile_map
  rw [ofTokens?, ofTokens?, left]
  cases tokens.dropWhile (!·.isPunct '\x7b') with
  | nil => rfl
  | cons opening rest =>
    rw [List.map_cons]
    dsimp only
    rw [inside_moved]
    cases inside? 0 rest with
    | none => rfl
    | some inside => exact congrArg some (untokenize_moved bytes inside)

theorem first_brace (tokens : List Token) (opened : ∃ opening ∈ tokens, opening.isPunct '\x7b' = true) :
    ∃ before opening rest, (∀ token ∈ before, token.isPunct '\x7b' = false) ∧ tokens = before ++ opening :: rest ∧
      opening.isPunct '\x7b' = true := by
  have parts := List.takeWhile_append_dropWhile (p := (!·.isPunct '\x7b')) (l := tokens)
  have brace := List.head?_dropWhile_not (!·.isPunct '\x7b') tokens
  cases first : tokens.dropWhile (!·.isPunct '\x7b') with
  | nil =>
    obtain ⟨opening, member, punct⟩ := opened
    have closed := List.dropWhile_eq_nil_iff.mp first opening member
    rw [punct] at closed
    contradiction
  | cons opening rest =>
    rw [first] at parts brace
    exact ⟨_, opening, rest, fun token member => by simpa using List.mem_takeWhile_imp member, parts.symm,
      by simpa using brace⟩

theorem of_tokens_first (front rest : List Token) (opening : Token)
    (closed : ∀ token ∈ front, token.isPunct '\x7b' = false) (brace : opening.isPunct '\x7b' = true) :
    ofTokens? (front ++ opening :: rest) = (inside? 0 rest).map fun inside => ⟨opening.stop, untokenize inside⟩ := by
  have left : (front ++ opening :: rest).dropWhile (!·.isPunct '\x7b') = opening :: rest := by
    rw [List.dropWhile_append_of_pos fun token member => by simp [closed token member],
      List.dropWhile_cons_of_neg (by simp [brace])]
  rw [ofTokens?, left]

theorem of_tokens_at (front rest : List Token) (opening : Token) (closed : ∀ token ∈ front, token.isPunct '\x7b' = false)
    (brace : opening.isPunct '\x7b' = true) (inside : List Token) (read : inside? 0 rest = some inside) :
    ofTokens? (front ++ opening :: rest) = some ⟨opening.stop, untokenize inside⟩ := by
  rw [of_tokens_first front rest opening closed brace, read]
  rfl

end Body

namespace Declaration

-- A declaration ends at a brace where the body of its tokens does, and the two count alike.
theorem extent_closes (limit : Option Nat) (depth : Nat) (tokens : List Token) :
    decide ((extent limit depth tokens).2 = .brace) = closesFirst depth (braceMarks (extent limit depth tokens).1) := by
  fun_induction extent limit depth tokens with
  | case1 => rfl
  | case2 => rfl
  | case3 depth token rest _ opening ih =>
    rw [goesOn, brace_marks_cons, token.brace_opening opening]
    exact ih
  | case4 token rest _ _ closing =>
    rw [Bool.and_eq_true] at closing
    rw [brace_marks_cons, token.brace_closing closing.1]
    rfl
  | case5 depth token rest _ _ closing inner ih =>
    rw [Bool.and_eq_true, decide_eq_true_eq] at closing
    obtain ⟨deeper, rfl⟩ : ∃ deeper, depth = deeper + 2 := ⟨depth - 2, by omega⟩
    rw [goesOn, brace_marks_cons, token.brace_closing closing.1]
    exact ih
  | case6 depth token rest _ opening closing semicolon =>
    rw [Bool.and_eq_true] at semicolon
    rw [brace_marks_cons, token.brace_none opening (by rw [token.is_punct_apart _ '\x7d' semicolon.1 (by decide)]; simp)]
    rfl
  | case7 depth token rest _ opening closing _ ih =>
    rw [goesOn, brace_marks_cons]
    by_cases brace : token.isPunct '\x7d' = true
    · -- A brace with none to close is passed over.
      obtain rfl : depth = 0 := by simpa [brace] using closing
      rw [token.brace_closing brace]
      exact ih
    · rw [token.brace_none opening brace]
      exact ih

theorem extent_inside (limit : Option Nat) (depth : Nat) (tokens : List Token)
    (ended : (extent limit (depth + 1) tokens).2 = .brace) :
    ∃ inside closing, (extent limit (depth + 1) tokens).1 = inside ++ [closing] ∧ closing.isPunct '\x7d' = true ∧
      Body.inside? depth (extent limit (depth + 1) tokens).1 = some inside := by
  induction tokens generalizing depth with
  | nil => contradiction
  | cons token rest ih =>
    rw [extent, if_neg (by simp)] at ended ⊢
    split
    · rename_i opening
      rw [if_pos opening] at ended
      obtain ⟨inside, closing, taken, brace, read⟩ := ih (depth + 1) ended
      refine ⟨token :: inside, closing, congrArg (token :: ·) taken, brace, ?_⟩
      rw [goesOn, Body.inside_opening depth token _ opening, read]
      rfl
    · rename_i opening
      rw [if_neg opening] at ended
      split
      · rename_i closing
        rw [if_pos closing] at ended
        rw [Bool.and_eq_true] at closing
        cases depth with
        | zero => exact ⟨[], token, rfl, closing.1, Body.inside_closed token [] closing.1⟩
        | succ depth =>
          rw [if_neg (by omega)] at ended ⊢
          obtain ⟨inside, last, taken, brace, read⟩ := ih depth ended
          refine ⟨token :: inside, last, congrArg (token :: ·) taken, brace, ?_⟩
          rw [goesOn, Body.inside_closing depth token _ closing.1]
          exact congrArg (Option.map (token :: ·)) read
      · rename_i closing
        rw [if_neg closing, if_neg (by simp)] at ended
        rw [if_neg (by simp)]
        obtain ⟨inside, last, taken, brace, read⟩ := ih depth ended
        refine ⟨token :: inside, last, congrArg (token :: ·) taken, brace, ?_⟩
        rw [goesOn, Body.inside_other depth token _ opening (by simpa using closing), read]
        rfl

theorem extent_body (limit : Option Nat) (tokens : List Token) (ended : (extent limit 0 tokens).2 = .brace) :
    ∃ front opening inside closing, (extent limit 0 tokens).1 = front ++ opening :: (inside ++ [closing]) ∧
      (∀ token ∈ front, token.isPunct '\x7b' = false) ∧ opening.isPunct '\x7b' = true ∧
      closing.isPunct '\x7d' = true ∧ Body.inside? 0 (inside ++ [closing]) = some inside := by
  induction tokens with
  | nil => contradiction
  | cons token rest ih =>
    rw [extent] at ended ⊢
    split
    · rename_i before
      rw [if_pos before] at ended
      contradiction
    · rename_i before
      rw [if_neg before] at ended
      split
      · rename_i opening
        rw [if_pos opening] at ended
        obtain ⟨inside, closing, taken, brace, read⟩ := extent_inside limit 0 rest ended
        rw [taken] at read
        exact ⟨[], token, inside, closing, congrArg (token :: ·) taken, by simp, opening, brace, read⟩
      · rename_i other
        rw [if_neg other, if_neg (by simp)] at ended
        rw [if_neg (by simp)]
        split
        · rename_i semicolon
          rw [if_pos semicolon] at ended
          contradiction
        · rename_i semicolon
          rw [if_neg semicolon] at ended
          obtain ⟨front, opening, inside, closing, taken, free, more⟩ := ih ended
          refine ⟨token :: front, opening, inside, closing, congrArg (token :: ·) taken, ?_, more⟩
          exact List.forall_mem_cons.mpr ⟨by simpa using other, free⟩

end Declaration

/-! The text of a declaration is read as the tokens it was cut out of. -/

theorem read_again (t : Text) (paired : t.pairedReturns = true) (declaration : Declaration)
    (member : declaration ∈ Declaration.ofText t) :
    declaration.text.pairedReturns = true ∧ tokensFrom declaration.start declaration.text = declaration.tokens := by
  obtain ⟨header, among, limit, rfl⟩ := Declaration.of_headers_member 0 _ declaration member
  obtain ⟨before, after, split, start⟩ := Declaration.of_header_stands t header among limit
  have texts := paired_tokens 0 t paired
  rw [← tokenize, split] at texts
  constructor
  · exact Text.paired_flat_map _ Token.text fun token inside => texts token (by simp [inside])
  · have back := tokens_of_back 0 t before _ split
    rw [Nat.zero_add, ← start] at back
    have pairedBack : (untokenize ((Declaration.ofHeader header limit).tokens ++ after)).pairedReturns = true :=
      Text.paired_flat_map _ Token.text fun token inside => texts token (List.mem_append_right before inside)
    exact tokens_of_front header.start _ pairedBack _ after back

theorem brace_marks_again (t : Text) (paired : t.pairedReturns = true) (declaration : Declaration)
    (member : declaration ∈ Declaration.ofText t) :
    braceMarks (tokenize declaration.text) = braceMarks declaration.tokens := by
  rw [← (read_again t paired declaration member).2, tokens_from_start, brace_marks_moved]

-- Keyword, white space and name are no punctuation.
theorem Declaration.lead_unpunctuated (t : Text) (declaration : Declaration) (member : declaration ∈ ofText t) :
    ∀ token ∈ declaration.lead, ∀ c, token.isPunct c = false := by
  obtain ⟨header, among, limit, rfl⟩ := of_headers_member 0 _ declaration member
  obtain ⟨before, gap, keyword, name, placed⟩ := header.placed t among
  intro token inside c
  have within := (List.takeWhile_prefix _).subset inside
  rw [placed.spelled.lead] at within
  simp only [List.cons_append, List.mem_cons, List.mem_append, List.not_mem_nil, or_false] at within
  rcases within with rfl | space | rfl
  · simp [Token.isPunct, placed.word]
  · simp [Token.isPunct, of_decide_eq_true (placed.spelled.spaces token space)]
  · simp [Token.isPunct, placed.spelled.word]

namespace Fragment

theorem text_trimmed (t : Text) (declaration : Declaration) (member : declaration ∈ Declaration.ofText t) :
    (ofDeclaration declaration).text = declaration.text.trimEnd := by
  obtain ⟨header, among, limit, limits, rfl⟩ := Declaration.of_text_limits t declaration member
  obtain ⟨before, gap, keyword, name, placed⟩ := header.placed t among
  obtain ⟨more, whole, shown⟩ := shown_front placed limit limits
  obtain ⟨filled, _, solid⟩ := keyword_text placed
  rw [shown, whole]
  exact (Text.trim_end_append _ _ (Text.trim_end_solid [] _ filled solid)).symm

theorem body_iff_brace (t : Text) (paired : t.pairedReturns = true) (declaration : Declaration)
    (member : declaration ∈ Declaration.ofText t) :
    (ofDeclaration declaration).body?.isSome = true ↔ declaration.ending = .brace := by
  have text := text_trimmed t declaration member
  have marks := brace_marks_again t paired declaration member
  have trimmed := brace_marks_trim_end declaration.text (read_again t paired declaration member).1
  rw [body?, Option.isSome_map, text, Body.ofText?, Body.of_tokens_closes, trimmed, marks]
  have lead : braceMarks declaration.lead = [] := by
    rw [braceMarks, List.filterMap_eq_nil_iff]
    intro token inside
    have other := declaration.lead_unpunctuated t member token inside
    exact token.brace_none (by simp [other]) (by simp [other])
  obtain ⟨header, among, limit, rfl⟩ := Declaration.of_headers_member 0 _ declaration member
  have counted := Declaration.extent_closes limit 0 header.rest
  rw [Declaration.tokens, braceMarks, List.filterMap_append, ← braceMarks, lead, List.nil_append]
  change closesFirst 0 (braceMarks (Declaration.extent limit 0 header.rest).1) = true ↔
    (Declaration.extent limit 0 header.rest).2 = .brace
  rw [← counted, decide_eq_true_iff]

-- A brace at the end of a text is not trimmed.
theorem trim_behind_brace (tokens : List Token) (closing : Token) (text : closing.text = ['\x7d']) :
    (untokenize (tokens ++ [closing])).trimEnd = untokenize (tokens ++ [closing]) := by
  have last : untokenize [closing] = ['\x7d'] := (List.flatMap_singleton Token.text closing).trans text
  rw [untokenize_append, last]
  exact Text.trim_end_solid _ _ (by simp) (by decide)

-- A declaration that ends at a brace is shown as it is, and its body is read off its own tokens.
theorem body_of_brace (t : Text) (paired : t.pairedReturns = true) (declaration : Declaration)
    (member : declaration ∈ Declaration.ofText t) (ended : declaration.ending = .brace) :
    ∃ front opening inside closing, declaration.rest = front ++ opening :: (inside ++ [closing]) ∧
      (∀ token ∈ front, token.isPunct '\x7b' = false) ∧ opening.isPunct '\x7b' = true ∧
      closing.isPunct '\x7d' = true ∧ (ofDeclaration declaration).body? = some (untokenize inside) := by
  have text := text_trimmed t declaration member
  have again := (read_again t paired declaration member).2
  have lead := declaration.lead_unpunctuated t member
  obtain ⟨front, opening, inside, closing, taken, free, first, last, read⟩ :
      ∃ front opening inside closing, declaration.rest = front ++ opening :: (inside ++ [closing]) ∧
        (∀ token ∈ front, token.isPunct '\x7b' = false) ∧ opening.isPunct '\x7b' = true ∧
        closing.isPunct '\x7d' = true ∧ Body.inside? 0 (inside ++ [closing]) = some inside := by
    obtain ⟨header, _, limit, rfl⟩ := Declaration.of_headers_member 0 _ declaration member
    exact Declaration.extent_body limit header.rest ended
  refine ⟨front, opening, inside, closing, taken, free, first, last, ?_⟩
  have tokens : declaration.tokens = (declaration.lead ++ front) ++ opening :: (inside ++ [closing]) := by
    rw [Declaration.tokens, taken, List.append_assoc]
  have whole : declaration.text.trimEnd = declaration.text := by
    have brace := punct_text declaration.start declaration.text closing (by rw [again, tokens]; simp) '\x7d' last
    have regroup : declaration.tokens = (declaration.lead ++ front ++ opening :: inside) ++ [closing] := by simp [tokens]
    rw [Declaration.text, regroup]
    exact trim_behind_brace _ closing brace
  have closed : ∀ token ∈ declaration.lead ++ front, token.isPunct '\x7b' = false := by
    intro token within
    rcases List.mem_append.mp within with early | rest
    · exact lead token early '\x7b'
    · exact free token rest
  rw [tokens_from_start] at again
  rw [body?, text, whole, Body.ofText?, ← Body.text_moved declaration.start, again, tokens,
    Body.of_tokens_at _ _ opening closed first inside read]
  rfl

end Fragment

-- The fragment of a declaration has a body if and only if that ended at a brace. The body then goes from the first
-- opening brace behind the name to the brace where the declaration ends.
theorem body_between_braces (source : Text) (paired : source.pairedReturns = true) :
    ∀ declaration ∈ Declaration.ofText (withoutComments source),
      ((Fragment.ofDeclaration declaration).body?.isSome = true ↔ declaration.ending = .brace) ∧
        ∀ body, (Fragment.ofDeclaration declaration).body? = some body →
          ∃ front opening inside closing, declaration.rest = front ++ opening :: (inside ++ [closing]) ∧
            (∀ token ∈ front, token.isPunct '\x7b' = false) ∧ opening.isPunct '\x7b' = true ∧
            closing.isPunct '\x7d' = true ∧ closing.stop = declaration.stop ∧
            (withoutComments source).slice? opening.stop closing.start = some body := by
  have bare := (without_comments_bare source paired).2
  intro declaration member
  have iff := Fragment.body_iff_brace _ bare declaration member
  refine ⟨iff, ?_⟩
  intro body found
  have ended : declaration.ending = .brace := iff.mp (by rw [found]; rfl)
  obtain ⟨front, opening, inside, closing, taken, free, first, last, read⟩ :=
    Fragment.body_of_brace _ bare declaration member ended
  obtain rfl : untokenize inside = body := Option.some.inj (read.symm.trans found)
  refine ⟨front, opening, inside, closing, taken, free, first, last, ?_⟩
  obtain ⟨header, among, limit, rfl⟩ := Declaration.of_headers_member 0 _ declaration member
  obtain ⟨before, after, split, start⟩ := Declaration.of_header_stands _ header among limit
  have tokens : (Declaration.ofHeader header limit).tokens =
      (Declaration.ofHeader header limit).lead ++ front ++ opening :: (inside ++ [closing]) := by
    rw [Declaration.tokens, taken, List.append_assoc]
  generalize (Declaration.ofHeader header limit).lead ++ front = lead at tokens
  have atOpening : tokenize (withoutComments source) =
      (before ++ lead) ++ opening :: (inside ++ closing :: after) := by simp [split, tokens]
  have atClosing : tokenize (withoutComments source) =
      (before ++ lead ++ opening :: inside) ++ closing :: after := by simp [split, tokens]
  have opened := token_stop 0 _ _ _ opening atOpening
  have closedAt := token_start 0 _ _ _ closing atClosing
  rw [Nat.zero_add] at opened closedAt
  constructor
  · rw [token_stop 0 _ _ _ closing atClosing, Nat.zero_add]
    change _ = header.start + (Declaration.ofHeader header limit).text.byteSize
    rw [start, Declaration.text, tokens, ← Text.byte_size_append, ← untokenize_append]
    simp
  · rw [Text.slice_eq_some_iff]
    refine ⟨_, _, stretch_of_tokens _ (before ++ lead ++ [opening]) inside (closing :: after) (by simp [atOpening]),
      opened, ?_⟩
    rw [closedAt, opened, ← Text.byte_size_append, ← untokenize_append]
    simp

-- Braces in a literal, in an annotation and in a comment, a body that holds braces itself, and an end at a semicolon.
def nestedShelf : Text :=
  "entity Shelf : Base @(x: [ '\x7b' ]) // \x7d\r\n\x7b a : \x7b b : Int; \x7d; \x7d; type Size : String(2) \r\n; entity Open \x7b"

theorem nested_shelf_bodies :
    nestedShelf.pairedReturns = true ∧
      (∀ declaration ∈ Declaration.ofText (withoutComments nestedShelf),
        (Fragment.ofDeclaration declaration).body?.isSome = true ↔ declaration.ending = .brace) ∧
      (fragments nestedShelf).map Fragment.body? = [some " a : \x7b b : Int; \x7d; ".toList, none, none] := by
  have paired : nestedShelf.pairedReturns = true := by decide +kernel
  have told := body_between_braces nestedShelf paired
  exact ⟨paired, fun declaration member => (told declaration member).1, by decide +kernel⟩

end SchemaDiagram
