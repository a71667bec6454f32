import SchemaDiagram.Proofs.Joining
import SchemaDiagram.Proofs.Views

/-!
What a view leaves behind. A view whose query closes what it opens changes nothing about the text behind it, but its
own declaration ends with the first body of the query, and what follows there is searched for headers again.
-/

set_option autoImplicit false

namespace SchemaDiagram

open Scan Fragment

def viewOf (query : Text) : Text := "entity V as select from " ++ query ++ ";"

-- The bracket that closes the one that a token opens.
def Token.closer? (token : Token) : Option Char :=
  if token.isPunct '(' then some ')'
  else if token.isPunct '[' then some ']'
  else if token.isPunct '\x7b' then some '\x7d'
  else none

-- The closing brackets still to come after a token. Each bracket is closed by one of its kind, and there is no
-- semicolon outside of brackets.
def Token.bracketsAfter? (opened : List Char) (token : Token) : Option (List Char) :=
  match token.closer?, opened with
  | some closer, opened => some (closer :: opened)
  | none, [] => if token.isCloser || token.isPunct ';' then none else some []
  | none, closer :: outer =>
    if !token.isCloser then some (closer :: outer) else if token.isPunct closer then some outer else none

def nested (opened : List Char) : List Token → Bool
  | [] => opened.isEmpty
  | token :: rest =>
    match token.bracketsAfter? opened with
    | none => false
    | some next => nested next rest

structure Query (query : Text) : Prop where
  plain : ∀ token ∈ tokenize query, token.kind ≠ .comment ∧ token.kind ≠ .tag
  closed : ∀ token ∈ tokenize query, token.kind = .literal → token.text.tail.getLast? = some '\''
  nested : nested [] (tokenize query) = true

namespace Token

theorem closer_cases (token : Token) (closer : Char) (found : token.closer? = some closer) :
    (token.isPunct '\x7b' = true ∧ closer = '\x7d') ∨ (token.isPunct '\x7b' = false ∧ token.isPunct '\x7d' = false ∧
      closer ≠ '\x7d') := by
  have other (first : Char) (punct : token.isPunct first = true) (opening : first ≠ '\x7b') (closing : first ≠ '\x7d')
      (apart : closer ≠ '\x7d') : token.isPunct '\x7b' = false ∧ token.isPunct '\x7d' = false ∧ closer ≠ '\x7d' :=
    ⟨token.is_punct_apart first _ punct opening, token.is_punct_apart first _ punct closing, apart⟩
  unfold closer? at found
  split at found
  · rename_i round
    obtain rfl := Option.some.inj found
    exact .inr (other '(' round (by decide) (by decide) (by decide))
  · split at found
    · rename_i square
      obtain rfl := Option.some.inj found
      exact .inr (other '[' square (by decide) (by decide) (by decide))
    · split at found
      · rename_i brace
        obtain rfl := Option.some.inj found
        exact .inl ⟨brace, rfl⟩
      · contradiction

theorem not_opening (token : Token) (unopened : token.closer? = none) : token.isPunct '\x7b' = false := by
  unfold closer? at unopened
  split at unopened
  · contradiction
  · split at unopened
    · contradiction
    · split at unopened
      · contradiction
      · rename_i brace
        simpa using brace

theorem not_closing (token : Token) (unclosed : token.isCloser = false) : token.isPunct '\x7d' = false := by
  by_contra brace
  rw [Bool.not_eq_false, isPunct, Bool.and_eq_true, decide_eq_true_eq, decide_eq_true_eq] at brace
  rw [isCloser, brace.1, brace.2] at unclosed
  contradiction

-- Only braces count among the brackets.
theorem braces_of_brackets (opened next : List Char) (token : Token) (after : token.bracketsAfter? opened = some next) :
    token.bracesAfter (opened.count '\x7d') = next.count '\x7d' := by
  have kept (opening : token.isPunct '\x7b' = false) (closing : token.isPunct '\x7d' = false) (depth : Nat) :
      token.bracesAfter depth = depth := by
    simp [bracesAfter, opening, closing]
  unfold bracketsAfter? at after
  split at after
  · rename_i closer found
    obtain rfl := Option.some.inj after
    rcases token.closer_cases closer found with ⟨brace, rfl⟩ | ⟨opening, closing, apart⟩
    · simp [bracesAfter, brace]
    · rw [kept opening closing, List.count_cons_of_ne apart]
  · rename_i unopened
    split at after
    · contradiction
    · rename_i unclosed
      obtain rfl := Option.some.inj after
      exact kept (token.not_opening unopened) (token.not_closing (by simp at unclosed; exact unclosed.1)) _
  · rename_i last outer unopened
    have opening := token.not_opening unopened
    split at after
    · rename_i unclosed
      obtain rfl := Option.some.inj after
      exact kept opening (token.not_closing (by simpa using unclosed)) _
    · split at after
      · rename_i closes
        obtain rfl := Option.some.inj after
        by_cases brace : last = '\x7d'
        · subst brace
          simp [bracesAfter, opening, closes]
        · rw [kept opening (token.is_punct_apart last _ closes brace), List.count_cons_of_ne brace]
      · contradiction

end Token

theorem braces_of_nested (opened : List Char) (tokens : List Token) (inside : nested opened tokens = true) :
    bracesOpen (opened.count '\x7d') tokens = 0 := by
  induction tokens generalizing opened with
  | nil =>
    obtain rfl : opened = [] := by simpa [nested] using inside
    rfl
  | cons token rest ih =>
    rw [nested] at inside
    split at inside
    · contradiction
    · rename_i next after
      rw [bracesOpen, List.foldl_cons, token.braces_of_brackets opened next after]
      exact ih next inside

theorem after_quote_closed (front rest : Text) (last : front.getLast? = some '\'')
    (ended : afterQuote (front ++ rest) = rest) : ∃ inside, '\'' ∉ inside ∧ front = inside ++ ['\''] := by
  rcases after_quote_cases (front ++ rest) with ⟨free, _⟩ | ⟨inside, free, split⟩
  · exact absurd (List.mem_append_left rest (List.mem_of_getLast? last)) free
  · rw [ended, ← List.singleton_append, ← List.append_assoc] at split
    exact ⟨inside, free, (List.append_cancel_right split).symm⟩

theorem Scan.Cut.before_semicolon (c : Char) (front rest : Text) (kind : TokenKind)
    (cut : Cut c (front ++ rest) kind rest) (plain : kind ≠ .comment ∧ kind ≠ .tag)
    (closed : kind = .literal → front.getLast? = some '\'') :
    Cut c (front ++ (rest ++ [';'])) kind (rest ++ [';']) := by
  have stays (test : Char → Bool) (stops : test ';' = false) (first : rest.head?.any test = false) :
      (rest ++ [';']).head?.any test = false := by
    cases rest with
    | nil => simpa using stops
    | cons d rest => exact first
  generalize whole : front ++ rest = t at cut
  cases cut with
  | blank _ _ blank =>
    have passed := drop_while_again isBlank front _ _ (by rw [whole]) (stays isBlank (by decide))
    have read := Cut.blank c (front ++ (t.dropWhile isBlank ++ [';'])) blank
    rwa [passed] at read
  | comment => exact absurd rfl plain.1
  | slash _ uncommented =>
    obtain rfl : front = [] := List.append_left_eq_self.mp whole
    exact .slash _ (after_comment_append rest [';'] uncommented (by simp) (by simp))
  | tag => exact absurd rfl plain.2
  | literal =>
    obtain ⟨inside, free, split⟩ := after_quote_closed front _ (closed rfl) (by rw [whole])
    have passed := after_quote_inside inside (afterQuote t ++ [';']) free
    have read := Cut.literal (inside ++ '\'' :: (afterQuote t ++ [';']))
    rw [passed] at read
    rw [split, List.append_assoc]
    exact read
  | word _ _ word =>
    have passed := drop_while_again isWordChar front _ _ (by rw [whole]) (stays isWordChar (by decide))
    have read := Cut.word c (front ++ (t.dropWhile isWordChar ++ [';'])) word
    rwa [passed] at read
  | plain _ _ alone =>
    obtain rfl : front = [] := List.append_left_eq_self.mp whole
    exact .plain c _ alone

theorem tokens_before_semicolon (query : Text)
    (plain : ∀ token ∈ tokenize query, token.kind ≠ .comment ∧ token.kind ≠ .tag)
    (closed : ∀ token ∈ tokenize query, token.kind = .literal → token.text.tail.getLast? = some '\'') :
    tokenize (query ++ [';']) = tokenize query ++ [⟨.punct, [';'], query.byteSize⟩] := by
  induction query using text_induction with
  | nil =>
    rw [tokenize_nil]
    have read := tokenize_of_cut ';' [] [] .punct (.plain ';' [] (by decide))
    rwa [tokenize_nil] at read
  | token c front rest kind cut ih =>
    rw [tokenize_of_cut c front rest kind cut, List.forall_mem_cons, List.forall_mem_map] at plain closed
    have read := tokenize_of_cut c front (rest ++ [';']) kind (cut.before_semicolon c front rest kind plain.1 closed.1)
    rw [ih plain.2 closed.2, List.map_append] at read
    have size : Text.byteSize (c :: (front ++ rest)) = Text.byteSize (c :: front) + rest.byteSize :=
      Text.byte_size_append (c :: front) rest
    rw [tokenize_of_cut c front rest kind cut, List.cons_append, List.append_assoc, read, size]
    rfl

theorem brackets_moved (bytes : Nat) (opened : List Char) (tokens : List Token) :
    nested opened (tokens.map (Token.moved bytes)) = nested opened tokens := by
  induction tokens generalizing opened with
  | nil => rfl
  | cons token rest ih =>
    have same : (token.moved bytes).bracketsAfter? opened = token.bracketsAfter? opened := rfl
    rw [List.map_cons, nested, nested, same]
    cases token.bracketsAfter? opened with
    | none => rfl
    | some next => exact ih next

theorem brackets_space (opened : List Char) (token : Token) (rest : List Token) (space : token.kind = .space) :
    nested opened (token :: rest) = nested opened rest := by
  have same : token.bracketsAfter? opened = some opened := by
    cases opened <;> simp [Token.bracketsAfter?, Token.closer?, Token.isPunct, Token.isCloser, space]
  rw [nested, same]

theorem Query.drop_blanks (query : Text) (whole : Query query) : Query (query.dropWhile isBlank) := by
  rcases cut_blanks query with same | ⟨c, front, split, cut, _⟩
  · rwa [same]
  · obtain ⟨plain, closed, nested⟩ := whole
    generalize query.dropWhile isBlank = rest at split cut
    subst split
    rw [tokenize_of_cut c front rest .space cut] at plain closed nested
    rw [List.forall_mem_cons, List.forall_mem_map] at plain closed
    rw [brackets_space [] _ _ rfl, brackets_moved] at nested
    exact ⟨plain.2, closed.2, nested⟩

-- The tokens in front of the query, up to the name and behind it.
def viewLead : List Token := [⟨.word, "entity", 0⟩, ⟨.space, " ", 6⟩, ⟨.word, "V", 7⟩]

def viewStart : List Token :=
  [⟨.space, " ", 8⟩, ⟨.word, "as", 9⟩, ⟨.space, " ", 11⟩, ⟨.word, "select", 12⟩, ⟨.space, " ", 18⟩, ⟨.word, "from", 19⟩]

theorem view_tokens (behind : Text) :
    tokenize ("entity V as select from" ++ ' ' :: behind) = viewLead ++ viewStart ++ tokensFrom 23 (' ' :: behind) := by
  change tokensFrom 0
    ("entity" ++ ' ' :: ("V" ++ ' ' :: ("as" ++ ' ' :: ("select" ++ ' ' :: ("from" ++ ' ' :: behind))))) = _
  rw [tokens_word 0 "entity" _ (by decide) (by decide) rfl, tokens_blank _ _ rfl,
    tokens_word _ "V" _ (by decide) (by decide) rfl, tokens_blank _ _ rfl,
    tokens_word _ "as" _ (by decide) (by decide) rfl, tokens_blank _ _ rfl,
    tokens_word _ "select" _ (by decide) (by decide) rfl, tokens_blank _ _ rfl,
    tokens_word _ "from" _ (by decide) (by decide) rfl]
  rfl

-- White space, the tokens of the query and the semicolon.
theorem query_tokens (query : Text) (whole : Query query) :
    ∃ space bytes start, space.kind = .space ∧ tokensFrom 23 (' ' :: (query ++ [';'])) =
      space :: ((tokenize (query.dropWhile isBlank)).map (Token.moved bytes) ++ [⟨.punct, [';'], start⟩]) := by
  obtain ⟨plain, closed, _⟩ := whole.drop_blanks
  have read := Cut.blank ' ' (query ++ [';']) rfl
  have rest : (query ++ [';']).dropWhile isBlank = query.dropWhile isBlank ++ [';'] := by
    rw [List.dropWhile_append]
    split
    · rename_i nothing
      rw [List.isEmpty_iff.mp nothing]
      rfl
    · rfl
  have split := List.takeWhile_append_dropWhile (p := isBlank) (l := query ++ [';'])
  rw [rest] at read split
  generalize (query ++ [';']).takeWhile isBlank = front at split
  rw [← split] at read ⊢
  rw [tokens_of_cut 23 ' ' front _ .space read, tokens_from_start, tokens_before_semicolon _ plain closed,
    List.map_append]
  exact ⟨_, _, _, rfl, rfl⟩

theorem view_text (query : Text) :
    viewOf query = "entity V as select from" ++ ' ' :: (query ++ [';']) := by
  unfold viewOf
  have front : "entity V as select from ".toList = "entity V as select from".toList ++ [' '] := by decide
  rw [front, List.append_assoc, List.append_assoc]
  rfl

theorem braces_moved (depth bytes : Nat) (tokens : List Token) :
    bracesOpen depth (tokens.map (Token.moved bytes)) = bracesOpen depth tokens := by
  rw [bracesOpen, List.foldl_map]
  rfl

theorem view_closed (query : Text) (whole : Query query) :
    withoutComments (viewOf query) = viewOf query ∧ Closed (viewOf query) := by
  obtain ⟨plain, _, nested⟩ := whole.drop_blanks
  obtain ⟨space, bytes, start, kind, behind⟩ := query_tokens query whole
  generalize query.dropWhile isBlank = inner at plain nested behind
  have tokens : tokenize (viewOf query) = viewLead ++ viewStart ++ space ::
      ((tokenize inner).map (Token.moved bytes) ++ [⟨.punct, [';'], start⟩]) := by
    rw [← behind, ← view_tokens, view_text]
  have uncommented : ∀ token ∈ tokenize (viewOf query), token.kind ≠ .comment := by
    rw [tokens]
    simp [viewLead, viewStart, kind, or_imp, forall_and]
    exact fun token member => (plain token member).1
  have code := without_comments_uncommented _ uncommented
  have ended : endsClause (tokenize (viewOf query)) = true := by
    rw [tokens, ← List.cons_append, ← List.append_assoc, endsClause, List.getLast?_concat]
    rfl
  refine ⟨code, ended, by rwa [code], ?_⟩
  have lead : bracesOpen 0 (viewLead ++ viewStart) = 0 := by decide
  have gap (depth : Nat) : space.bracesAfter depth = depth := by simp [Token.bracesAfter, Token.isPunct, kind]
  have closed := braces_of_nested [] (tokenize inner) nested
  rw [List.count_nil, ← braces_moved 0 bytes] at closed
  rw [bracesOpen] at lead closed
  rw [code, tokens, bracesOpen, List.foldl_append, lead, List.foldl_cons, gap, List.foldl_append, closed]
  rfl

-- The header of the view, and the ones that its query has besides.
theorem view_headers (query : Text) :
    ∃ others, Header.ofText (viewOf query) =
      ⟨.entity, "V", 0, viewLead, viewStart ++ tokensFrom 23 (' ' :: (query ++ [';']))⟩ :: others ∧
      ∀ header ∈ others, 23 ≤ header.start := by
  refine ⟨Header.collect false (tokensFrom 23 (' ' :: (query ++ [';']))), ?_, ?_⟩
  · rw [Header.ofText, view_text, view_tokens]
    rfl
  · intro header member
    obtain ⟨⟨keyword, more, lead, start⟩, before, split⟩ := Header.collected_stands false _ header member
    rw [← start]
    apply start_le_of_token 23 (' ' :: (query ++ [';']))
    rw [← split, Header.tokens, lead]
    simp

theorem extent_front (limit : Option Nat) (front rest : List Token)
    (before : ∀ token ∈ front, limit.any (· ≤ token.start) = false ∧ token.kind ≠ .punct) :
    (Declaration.extent limit 0 (front ++ rest)).1 = front ++ (Declaration.extent limit 0 rest).1 := by
  induction front with
  | nil => rfl
  | cons token front ih =>
    rw [List.forall_mem_cons] at before
    obtain ⟨⟨within, unpunct⟩, others⟩ := before
    have apart (c : Char) : token.isPunct c = false := by simp [Token.isPunct, unpunct]
    rw [List.cons_append, Declaration.extent, within, apart, apart, apart]
    exact congrArg (List.cons token) (ih others)

theorem view_is_view (query : Text) (limit : Option Nat) (far : ∀ start, limit = some start → 23 ≤ start) :
    (ofDeclaration (Declaration.ofHeader
      ⟨.entity, "V", 0, viewLead, viewStart ++ tokensFrom 23 (' ' :: (query ++ [';']))⟩ limit)).isView = true := by
  have early (start : Nat) (less : start < 23) : limit.any (· ≤ start) = false := by
    cases limit with
    | none => rfl
    | some limit =>
      have beyond := far limit rfl
      simp
      omega
  have lead : viewLead.takeWhile (fun token => !limit.any (· ≤ token.start)) = viewLead := by
    rw [List.takeWhile_eq_self_iff]
    intro token member
    have starts : ∀ token ∈ viewLead, token.start < 23 := by decide
    rw [early _ (starts token member)]
    rfl
  have rest := extent_front limit viewStart (tokensFrom 23 (' ' :: (query ++ [';']))) fun token member => by
    have starts : ∀ token ∈ viewStart, token.start < 23 ∧ token.kind ≠ .punct := by decide
    exact ⟨early _ (starts token member).1, (starts token member).2⟩
  generalize (Declaration.extent limit 0 (tokensFrom 23 (' ' :: (query ++ [';'])))).1 = more at rest
  have text : (Declaration.ofHeader
      ⟨.entity, "V", 0, viewLead, viewStart ++ tokensFrom 23 (' ' :: (query ++ [';']))⟩ limit).text =
      "entity V as select" ++ (" from" ++ untokenize more) := by
    unfold Declaration.text Declaration.tokens Declaration.ofHeader
    dsimp only
    rw [lead, rest, untokenize_append, untokenize_append]
    rfl
  have free : "entity V as select".toList.all (fun c => decide (c ≠ '\x7b')) = true := by decide
  have further : " from".toList.all (fun c => decide (c ≠ '\x7b')) = true := by decide
  rw [head_shows, text, List.takeWhile_append_of_pos (List.all_eq_true.mp free),
    List.takeWhile_append_of_pos (List.all_eq_true.mp further), shows_iff, List.map_append, Sighting.read_append]
  · exact Sighting.read_view _
  · rw [apart_fold]
    rfl

theorem of_headers_nil_iff (consumed : Nat) (headers : List Header) :
    Declaration.ofHeaders consumed headers = [] ↔ ∀ header ∈ headers, header.start < consumed := by
  induction headers with
  | nil => exact iff_of_true rfl (by simp)
  | cons header others ih =>
    rw [Declaration.ofHeaders, List.forall_mem_cons]
    split
    · rename_i inside
      rw [ih]
      exact (and_iff_right inside).symm
    · rename_i outside
      exact iff_of_false (by simp) fun all => outside all.1

-- The view itself is dropped; what its query declares behind the end of its declaration is shown or dropped by itself.
theorem view_contributes (query rest : Text) (whole : Query query) :
    ∃ view others, Declaration.ofText (viewOf query) = view :: others ∧ view.name = "V" ∧
      (ofDeclaration view).isView = true ∧
      fragments (viewOf query ++ '\n' :: rest) = (others.map ofDeclaration).filter (!·.isView) ++ fragments rest ∧
      (fragments (viewOf query ++ '\n' :: rest) = fragments rest ↔
        ∀ other ∈ others, (ofDeclaration other).isView = true) ∧
      (others = [] ↔ ∀ header ∈ (Header.ofText (viewOf query)).tail, header.start < view.stop) := by
  obtain ⟨code, closed⟩ := view_closed query whole
  obtain ⟨others, headers, far⟩ := view_headers query
  have dropped := view_is_view query (others.head?.map Header.start) (by
    intro start found
    obtain ⟨header, first, rfl⟩ := Option.map_eq_some_iff.mp found
    exact far header (List.mem_of_head? first))
  generalize first : Declaration.ofHeader
    ⟨.entity, "V", 0, viewLead, viewStart ++ tokensFrom 23 (' ' :: (query ++ [';']))⟩ (others.head?.map Header.start) =
      view at dropped
  have declarations : Declaration.ofText (viewOf query) = view :: Declaration.ofHeaders view.stop others := by
    rw [Declaration.ofText, headers, ← first]
    rfl
  have joined : fragments (viewOf query ++ '\n' :: rest) =
      ((Declaration.ofHeaders view.stop others).map ofDeclaration).filter (!·.isView) ++ fragments rest := by
    rw [fragments_joined _ rest closed, fragments, code, declarations, List.map_cons, List.filter_cons, dropped]
    rfl
  refine ⟨view, Declaration.ofHeaders view.stop others, declarations, ?_, dropped, joined, ?_, ?_⟩
  · rw [← first]
    rfl
  · rw [joined, List.append_left_eq_self, List.filter_eq_nil_iff]
    simp
  · rw [of_headers_nil_iff, headers]
    rfl

def stockedBooks : Text := "Books \x7b\n  type name,\n  id\n\x7d where (title <> 'a;b')"

def shelves : Text := "entity Shelf \x7b id : UUID; \x7d"

theorem stocked_books_leave_nothing :
    Query stockedBooks ∧ fragments (viewOf stockedBooks ++ '\n' :: shelves) = fragments shelves := by
  have whole : Query stockedBooks := ⟨by decide +kernel, by decide +kernel, by decide +kernel⟩
  refine ⟨whole, ?_⟩
  obtain ⟨view, others, declarations, _, _, _, nothing, _⟩ := view_contributes stockedBooks shelves whole
  have alone : (Declaration.ofText (viewOf stockedBooks)).tail = [] := by decide +kernel
  rw [declarations] at alone
  apply nothing.mpr
  intro other member
  rw [show others = [] from alone] at member
  contradiction

def joinedNames : Text := "A \x7b a \x7d union select from B \x7b\n  type name\n\x7d"

theorem second_columns_declare :
    ¬ ∀ query rest : Text, Query query → fragments (viewOf query ++ '\n' :: rest) = fragments rest := by
  intro always
  have whole : Query joinedNames := ⟨by decide +kernel, by decide +kernel, by decide +kernel⟩
  have shown : fragments (viewOf joinedNames ++ '\n' :: []) ≠ fragments [] := by decide +kernel
  exact shown (always joinedNames [] whole)

end SchemaDiagram
