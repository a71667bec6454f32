import SchemaDiagram.Proofs.Cuts
import SchemaDiagram.Proofs.Extents

/-!
A text that ends in a semicolon of its own, and what stands behind it. Neither the tokens nor the headers of the one
depend on the other, and where the braces in front are closed the declarations do not either.
-/

set_option autoImplicit false

namespace SchemaDiagram

namespace Scan

/-! A text does not come to hold more when it is not left open at its end. -/

theorem drop_while_append (test : Char → Bool) (t x : Text) (last : Char) (ends : t.getLast? = some last)
    (stops : test last = false) :
    t.dropWhile test ≠ [] ∧ (t ++ x).dropWhile test = t.dropWhile test ++ x := by
  have more : t.dropWhile test ≠ [] := by
    intro nothing
    rw [List.dropWhile_eq_nil_iff] at nothing
    have passed := nothing last (List.mem_of_getLast? ends)
    rw [stops] at passed
    contradiction
  refine ⟨more, ?_⟩
  rw [List.dropWhile_append]
  simp [more]

theorem after_line_none_iff (t : Text) :
    afterLine? t = none ↔
      ∃ more, t.dropWhile (fun c => c ≠ '\n' && c ≠ '\r') = '\r' :: more ∧ more.head? ≠ some '\n' := by
  unfold afterLine?
  split
  · rename_i rest same
    rw [same]
    simp
  · rename_i more bare same
    rw [same]
    refine iff_of_true rfl ⟨more, rfl, ?_⟩
    intro feed
    obtain ⟨rest, rfl⟩ := List.head?_eq_some_iff.mp feed
    exact bare rest rfl
  · rename_i other
    refine iff_of_false (by simp) ?_
    rintro ⟨more, same, _⟩
    exact other more same

theorem after_comment_append (t x : Text) (uncommented : afterComment? t = none)
    (feed : t.getLast? = some '\r' → x.head? ≠ some '\n')
    (filled : t = [] → x.head? ≠ some '/' ∧ x.head? ≠ some '*') : afterComment? (t ++ x) = none := by
  cases t with
  | nil => exact no_comment_at x (filled rfl).1 (filled rfl).2
  | cons c t =>
    by_cases slash : c = '/'
    · subst slash
      change afterLine? t = none at uncommented
      change afterLine? (t ++ x) = none
      obtain ⟨more, left, bare⟩ := (after_line_none_iff t).mp uncommented
      refine (after_line_none_iff _).mpr ⟨more ++ x, ?_, ?_⟩
      · rw [List.dropWhile_append, left]
        rfl
      · cases more with
        | cons d more => exact bare
        | nil =>
          apply feed
          obtain ⟨front, split⟩ := List.dropWhile_suffix (l := t) fun c => c ≠ '\n' && c ≠ '\r'
          rw [← split, left]
          simp [List.getLast?_cons]
    · apply no_comment_at
      · simpa using slash
      · rw [List.cons_append, List.head?_cons]
        intro star
        rw [Option.some.inj star] at uncommented
        contradiction

theorem of_value_append (t x : Text) (filled : t ≠ []) (unvalued : ofValue? t = none) : ofValue? (t ++ x) = none := by
  obtain ⟨c, value, rfl⟩ := List.exists_cons_of_ne_nil filled
  rw [List.cons_append, ofValue?]
  rw [ofValue?] at unvalued
  split at unvalued
  · contradiction
  · rename_i quote
    split at unvalued
    · contradiction
    · rename_i opening
      split at unvalued
      · contradiction
      · rename_i value
        rw [if_neg quote, if_neg opening, if_neg value]

-- A last character that keeps what stands in front of it apart from the text behind it.
structure Seals (last : Char) (x : Text) : Prop where
  solid : isBlank last = false
  unvalued : last = ':' → ofValue? (x.dropWhile isBlank) = none

theorem seals_semicolon (x : Text) : Seals ';' x := ⟨by decide, by simp⟩

theorem seals_white (last : Char) (x : Text) (solid : isBlank last = false) (white : ∀ c ∈ x, isWhite c = true) :
    Seals last x := by
  refine ⟨solid, fun _ => ?_⟩
  cases left : x.dropWhile isBlank with
  | nil => rfl
  | cons c rest =>
    have first : isWhite c = true := by
      apply white
      rw [← List.takeWhile_append_dropWhile (p := isBlank) (l := x), left]
      simp
    have apart (d : Char) (other : isWhite d = false) : c ≠ d := by
      rintro rfl
      rw [first] at other
      contradiction
    rw [ofValue?, if_neg (apart '\'' (by decide)), if_neg, if_neg]
    · simp [isValueChar, first]
    · simp [opens, apart '(' (by decide), apart '[' (by decide), apart '\x7b' (by decide)]

theorem after_value_append (t x : Text) (last : Char) (ends : t.getLast? = some last) (seals : Seals last x)
    (unvalued : afterValue? t = none) : afterValue? (t ++ x) = none := by
  rw [after_value_eq] at unvalued ⊢
  obtain ⟨filled, split⟩ := drop_while_append isBlank t x last ends seals.solid
  obtain ⟨c, behind, first⟩ := List.exists_cons_of_ne_nil filled
  have ended : (c :: behind).getLast? = some last := by
    obtain ⟨front, whole⟩ := List.dropWhile_suffix (l := t) isBlank
    rw [← whole, first, List.getLast?_append] at ends
    simpa [List.getLast?_cons] using ends
  rw [split, first]
  rw [first] at unvalued
  by_cases colon : c = ':'
  · subst colon
    change ofValue? (behind.dropWhile isBlank) = none at unvalued
    change ofValue? ((behind ++ x).dropWhile isBlank) = none
    cases behind with
    | nil => exact seals.unvalued (Option.some.inj ended).symm
    | cons d behind =>
      rw [List.getLast?_cons_cons] at ended
      obtain ⟨more, further⟩ := drop_while_append isBlank (d :: behind) x last ended seals.solid
      rw [further]
      exact of_value_append _ x more unvalued
  · rw [List.cons_append]
    unfold ofColon?
    split
    · rename_i same
      exact absurd (List.cons.inj same).1 colon
    · rfl

theorem after_line_left (t rest : Text) (found : afterLine? t = some rest) :
    t.dropWhile (fun c => c ≠ '\n' && c ≠ '\r') = rest := by
  unfold afterLine? at found
  split at found <;> simp_all

theorem after_line_further (t rest x : Text) (more : rest ≠ []) (found : afterLine? t = some rest) :
    afterLine? (t ++ x) = some (rest ++ x) := by
  have left := after_line_left t rest found
  have longer : (t ++ x).dropWhile (fun c => c ≠ '\n' && c ≠ '\r') = rest ++ x := by
    rw [List.dropWhile_append, left]
    simp [more]
  cases read : afterLine? (t ++ x) with
  | some behind => rw [← after_line_left _ behind read, longer]
  | none =>
    obtain ⟨behind, same, bare⟩ := (after_line_none_iff _).mp read
    obtain ⟨c, rest, rfl⟩ := List.exists_cons_of_ne_nil more
    rw [longer, List.cons_append, List.cons.injEq] at same
    obtain ⟨rfl, rfl⟩ := same
    have unread : afterLine? t = none := by
      refine (after_line_none_iff t).mpr ⟨rest, left, ?_⟩
      intro feed
      apply bare
      rw [List.head?_append, feed]
      rfl
    rw [found] at unread
    contradiction

theorem after_block_further (t x : Text) (more : afterBlock t ≠ []) : afterBlock (t ++ x) = afterBlock t ++ x := by
  fun_induction afterBlock t with
  | case1 => contradiction
  | case2 => contradiction
  | case3 c d rest closing =>
    rw [List.cons_append, List.cons_append, afterBlock, if_pos closing]
  | case4 c d rest inside ih =>
    rw [List.cons_append, List.cons_append, afterBlock, if_neg inside]
    exact ih more

theorem after_comment_further (t rest x : Text) (more : rest ≠ []) (found : afterComment? t = some rest) :
    afterComment? (t ++ x) = some (rest ++ x) := by
  unfold afterComment? at found
  split at found
  · exact after_line_further _ rest x more found
  · rename_i inside
    have same := Option.some.inj found
    rw [← same] at more ⊢
    exact congrArg some (after_block_further inside x more)
  · contradiction

end Scan

open Scan

theorem Token.goes_on_append (token : Token) (rest x : Text) (last : Char) (ends : rest.getLast? = some last)
    (seals : Seals last x) (stays : token.goesOn rest = false) : token.goesOn (rest ++ x) = false := by
  have filled : rest ≠ [] := by
    rintro rfl
    contradiction
  have head : (rest ++ x).head? = rest.head? := List.head?_append_of_ne_nil rest filled
  unfold goesOn at stays ⊢
  cases kind : token.kind with
  | space => simpa [kind, head] using stays
  | word => simpa [kind, head] using stays
  | comment => rfl
  | literal => rfl
  | punct =>
    simp only [kind, Bool.and_eq_false_iff, Option.isSome_eq_false_iff, Option.isNone_iff_eq_none] at stays ⊢
    refine stays.imp id fun uncommented => ?_
    refine after_comment_append rest x uncommented ?_ (by simp [filled])
    intro back
    obtain rfl : last = '\r' := Option.some.inj (ends.symm.trans back)
    exact absurd seals.solid (by decide)
  | tag =>
    simp only [kind, head, Bool.and_eq_false_iff, Bool.or_eq_false_iff, Option.isSome_eq_false_iff,
      Option.isNone_iff_eq_none] at stays ⊢
    exact stays.imp id fun ⟨others, unvalued⟩ => ⟨others, after_value_append rest x last ends seals unvalued⟩

theorem Scan.Cut.append (c : Char) (front rest x : Text) (kind : TokenKind) (cut : Cut c (front ++ rest) kind rest)
    (last : Char) (ends : rest.getLast? = some last) (seals : Seals last x) :
    Cut c (front ++ (rest ++ x)) kind (rest ++ x) := by
  have filled : rest ≠ [] := by
    rintro rfl
    contradiction
  by_cases comment : kind = .comment
  · generalize whole : front ++ rest = t at cut
    cases cut with
    | comment _ _ found =>
      rw [← whole] at found
      have further := after_comment_further _ rest x filled found
      rw [List.append_assoc] at further
      exact .comment _ _ further
    | _ => contradiction
  · refine cut.again (rest ++ x) 0 comment (by simp [filled]) ?_ ?_
    · rw [List.head?_append_of_ne_nil rest filled]
      exact id
    · exact Token.goes_on_append _ rest x last ends seals (cut.apart 0)

-- Whether a text ends in a semicolon that is no part of a longer token.
def endsClause (tokens : List Token) : Bool := tokens.getLast?.any (Token.isPunct ';')

theorem tokens_append (t x : Text) (ended : endsClause (tokenize t) = true) :
    tokenize (t ++ x) = tokenize t ++ (tokenize x).map (Token.moved t.byteSize) ∧ t.getLast? = some ';' := by
  induction t using text_induction with
  | nil =>
    rw [tokenize_nil] at ended
    contradiction
  | token c front rest kind cut ih =>
    rw [tokenize_of_cut c front rest kind cut] at ended ⊢
    by_cases last : rest = []
    · subst last
      simp only [endsClause, tokenize_nil, List.map_nil, List.getLast?_singleton, Option.any_some, Token.isPunct,
        Bool.and_eq_true, decide_eq_true_eq, List.head?_cons, Option.some.injEq] at ended
      obtain ⟨rfl, rfl⟩ := ended
      have alone : front = [] := by simpa using cut.single.symm
      subst alone
      refine ⟨?_, rfl⟩
      rw [tokenize_nil]
      exact tokenize_of_cut ';' [] x .punct (.plain ';' x (by decide))
    · have behind : endsClause (tokenize rest) = true := by
        obtain ⟨before, token, whole⟩ := List.eq_nil_or_concat (tokenize rest) |>.resolve_left
          (mt (tokenize_eq_nil_iff rest).mp last)
        rw [whole] at ended ⊢
        simpa [endsClause, Token.isPunct, Token.moved, List.getLast?_cons] using ended
      obtain ⟨tokens, semicolon⟩ := ih behind
      refine ⟨?_, ?_⟩
      · have read := tokenize_of_cut c front (rest ++ x) kind (cut.append c front rest x kind ';' semicolon (seals_semicolon x))
        rw [tokens, List.map_append, moved_again, ← Text.byte_size_append] at read
        simpa using read
      · rw [← List.cons_append, List.getLast?_append, semicolon]
        rfl

theorem ends_clause_cons (token : Token) (rest : List Token) (ended : endsClause (token :: rest) = true) :
    (rest = [] ∧ token.isPunct ';' = true) ∨ endsClause rest = true := by
  cases rest with
  | nil => exact .inl ⟨rfl, by simpa [endsClause] using ended⟩
  | cons other rest => exact .inr (by simpa [endsClause, List.getLast?_cons_cons] using ended)

theorem ends_clause_suffix (before rest : List Token) (filled : rest ≠ [])
    (ended : endsClause (before ++ rest) = true) :
    endsClause rest = true := by
  rwa [endsClause, List.getLast?_append_of_ne_nil _ filled] at ended

namespace Token

@[simp] theorem moved_kind (bytes : Nat) (token : Token) : (token.moved bytes).kind = token.kind := rfl

@[simp] theorem moved_text (bytes : Nat) (token : Token) : (token.moved bytes).text = token.text := rfl

@[simp] theorem moved_start (bytes : Nat) (token : Token) : (token.moved bytes).start = bytes + token.start := rfl

end Token

theorem untokenize_moved (bytes : Nat) (tokens : List Token) :
    untokenize (tokens.map (Token.moved bytes)) = untokenize tokens := by
  rw [untokenize, List.flatMap_map]
  rfl

namespace Header

def extended (more : List Token) (header : Header) : Header := { header with rest := header.rest ++ more }

def moved (bytes : Nat) (header : Header) : Header :=
  { header with
    start := bytes + header.start
    lead := header.lead.map (Token.moved bytes)
    rest := header.rest.map (Token.moved bytes) }

theorem of_keyword_append (keyword : Token) (rest more : List Token) (solid : ∃ token ∈ rest, token.isSpace = false) :
    ofKeyword? keyword (rest ++ more) = (ofKeyword? keyword rest).map (extended more) := by
  have solid : rest.dropWhile Token.isSpace ≠ [] := by
    obtain ⟨token, member, other⟩ := solid
    intro nothing
    rw [List.dropWhile_eq_nil_iff.mp nothing token member] at other
    contradiction
  have whole := List.takeWhile_append_dropWhile (p := Token.isSpace) (l := rest)
  have gap : (rest ++ more).takeWhile Token.isSpace = rest.takeWhile Token.isSpace := by
    have lengths := congrArg List.length whole
    have filled := List.length_pos_iff.mpr solid
    rw [List.length_append] at lengths
    rw [List.takeWhile_append, if_neg (by omega)]
  have left : (rest ++ more).dropWhile Token.isSpace = rest.dropWhile Token.isSpace ++ more := by
    rw [List.dropWhile_append]
    simp [solid]
  unfold ofKeyword?
  rw [gap, left]
  cases DeclarationKind.ofKeyword? keyword.text.asciiLower with
  | none => rfl
  | some kind =>
    obtain ⟨name, behind, same⟩ := List.exists_cons_of_ne_nil solid
    rw [same]
    dsimp only [List.cons_append]
    split
    · rfl
    · rfl

theorem of_keyword_nothing (keyword : Token) : ofKeyword? keyword [] = none := by
  unfold ofKeyword?
  cases DeclarationKind.ofKeyword? keyword.text.asciiLower <;> rfl

-- Where neither the gap behind a keyword nor its name is parted, headers are those of the two stretches of tokens.
theorem collect_joined (boundary : Bool) (tokens more : List Token) (solid : tokens.getLast?.all (!·.isSpace) = true)
    (nameless : ∀ keyword, tokens.getLast? = some keyword → keyword.kind = .word → ofKeyword? keyword more = none) :
    collect boundary (tokens ++ more) =
      (collect boundary tokens).map (extended more) ++ collect (clauseAfter boundary tokens) more := by
  induction tokens generalizing boundary with
  | nil => rfl
  | cons token rest ih =>
    have read (word : token.kind = .word) : ofKeyword? token (rest ++ more) = (ofKeyword? token rest).map (extended more) := by
      by_cases filled : rest = []
      · subst filled
        rw [List.nil_append, nameless token rfl word, of_keyword_nothing]
        rfl
      · apply of_keyword_append
        obtain ⟨last, ends⟩ := Option.ne_none_iff_exists'.mp (mt List.getLast?_eq_none_iff.mp filled)
        rw [← List.singleton_append, List.getLast?_append_of_ne_nil _ filled, ends] at solid
        exact ⟨last, List.mem_of_getLast? ends, by simpa using solid⟩
    have further := ih (token.clauseAfter boundary)
    have behind : collect (token.clauseAfter boundary) (rest ++ more) =
        (collect (token.clauseAfter boundary) rest).map (extended more) ++
          collect (clauseAfter (token.clauseAfter boundary) rest) more := by
      cases rest with
      | nil => rfl
      | cons other rest =>
        rw [List.getLast?_cons_cons] at solid nameless
        exact further solid nameless
    rw [List.cons_append, collect_step, collect_step, behind, List.map_append, List.append_assoc]
    congr 1
    split
    · rename_i start
      rw [read (of_decide_eq_true (Bool.and_eq_true_iff.mp start).2)]
      cases ofKeyword? token rest <;> rfl
    · rfl

theorem collect_append (boundary : Bool) (tokens more : List Token) (ended : endsClause tokens = true) :
    collect boundary (tokens ++ more) = (collect boundary tokens).map (extended more) ++ collect true more := by
  obtain ⟨semicolon, last, punct⟩ := (Option.any_eq_true _ _).mp ended
  obtain ⟨before, rfl⟩ := List.getLast?_eq_some_iff.mp last
  have kind : semicolon.kind = .punct := of_decide_eq_true (Bool.and_eq_true_iff.mp punct).1
  have again : clauseAfter boundary (before ++ [semicolon]) = true := by
    rw [clauseAfter, List.foldl_append, List.foldl_cons, List.foldl_nil, Token.clauseAfter, kind]
    simp [punct]
  rw [collect_joined boundary _ more (by simp [Token.isSpace, kind]) (fun keyword ends word => ?_), again]
  obtain rfl := Option.some.inj (last.symm.trans ends)
  rw [kind] at word
  contradiction

theorem of_keyword_moved (bytes : Nat) (keyword : Token) (rest : List Token) :
    ofKeyword? (keyword.moved bytes) (rest.map (Token.moved bytes)) = (ofKeyword? keyword rest).map (moved bytes) := by
  unfold ofKeyword?
  rw [Token.moved_text]
  cases DeclarationKind.ofKeyword? keyword.text.asciiLower with
  | none => rfl
  | some kind =>
    have spaces : Token.isSpace ∘ Token.moved bytes = Token.isSpace := rfl
    simp only [List.dropWhile_map, List.takeWhile_map, spaces]
    cases rest.dropWhile Token.isSpace with
    | nil => rfl
    | cons name after =>
      simp only [List.map_cons, Token.moved_kind, Token.moved_text]
      generalize rest.takeWhile Token.isSpace = gap
      cases gap with
      | nil => rfl
      | cons space gap => by_cases word : name.kind = .word <;> simp [word, moved]

theorem collect_moved (bytes : Nat) (boundary : Bool) (tokens : List Token) :
    collect boundary (tokens.map (Token.moved bytes)) = (collect boundary tokens).map (moved bytes) := by
  induction tokens generalizing boundary with
  | nil => rfl
  | cons token rest ih =>
    rw [List.map_cons, collect, collect, Token.moved_kind]
    split
    · exact ih _
    · exact ih _
    · exact ih _
    · exact ih _
    · exact ih _
    · have same (word : Text) : (token.moved bytes).isWord word = token.isWord word := rfl
      rw [of_keyword_moved, same]
      split
      · exact ih _
      · cases boundary with
        | false => exact ih _
        | true =>
          simp only [if_true]
          cases ofKeyword? token rest with
          | none => exact ih _
          | some header => exact congrArg (List.cons _) (ih _)

end Header

namespace Declaration

def moved (bytes : Nat) (declaration : Declaration) : Declaration :=
  { declaration with
    start := bytes + declaration.start
    lead := declaration.lead.map (Token.moved bytes)
    rest := declaration.rest.map (Token.moved bytes) }

theorem limit_moved (bytes start : Nat) (limit : Option Nat) :
    (limit.map (bytes + ·)).any (· ≤ bytes + start) = limit.any (· ≤ start) := by
  cases limit with
  | none => rfl
  | some limit => simp

theorem extent_moved (bytes : Nat) (limit : Option Nat) (depth : Nat) (tokens : List Token) :
    extent (limit.map (bytes + ·)) depth (tokens.map (Token.moved bytes)) =
      ((extent limit depth tokens).1.map (Token.moved bytes), (extent limit depth tokens).2) := by
  induction tokens generalizing depth with
  | nil => rfl
  | cons token rest ih =>
    have same (c : Char) : (token.moved bytes).isPunct c = token.isPunct c := rfl
    rw [List.map_cons, extent, extent, Token.moved_start, limit_moved, same, same, same]
    split
    · rfl
    · split
      · rw [ih]
        rfl
      · split
        · split
          · rfl
          · rw [ih]
            rfl
        · split
          · rfl
          · rw [ih]
            rfl

theorem of_header_moved (bytes : Nat) (header : Header) (limit : Option Nat) :
    ofHeader (header.moved bytes) (limit.map (bytes + ·)) = (ofHeader header limit).moved bytes := by
  have lead : (header.lead.map (Token.moved bytes)).takeWhile
      (fun token => !(limit.map (bytes + ·)).any (· ≤ token.start)) =
      (header.lead.takeWhile fun token => !limit.any (· ≤ token.start)).map (Token.moved bytes) := by
    rw [List.takeWhile_map]
    congr 2
    funext token
    exact congrArg not (limit_moved bytes token.start limit)
  have rest := extent_moved bytes limit 0 header.rest
  unfold ofHeader Header.moved
  dsimp only
  rw [lead, rest]
  rfl

theorem text_moved (bytes : Nat) (declaration : Declaration) : (declaration.moved bytes).text = declaration.text := by
  rw [text, tokens, moved, ← List.map_append, untokenize_moved]
  rfl

theorem of_headers_moved (bytes consumed : Nat) (headers : List Header) :
    ofHeaders (bytes + consumed) (headers.map (Header.moved bytes)) =
      (ofHeaders consumed headers).map (moved bytes) := by
  induction headers generalizing consumed with
  | nil => rfl
  | cons header others ih =>
    have start : (header.moved bytes).start = bytes + header.start := rfl
    rw [List.map_cons, ofHeaders, ofHeaders, start]
    split
    · rename_i inside
      rw [if_pos (by omega)]
      exact ih consumed
    · rename_i outside
      rw [if_neg (by omega)]
      have next : (others.map (Header.moved bytes)).head?.map Header.start =
          (others.head?.map Header.start).map (bytes + ·) := by
        rw [List.head?_map, Option.map_map, Option.map_map]
        rfl
      have first := of_header_moved bytes header (others.head?.map Header.start)
      have stop : ((ofHeader header (others.head?.map Header.start)).moved bytes).stop =
          bytes + (ofHeader header (others.head?.map Header.start)).stop := by
        rw [stop, stop, text_moved, ← Nat.add_assoc]
        rfl
      dsimp only
      rw [next, first, stop, ih]
      rfl

end Declaration

theorem Token.is_punct_apart (token : Token) (a b : Char) (punct : token.isPunct a = true) (apart : a ≠ b) :
    token.isPunct b = false := by
  rw [isPunct, Bool.and_eq_true, decide_eq_true_eq, decide_eq_true_eq] at punct
  simp [isPunct, punct.2, apart]

/-! Braces, of which the closing ones beyond the outermost level are passed over. -/

def Token.bracesAfter (depth : Nat) (token : Token) : Nat :=
  if token.isPunct '\x7b' then depth + 1 else if token.isPunct '\x7d' then depth - 1 else depth

def bracesOpen (depth : Nat) (tokens : List Token) : Nat := tokens.foldl Token.bracesAfter depth

theorem braces_open_mono (a b : Nat) (tokens : List Token) (less : a ≤ b) :
    bracesOpen a tokens ≤ bracesOpen b tokens := by
  induction tokens generalizing a b with
  | nil => exact less
  | cons token rest ih =>
    apply ih
    unfold Token.bracesAfter
    split
    · omega
    · split <;> omega

theorem braces_closed_suffix (before rest : List Token) (closed : bracesOpen 0 (before ++ rest) = 0) :
    bracesOpen 0 rest = 0 := by
  rw [bracesOpen, List.foldl_append] at closed
  have least := braces_open_mono 0 (bracesOpen 0 before) rest (Nat.zero_le _)
  exact Nat.le_zero.mp (least.trans_eq closed)

namespace Declaration

-- A token ends the declaration, whatever follows it, or is taken in and leads to what follows.
theorem extent_step (limit : Option Nat) (depth : Nat) (token : Token) :
    (∃ taken, taken.2 ≠ .endOfText ∧ ∀ rest, extent limit depth (token :: rest) = taken) ∨
      (token.isPunct ';' = true → depth ≠ 0) ∧ (depth ≠ 0 → token.bracesAfter depth ≠ 0) ∧
        ∀ rest, extent limit depth (token :: rest) = goesOn token (extent limit (token.bracesAfter depth) rest) := by
  by_cases before : (decide (depth = 0) && limit.any (· ≤ token.start)) = true
  · exact .inl ⟨([], .header), by simp, fun rest => by rw [extent, if_pos before]⟩
  · by_cases opening : token.isPunct '\x7b' = true
    · have after : token.bracesAfter depth = depth + 1 := if_pos opening
      refine .inr ⟨fun semicolon => ?_, by omega, fun rest => ?_⟩
      · rw [token.is_punct_apart '\x7b' ';' opening (by decide)] at semicolon
        contradiction
      · rw [extent, if_neg before, if_pos opening, after]
    · by_cases closing : (token.isPunct '\x7d' && decide (0 < depth)) = true
      · obtain ⟨brace, deep⟩ := Bool.and_eq_true_iff.mp closing
        have after : token.bracesAfter depth = depth - 1 := by rw [Token.bracesAfter, if_neg opening, if_pos brace]
        by_cases last : depth = 1
        · refine .inl ⟨([token], .brace), by simp, fun rest => ?_⟩
          rw [extent, if_neg before, if_neg opening, if_pos closing, if_pos last]
        · rw [decide_eq_true_eq] at deep
          refine .inr ⟨fun _ => by omega, by omega, fun rest => ?_⟩
          rw [extent, if_neg before, if_neg opening, if_pos closing, if_neg last, after]
      · have after : token.bracesAfter depth = depth := by
          rw [Token.bracesAfter, if_neg opening]
          split
          · rename_i brace
            have outermost : depth = 0 := by simpa [brace] using closing
            omega
          · rfl
        by_cases semicolon : (token.isPunct ';' && decide (depth = 0)) = true
        · refine .inl ⟨([token], .semicolon), by simp, fun rest => ?_⟩
          rw [extent, if_neg before, if_neg opening, if_neg closing, if_pos semicolon]
        · refine .inr ⟨fun punct => by simpa [punct] using semicolon, by omega, fun rest => ?_⟩
          rw [extent, if_neg before, if_neg opening, if_neg closing, if_neg semicolon, after]

-- A declaration that a semicolon outside of braces follows has an end.
theorem extent_ends (limit : Option Nat) (depth : Nat) (tokens : List Token) (ended : endsClause tokens = true)
    (closed : bracesOpen depth tokens = 0) : (extent limit depth tokens).2 ≠ .endOfText := by
  induction tokens generalizing depth with
  | nil => contradiction
  | cons token rest ih =>
    rcases extent_step limit depth token with ⟨taken, ends, read⟩ | ⟨deep, stays, read⟩
    · rwa [read]
    · rw [read]
      rcases ends_clause_cons token rest ended with ⟨rfl, semicolon⟩ | behind
      · exact absurd closed (stays (deep semicolon))
      · exact ih _ behind closed

theorem extent_append (limit : Option Nat) (depth : Nat) (tokens more : List Token)
    (ends : (extent limit depth tokens).2 ≠ .endOfText) :
    extent limit depth (tokens ++ more) = extent limit depth tokens := by
  induction tokens generalizing depth with
  | nil => exact absurd rfl ends
  | cons token rest ih =>
    rw [List.cons_append]
    rcases extent_step limit depth token with ⟨taken, _, read⟩ | ⟨_, _, read⟩
    · rw [read, read]
    · rw [read] at ends
      rw [read, read, ih _ ends]

theorem extent_limit (limit other : Option Nat) (depth : Nat) (tokens : List Token)
    (same : ∀ token ∈ tokens, limit.any (· ≤ token.start) = other.any (· ≤ token.start)) :
    extent limit depth tokens = extent other depth tokens := by
  induction tokens generalizing depth with
  | nil => rfl
  | cons token rest ih =>
    rw [List.forall_mem_cons] at same
    rw [extent, extent, same.1]
    simp only [ih _ same.2]

-- A header whose declaration comes to its end in the first `bytes` of the text.
structure Inside (bytes : Nat) (header : Header) : Prop where
  before : ∀ token ∈ header.tokens, token.start < bytes
  ended : endsClause header.rest = true
  closed : bracesOpen 0 header.rest = 0
  stops : ∀ limit, (ofHeader header limit).stop ≤ bytes

theorem take_while_congr (first second : Token → Bool) (tokens : List Token)
    (same : ∀ token ∈ tokens, first token = second token) : tokens.takeWhile first = tokens.takeWhile second := by
  induction tokens with
  | nil => rfl
  | cons token rest ih =>
    rw [List.forall_mem_cons] at same
    rw [List.takeWhile_cons, List.takeWhile_cons, same.1, ih same.2]

theorem Inside.of_header (bytes : Nat) (header : Header) (inside : Inside bytes header) (more : List Token)
    (limit other : Option Nat)
    (same : ∀ token ∈ header.tokens, limit.any (· ≤ token.start) = other.any (· ≤ token.start)) :
    ofHeader (header.extended more) limit = ofHeader header other := by
  have lead : header.lead.takeWhile (fun token => !limit.any (· ≤ token.start)) =
      header.lead.takeWhile fun token => !other.any (· ≤ token.start) :=
    take_while_congr _ _ _ fun token member => congrArg not (same token (List.mem_append_left _ member))
  have rest := extent_limit limit other 0 header.rest fun token member => same token (List.mem_append_right _ member)
  have whole := extent_append limit 0 header.rest more (extent_ends limit 0 header.rest inside.ended inside.closed)
  unfold ofHeader Header.extended
  dsimp only
  rw [whole, rest, lead]

theorem of_headers_joined (bytes consumed : Nat) (headers others : List Header) (more : List Token)
    (inside : ∀ header ∈ headers, Inside bytes header) (behind : ∀ header ∈ others, bytes ≤ header.start)
    (start : consumed ≤ bytes) :
    ofHeaders consumed (headers.map (Header.extended more) ++ others) =
      ofHeaders consumed headers ++ ofHeaders bytes others := by
  induction headers generalizing consumed with
  | nil =>
    cases others with
    | nil => rfl
    | cons header others =>
      have first := behind header List.mem_cons_self
      change ofHeaders consumed (header :: others) = ofHeaders bytes (header :: others)
      rw [ofHeaders, ofHeaders, if_neg (by omega), if_neg (by omega)]
  | cons header headers ih =>
    rw [List.forall_mem_cons] at inside
    have first : (header.extended more).start = header.start := rfl
    rw [List.map_cons, List.cons_append, ofHeaders, ofHeaders, first]
    split
    · exact ih consumed inside.2 start
    · have same : ofHeader (header.extended more)
          ((headers.map (Header.extended more) ++ others).head?.map Header.start) =
          ofHeader header (headers.head?.map Header.start) := by
        apply inside.1.of_header
        intro token member
        cases headers with
        | cons next headers => rfl
        | nil =>
          have before := inside.1.before token member
          cases others with
          | nil => rfl
          | cons other others =>
            have far := behind other List.mem_cons_self
            have later : ¬ other.start ≤ token.start := by omega
            simp [later]
      dsimp only
      rw [same, ih _ inside.2 (inside.1.stops _)]
      rfl

end Declaration

theorem token_before (t : Text) (token : Token) (member : token ∈ tokenize t) : token.start < t.byteSize := by
  obtain ⟨before, after, split⟩ := List.append_of_mem member
  have filled := token_filled 0 t token member
  have stop := token_stop 0 t before after token split
  have whole := stretch_of_tokens t before [token] after split
  have sizes := congrArg Text.byteSize whole
  rw [← List.append_assoc, ← untokenize_append, Text.byte_size_append] at sizes
  omega

theorem header_inside (t : Text) (ended : endsClause (tokenize t) = true) (closed : bracesOpen 0 (tokenize t) = 0)
    (header : Header) (member : header ∈ Header.ofText t) : Declaration.Inside t.byteSize header := by
  obtain ⟨before, keyword, gap, name, spelled, _, split⟩ := Header.collected_spelled true _ header member
  have whole : tokenize t = (before ++ keyword :: (gap ++ [name])) ++ header.rest := by simp [split]
  have filled : header.rest ≠ [] := by
    intro nothing
    rw [whole, nothing, List.append_nil, ← List.cons_append, ← List.append_assoc, endsClause,
      List.getLast?_append] at ended
    simp [Token.isPunct, spelled.word] at ended
  refine ⟨?_, ?_, ?_, ?_⟩
  · intro token inside
    apply token_before t token
    rw [Header.tokens, spelled.lead] at inside
    rw [whole, List.append_assoc]
    exact List.mem_append_right _ (by simpa using inside)
  · rw [whole] at ended
    exact ends_clause_suffix _ _ filled ended
  · rw [whole] at closed
    exact braces_closed_suffix _ _ closed
  · intro limit
    obtain ⟨front, behind, text, start⟩ := Declaration.text_of_source t header member limit
    have sizes := congrArg Text.byteSize text
    rw [Text.byte_size_append, Text.byte_size_append, ← start] at sizes
    change header.start + (Declaration.ofHeader header limit).text.byteSize ≤ t.byteSize
    omega

theorem headers_append (s y : Text) (ended : endsClause (tokenize s) = true) :
    Header.ofText (s ++ y) =
      (Header.ofText s).map (Header.extended ((tokenize y).map (Token.moved s.byteSize))) ++
        (Header.ofText y).map (Header.moved s.byteSize) := by
  rw [Header.ofText, (tokens_append s y ended).1, Header.collect_append true _ _ ended, Header.collect_moved]
  rfl

theorem declarations_append (s y : Text) (ended : endsClause (tokenize s) = true)
    (closed : bracesOpen 0 (tokenize s) = 0) :
    Declaration.ofText (s ++ y) =
      Declaration.ofText s ++ (Declaration.ofText y).map (Declaration.moved s.byteSize) := by
  rw [Declaration.ofText, headers_append s y ended,
    Declaration.of_headers_joined s.byteSize 0 _ _ _ (header_inside s ended closed) _ (Nat.zero_le _)]
  · have moved := Declaration.of_headers_moved s.byteSize 0 (Header.ofText y)
    rw [Nat.add_zero] at moved
    rw [moved]
    rfl
  · intro header member
    obtain ⟨other, _, rfl⟩ := List.mem_map.mp member
    exact Nat.le_add_right _ _

theorem without_comments_append (a x : Text) (ended : endsClause (tokenize a) = true) :
    withoutComments (a ++ x) = withoutComments a ++ withoutComments x := by
  rw [withoutComments, (tokens_append a x ended).1, List.flatMap_append, List.flatMap_map]
  rfl

-- A text that ends in a semicolon, with its comments and without, and leaves no brace open.
structure Closed (a : Text) : Prop where
  ended : endsClause (tokenize a) = true
  stripped : endsClause (tokenize (withoutComments a)) = true
  closed : bracesOpen 0 (tokenize (withoutComments a)) = 0

-- What is shown of a text without comments.
def shownOf (t : Text) : List Fragment :=
  ((Declaration.ofText t).map Fragment.ofDeclaration).filter (!·.isView)

theorem shown_moved (bytes : Nat) (declarations : List Declaration) :
    (declarations.map (Declaration.moved bytes)).map Fragment.ofDeclaration =
      declarations.map Fragment.ofDeclaration := by
  rw [List.map_map]
  apply List.map_congr_left
  intro declaration _
  rw [Function.comp, Fragment.ofDeclaration, Declaration.text_moved]
  rfl

theorem fragments_append (a x : Text) (closed : Closed a) : fragments (a ++ x) = fragments a ++ fragments x := by
  rw [fragments, without_comments_append a x closed.ended,
    declarations_append _ _ closed.stripped closed.closed, List.map_append, shown_moved, List.filter_append]
  rfl

/-! Blanks in front of a text change nothing. -/

theorem headers_behind_blanks (c : Char) (front rest : Text) (cut : Cut c (front ++ rest) .space rest) :
    Header.ofText (c :: (front ++ rest)) = (Header.ofText rest).map (Header.moved (Text.byteSize (c :: front))) := by
  rw [Header.ofText, tokenize_of_cut c front rest .space cut, Header.collect]
  exact Header.collect_moved _ true _

theorem shown_drop_blanks (t : Text) : shownOf (t.dropWhile isBlank) = shownOf t := by
  rcases cut_blanks t with same | ⟨c, front, whole, cut, _⟩
  · rw [same]
  · generalize t.dropWhile isBlank = rest at whole cut
    have far : ∀ header ∈ (Header.ofText rest).map (Header.moved (Text.byteSize (c :: front))),
        Text.byteSize (c :: front) ≤ header.start := by
      intro header member
      obtain ⟨other, _, rfl⟩ := List.mem_map.mp member
      exact Nat.le_add_right _ _
    have later := Declaration.of_headers_joined _ 0 [] _ [] (by simp) far (Nat.zero_le _)
    have moved := Declaration.of_headers_moved (Text.byteSize (c :: front)) 0 (Header.ofText rest)
    rw [Nat.add_zero] at moved
    rw [whole, shownOf, shownOf, Declaration.ofText, Declaration.ofText, headers_behind_blanks c front rest cut]
    rw [List.map_nil, List.nil_append] at later
    rw [later, moved, Declaration.ofHeaders, List.nil_append, shown_moved]

theorem without_comments_drop_blanks (t : Text) :
    (withoutComments (t.dropWhile isBlank)).dropWhile isBlank = (withoutComments t).dropWhile isBlank := by
  rcases cut_blanks t with same | ⟨c, front, whole, cut, blanks⟩
  · rw [same]
  · have passed : ∀ d ∈ c :: front, isBlank d = true := by
      rw [← blanks]
      exact fun d member => List.mem_takeWhile_imp member
    generalize t.dropWhile isBlank = rest at whole cut
    rw [whole, without_comments_of_cut c front rest .space cut]
    exact (List.dropWhile_append_of_pos passed).symm

-- What does not see blanks in front of a text does not see a line break in front of one with comments either.
theorem read_behind_break {α : Type} (read : Text → α) (blind : ∀ t, read (t.dropWhile isBlank) = read t) (b : Text) :
    read (withoutComments ('\n' :: b)) = read (withoutComments b) := by
  rw [← blind, ← without_comments_drop_blanks, List.dropWhile_cons_of_pos (by decide), without_comments_drop_blanks,
    blind]

theorem fragments_behind_break (b : Text) : fragments ('\n' :: b) = fragments b :=
  read_behind_break shownOf shown_drop_blanks b

theorem fragments_joined (a b : Text) (closed : Closed a) :
    fragments (a ++ '\n' :: b) = fragments a ++ fragments b := by
  rw [fragments_append a _ closed, fragments_behind_break]

theorem names_drop_blanks (t : Text) :
    (Header.ofText (t.dropWhile isBlank)).map Header.name = (Header.ofText t).map Header.name := by
  rcases cut_blanks t with same | ⟨c, front, whole, cut, _⟩
  · rw [same]
  · generalize t.dropWhile isBlank = rest at whole cut
    rw [whole, headers_behind_blanks c front rest cut, List.map_map]
    rfl

theorem declared_names_append (a x : Text) (closed : Closed a) :
    declaredNames (a ++ x) = declaredNames a ++ declaredNames x := by
  rw [declaredNames, without_comments_append a x closed.ended, headers_append _ _ closed.stripped, List.map_append,
    List.map_map, List.map_map]
  rfl

theorem declared_names_joined (a b : Text) (closed : Closed a) :
    declaredNames (a ++ '\n' :: b) = declaredNames a ++ declaredNames b := by
  have behind : declaredNames ('\n' :: b) = declaredNames b :=
    read_behind_break (fun t => (Header.ofText t).map Header.name) names_drop_blanks b
  rw [declared_names_append a _ closed, behind]

-- Declarations do not depend on the closed text in front of them, nor those of that text on what follows it.
theorem closed_text_splits_off (a b : Text) (closed : Closed a) :
    fragments (a ++ '\n' :: b) = fragments a ++ fragments b ∧
      ∀ name, name ∈ declaredNames (a ++ '\n' :: b) ↔ name ∈ declaredNames a ∨ name ∈ declaredNames b := by
  refine ⟨fragments_joined a b closed, ?_⟩
  intro name
  rw [declared_names_joined a b closed, List.mem_append]

-- A stray brace, a view, a header inside of a body and one without an end in front of the last semicolon.
def mixedShelves : Text :=
  "\x7d /* \x7b */ entity V as select from Shelf \x7b id \x7d;\nentity Shelf \x7b\n  type size\n\x7d // ;\ntype Size\n;"

theorem mixed_shelves_split_off :
    Closed mixedShelves ∧
      fragments (mixedShelves ++ '\n' :: "Size entity Book \x7b \x7d") =
        [⟨.entity, "Shelf", "entity Shelf \x7b\n  type size\n\x7d"⟩, ⟨.typeAlias, "Size", "type Size\n;"⟩] ∧
      ∀ name, name ∈ declaredNames (mixedShelves ++ '\n' :: "Size entity Book \x7b \x7d") ↔
        name ∈ declaredNames mixedShelves ∨ name ∈ declaredNames "Size entity Book \x7b \x7d" := by
  have closed : Closed mixedShelves := ⟨by decide +kernel, by decide +kernel, by decide +kernel⟩
  obtain ⟨joined, names⟩ := closed_text_splits_off mixedShelves "Size entity Book \x7b \x7d" closed
  refine ⟨closed, ?_, names⟩
  rw [joined]
  decide +kernel

end SchemaDiagram
