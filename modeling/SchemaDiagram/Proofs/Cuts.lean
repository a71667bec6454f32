import SchemaDiagram.Proofs.LineEnds.Token

/-!
The ways to cut a token off a text, by its first character, and what the text behind a token has to do with it. A
token is read again in front of any other text, unless that text goes on with the token or closes what the token has
left open.
-/

set_option autoImplicit false

namespace SchemaDiagram

namespace Scan

-- Characters that are tokens by themselves wherever they stand.
def isPlain (c : Char) : Bool := !isBlank c && c ≠ '/' && c ≠ '@' && c ≠ '\'' && !isWordChar c

theorem no_comment_at (t : Text) (slash : t.head? ≠ some '/') (star : t.head? ≠ some '*') : afterComment? t = none := by
  unfold afterComment?
  split
  · exact absurd rfl slash
  · exact absurd rfl star
  · rfl

theorem blank_white (c : Char) (blank : isBlank c = true) : isWhite c = true := by
  simp only [isBlank, Bool.or_eq_true, decide_eq_true_eq] at blank
  rcases blank with ((rfl | rfl) | rfl) | rfl <;> decide

-- The kind of the first token of `c :: t`, and what it leaves of `t`.
inductive Cut : Char → Text → TokenKind → Text → Prop where
  | blank (c : Char) (t : Text) : isBlank c = true → Cut c t .space (t.dropWhile isBlank)
  | comment (t rest : Text) : afterComment? t = some rest → Cut '/' t .comment rest
  | slash (t : Text) : afterComment? t = none → Cut '/' t .punct t
  | tag (t : Text) : Cut '@' t .tag (afterTag t)
  | literal (t : Text) : Cut '\'' t .literal (afterQuote t)
  | word (c : Char) (t : Text) : isWordChar c = true → Cut c t .word (t.dropWhile isWordChar)
  | plain (c : Char) (t : Text) : isPlain c = true → Cut c t .punct t

theorem word_char_apart (c : Char) (word : isWordChar c = true) :
    isBlank c = false ∧ c ≠ '/' ∧ c ≠ '@' ∧ c ≠ '\'' ∧ opens c = false := by
  have apart (d : Char) (other : isWordChar d = false) : c ≠ d := by
    rintro rfl
    rw [word] at other
    contradiction
  refine ⟨?_, apart '/' (by decide), apart '@' (by decide), apart '\'' (by decide), ?_⟩
  · simp [isBlank, apart ' ' (by decide), apart '\t' (by decide), apart '\n' (by decide), apart '\r' (by decide)]
  · simp [opens, apart '(' (by decide), apart '[' (by decide), apart '\x7b' (by decide)]

theorem lexeme_drop_while (test : Char → Bool) (t : Text) : lexeme t (t.dropWhile test) = t.takeWhile test :=
  lexeme_of_split t _ _ List.takeWhile_append_dropWhile

theorem lexeme_whole (t : Text) : lexeme t t = [] := lexeme_of_split t [] t rfl

namespace Cut

theorem of_cut (c : Char) (t : Text) : Cut c t (cut c t).1 (cut c t).2.2 := by
  unfold cut
  split
  · rename_i blank
    exact .blank c t blank
  · rename_i blank
    split
    · rename_i slash
      subst slash
      cases found : afterComment? t with
      | none => exact .slash t found
      | some rest => exact .comment t rest found
    · rename_i slash
      split
      · rename_i tag
        subst tag
        exact .tag t
      · rename_i tag
        split
        · rename_i quote
          subst quote
          exact .literal t
        · rename_i quote
          split
          · rename_i word
            exact .word c t word
          · rename_i word
            exact .plain c t (by simp [isPlain, blank, slash, tag, quote, word])

variable {c : Char} {t rest : Text} {kind : TokenKind}

theorem cut_eq (cut : Cut c t kind rest) : Scan.cut c t = (kind, c :: lexeme t rest, rest) := by
  cases cut with
  | blank _ _ blank => rw [Scan.cut, if_pos blank, lexeme_drop_while]
  | comment _ _ found =>
    unfold Scan.cut
    rw [if_neg (by decide), if_pos rfl, found]
  | slash _ none =>
    unfold Scan.cut
    rw [if_neg (by decide), if_pos rfl, none, lexeme_whole]
  | tag => rfl
  | literal => rfl
  | word _ _ word =>
    obtain ⟨blank, slash, tag, quote, _⟩ := word_char_apart c word
    unfold Scan.cut
    rw [if_neg (by simp [blank]), if_neg slash, if_neg tag, if_neg quote, if_pos word, lexeme_drop_while]
  | plain _ _ plain =>
    simp only [isPlain, Bool.and_eq_true, Bool.not_eq_true', decide_eq_true_eq] at plain
    obtain ⟨⟨⟨⟨blank, slash⟩, tag⟩, quote⟩, word⟩ := plain
    unfold Scan.cut
    rw [if_neg (by simp [blank]), if_neg slash, if_neg tag, if_neg quote, if_neg (by simp [word]), lexeme_whole]

theorem left (cut : Cut c t kind rest) : rest <:+ t := by
  cases cut with
  | blank _ _ _ => exact drop_while_suffix isBlank t
  | comment _ _ found => exact after_comment_suffix t rest found
  | slash _ _ => exact List.suffix_refl t
  | tag => exact after_tag_suffix t
  | literal => exact after_quote_suffix t
  | word _ _ _ => exact drop_while_suffix isWordChar t
  | plain _ _ _ => exact List.suffix_refl t

theorem slash_of_comment (read : Cut c t .comment rest) : c = '/' := by
  cases read with
  | comment => rfl

theorem blanks (read : Cut c t .space rest) : ∀ d ∈ c :: lexeme t rest, isBlank d = true := by
  cases read with
  | blank _ _ blank =>
    rw [lexeme_drop_while]
    exact List.forall_mem_cons.mpr ⟨blank, fun d member => List.mem_takeWhile_imp member⟩

theorem single (read : Cut c t .punct rest) : rest = t := by
  cases read with
  | slash => rfl
  | plain => rfl

theorem unique {other : TokenKind} {more : Text} (first : Cut c t kind rest) (second : Cut c t other more) :
    kind = other ∧ rest = more := by
  have same := first.cut_eq.symm.trans second.cut_eq
  exact ⟨congrArg Prod.fst same, congrArg (fun cut => cut.2.2) same⟩

end Cut

end Scan

namespace Scan

/-! Scans that come to an end inside of a text come to the same end whatever stands behind it. -/

theorem drop_while_again (test : Char → Bool) (front rest u : Text) (ended : (front ++ rest).dropWhile test = rest)
    (stays : rest.head?.any test = false → u.head?.any test = false) : (front ++ u).dropWhile test = u := by
  have first := List.head?_dropWhile_not test (front ++ rest)
  rw [ended] at first
  have passed : ∀ c ∈ front, test c = true := by
    have whole := List.takeWhile_append_dropWhile (p := test) (l := front ++ rest)
    rw [ended] at whole
    intro c member
    rw [← List.append_cancel_right whole] at member
    exact List.mem_takeWhile_imp member
  have last : u.head?.any test = false := by
    apply stays
    cases rest with
    | nil => rfl
    | cons c rest => simpa using first
  rw [List.dropWhile_append_of_pos passed]
  cases u with
  | nil => rfl
  | cons c u => exact List.dropWhile_cons_of_neg (by simpa using last)

theorem after_quote_inside (inside u : Text) (free : '\'' ∉ inside) : afterQuote (inside ++ '\'' :: u) = u := by
  have passed : (inside ++ '\'' :: u).dropWhile (· ≠ '\'') = '\'' :: u := by
    rw [List.dropWhile_append_of_pos, List.dropWhile_cons_of_neg (by simp)]
    intro c member
    exact decide_eq_true fun same => free (same ▸ member)
  rw [afterQuote, passed]
  rfl

theorem after_quote_again (front rest u : Text) (more : rest ≠ []) (ended : afterQuote (front ++ rest) = rest) :
    afterQuote (front ++ u) = u := by
  rcases after_quote_cases (front ++ rest) with ⟨_, nothing⟩ | ⟨inside, free, split⟩
  · exact absurd (ended.symm.trans nothing) more
  · rw [ended, ← List.singleton_append, ← List.append_assoc] at split
    have whole := List.append_cancel_right split
    rw [← whole, List.append_assoc]
    exact after_quote_inside inside u free

def Closes (t : Text) : Prop := ∃ c rest, t = c :: rest ∧ closes c = true

theorem inside_of_closes (t : Text) (closing : Closes t) : (afterInside t).1 = t := by
  obtain ⟨c, rest, rfl, last⟩ := closing
  exact inside_closes c rest last

theorem after_group_closes (front rest : Text) (more : rest ≠ []) (ended : afterGroup (front ++ rest) = rest) :
    ∃ inside c, front = inside ++ [c] ∧ closes c = true ∧
      (afterInside (inside ++ c :: rest)).1 = c :: rest := by
  have stops := inside_stops (front ++ rest)
  obtain ⟨inside, split⟩ := (afterInside (front ++ rest)).2
  rw [afterGroup] at ended
  cases left : (afterInside (front ++ rest)).1 with
  | nil => exact absurd (by rw [← ended, left]; rfl) more
  | cons c behind =>
    rw [left] at ended stops split
    obtain rfl : behind = rest := ended
    have whole : inside ++ [c] = front := List.append_cancel_right ((List.append_assoc _ _ _).trans split)
    refine ⟨inside, c, whole.symm, stops, ?_⟩
    rw [split, left]

theorem inside_again (front rest u : Text) (closed : Closes rest) (closing : Closes u)
    (ended : (afterInside (front ++ rest)).1 = rest) : (afterInside (front ++ u)).1 = u := by
  induction length : front.length using Nat.strong_induction_on generalizing front rest u with
  | _ n ih =>
    subst length
    cases front with
    | nil => exact inside_of_closes u closing
    | cons c front =>
      have shorter : front.length < (c :: front).length := Nat.lt_succ_self _
      -- Behind the first character another scan goes over a part of the front, and then this one over the others.
      have after (scan : Text → Text) (left : scan (front ++ rest) <:+ front ++ rest)
          (step : ∀ t, (afterInside (c :: t)).1 = (afterInside (scan t)).1)
          (again : ∀ first behind other, first.length ≤ front.length → behind ≠ [] →
            scan (first ++ behind) = behind → scan (first ++ other) = other) :
          (afterInside (c :: (front ++ u))).1 = u := by
        rw [List.cons_append, step] at ended
        obtain ⟨second, behind⟩ : rest <:+ scan (front ++ rest) := by
          have inner := (afterInside (scan (front ++ rest))).2
          rwa [ended] at inner
        obtain ⟨first, split⟩ := left
        rw [← behind, ← List.append_assoc] at split
        have parts := List.append_cancel_right split
        have lengths := congrArg List.length parts
        rw [List.length_append] at lengths
        obtain ⟨last, others, filled, lastCloses⟩ := closed
        have passed := again first (second ++ rest) (second ++ u) (by omega) (by simp [filled])
          (by rw [← List.append_assoc, parts, behind])
        rw [← List.append_assoc, parts] at passed
        rw [step, passed]
        rw [← behind] at ended
        exact ih second.length (by omega) second rest u ⟨last, others, filled, lastCloses⟩ closing ended rfl
      rw [List.cons_append]
      cases closingFirst : closes c with
      | true =>
        rw [List.cons_append, inside_closes c _ closingFirst] at ended
        have lengths := congrArg List.length ended
        simp at lengths
        omega
      | false =>
        cases opening : opens c with
        | true =>
          refine after afterGroup (after_group_suffix _) (fun t => inside_opens c t closingFirst opening) ?_
          intro first behind other short more passed
          obtain ⟨inside, last, rfl, lastCloses, scanned⟩ := after_group_closes first behind more passed
          rw [List.length_append, List.length_singleton] at short
          have further := ih inside.length (by omega) inside (last :: behind) (last :: other)
            ⟨last, behind, rfl, lastCloses⟩ ⟨last, other, rfl, lastCloses⟩ scanned rfl
          rw [afterGroup, List.append_assoc]
          exact congrArg (List.drop 1) further
        | false =>
          by_cases quote : c = '\''
          · exact after afterQuote (after_quote_suffix _) (fun t => inside_quote c t closingFirst opening quote)
              fun first behind other _ more passed => after_quote_again first behind other more passed
          · exact after id (List.suffix_refl _) (fun t => inside_other c t closingFirst opening quote)
              fun first behind other _ _ passed => by
                have nothing : first = [] := List.append_left_eq_self.mp passed
                rw [nothing]
                rfl

theorem after_group_again (front rest u : Text) (more : rest ≠ []) (ended : afterGroup (front ++ rest) = rest) :
    afterGroup (front ++ u) = u := by
  obtain ⟨inside, c, rfl, last, scanned⟩ := after_group_closes front rest more ended
  have again := inside_again inside (c :: rest) (c :: u) ⟨c, rest, rfl, last⟩ ⟨c, u, rfl, last⟩ scanned
  rw [afterGroup, List.append_assoc]
  exact congrArg (List.drop 1) again

-- The value of an annotation stands behind blanks and a colon, which are passed over in front of any text.
theorem value_behind_colon (t rest : Text) (found : afterValue? t = some rest) :
    ∃ lead c value, t = lead ++ c :: value ∧ isBlank c = false ∧ ofValue? (c :: value) = some rest ∧
      (∃ d, lead.head? = some d ∧ isWordChar d = false) ∧
      ∀ d other, isBlank d = false → afterValue? (lead ++ d :: other) = ofValue? (d :: other) := by
  rw [after_value_eq] at found
  have whole := List.takeWhile_append_dropWhile (p := isBlank) (l := t)
  have blanks : ∀ c ∈ t.takeWhile isBlank, isBlank c = true := fun c member => List.mem_takeWhile_imp member
  generalize t.takeWhile isBlank = blank at whole blanks
  unfold ofColon? at found
  split at found
  · rename_i behind colon
    rw [colon] at whole
    have further := List.takeWhile_append_dropWhile (p := isBlank) (l := behind)
    have others : ∀ c ∈ behind.takeWhile isBlank, isBlank c = true := fun c member => List.mem_takeWhile_imp member
    have stopped := List.head?_dropWhile_not isBlank behind
    generalize behind.takeWhile isBlank = gap at further others
    cases left : behind.dropWhile isBlank with
    | nil =>
      rw [left] at found
      contradiction
    | cons c value =>
      rw [left] at found further stopped
      refine ⟨blank ++ ':' :: gap, c, value, ?_, by simpa using stopped, found, ?_, ?_⟩
      · rw [← whole, ← further]
        simp
      · cases blank with
        | nil => exact ⟨':', rfl, by decide⟩
        | cons d blank =>
          refine ⟨d, rfl, ?_⟩
          have first := blanks d List.mem_cons_self
          cases word : isWordChar d with
          | false => rfl
          | true =>
            rw [(word_char_apart d word).1] at first
            contradiction
      · intro d other apart
        have colonStays : ¬ isBlank ':' = true := by decide
        rw [after_value_eq, List.append_assoc, List.dropWhile_append_of_pos blanks, List.cons_append,
          List.dropWhile_cons_of_neg colonStays]
        change ofValue? ((gap ++ d :: other).dropWhile isBlank) = _
        rw [List.dropWhile_append_of_pos others, List.dropWhile_cons_of_neg (by simp [apart])]
  · contradiction

theorem of_value_again (c : Char) (front rest u : Text) (more : rest ≠ [])
    (found : ofValue? (c :: (front ++ rest)) = some rest)
    (unvalued : rest.head?.any isValueChar = false → u.head?.any isValueChar = false) :
    ofValue? (c :: (front ++ u)) = some u := by
  rw [ofValue?] at found ⊢
  split
  · rename_i quote
    rw [if_pos quote] at found
    rw [after_quote_again front rest u more (Option.some.inj found)]
  · rename_i quote
    rw [if_neg quote] at found
    split
    · rename_i opening
      rw [if_pos opening] at found
      rw [after_group_again front rest u more (Option.some.inj found)]
    · rename_i opening
      rw [if_neg opening] at found
      split
      · rename_i value
        rw [if_pos value] at found
        rw [drop_while_again isValueChar front rest u (Option.some.inj found) unvalued]
      · rename_i value
        rw [if_neg value] at found
        contradiction

end Scan

theorem tokenize_nil : tokenize [] = [] := by rw [tokenize, tokensFrom]

theorem without_comments_nil : withoutComments [] = [] := by rw [withoutComments, tokenize_nil, List.flatMap_nil]

open Scan

-- Whether the text behind a token goes on with it, so that the two together are read as another token.
def Token.goesOn (token : Token) (behind : Text) : Bool :=
  match token.kind with
  | .space => behind.head?.any isBlank
  | .word => behind.head?.any isWordChar
  | .punct => token.text = ['/'] && (afterComment? behind).isSome
  | .tag =>
    token.text.tail.all isWordChar &&
      (behind.head?.any isWordChar || (token.text.tail.isEmpty && behind.head?.any opens) ||
        (afterValue? behind).isSome)
  | .comment | .literal => false

namespace Scan

theorem of_value_left (c : Char) (value rest : Text) (found : ofValue? (c :: value) = some rest) : rest <:+ value := by
  rw [ofValue?] at found
  split at found
  · exact Option.some.inj found ▸ after_quote_suffix value
  · split at found
    · exact Option.some.inj found ▸ after_group_suffix value
    · split at found
      · exact Option.some.inj found ▸ drop_while_suffix isValueChar value
      · contradiction

theorem after_value_shorter (t rest : Text) (found : afterValue? t = some rest) : rest.length < t.length := by
  obtain ⟨lead, c, value, rfl, _, read, _⟩ := value_behind_colon t rest found
  have left := (of_value_left c value rest read).length_le
  rw [List.length_append, List.length_cons]
  omega

-- A name that no value follows is read again where the text behind neither goes on with it nor gives it a value.
theorem after_name_alone (front u : Text) (named : front.all isWordChar = true)
    (unnamed : u.head?.any isWordChar = false) (novalue : afterValue? u = none) : afterName (front ++ u) = u := by
  have passed : (front ++ u).dropWhile isWordChar = u := by
    rw [List.dropWhile_append_of_pos (List.all_eq_true.mp named)]
    cases u with
    | nil => rfl
    | cons c u => exact List.dropWhile_cons_of_neg (by simpa using unnamed)
  rw [afterName, passed, novalue, Option.getD_none]

theorem after_name_valued (front rest u : Text) (more : rest ≠ [])
    (found : afterValue? ((front ++ rest).dropWhile isWordChar) = some rest)
    (unvalued : rest.head?.any isValueChar = false → u.head?.any isValueChar = false) :
    front ≠ [] ∧ afterName (front ++ u) = u := by
  obtain ⟨lead, c, value, split, solid, read, ⟨d, leads, unnamed⟩, again⟩ := value_behind_colon _ rest found
  obtain ⟨inner, rfl⟩ := of_value_left c value rest read
  have whole := List.takeWhile_append_dropWhile (p := isWordChar) (l := front ++ rest)
  have names : ∀ e ∈ (front ++ rest).takeWhile isWordChar, isWordChar e = true :=
    fun e member => List.mem_takeWhile_imp member
  generalize (front ++ rest).takeWhile isWordChar = name at whole names
  obtain ⟨others, rfl⟩ : ∃ others, lead = d :: others := List.head?_eq_some_iff.mp leads
  have parts : front = name ++ (d :: others ++ c :: inner) := by
    rw [split] at whole
    apply (List.append_left_inj rest).mp
    rw [← whole]
    simp
  refine ⟨by simp [parts], ?_⟩
  have passed : (front ++ u).dropWhile isWordChar = d :: others ++ c :: (inner ++ u) := by
    rw [parts, List.append_assoc, List.dropWhile_append_of_pos names, List.append_assoc, List.cons_append,
      List.dropWhile_cons_of_neg (by simp [unnamed])]
    rfl
  rw [afterName, passed, again c _ solid, of_value_again c inner rest u more read unvalued, Option.getD_some]

theorem after_tag_again (front rest u : Text) (start : Nat) (more : rest ≠ []) (ended : afterTag (front ++ rest) = rest)
    (unvalued : rest.head?.any isValueChar = false → u.head?.any isValueChar = false)
    (apart : Token.goesOn ⟨.tag, '@' :: front, start⟩ u = false) : afterTag (front ++ u) = u := by
  rw [after_tag_eq] at ended ⊢
  cases opening : (front ++ rest).head?.any opens with
  | true =>
    rw [opening, if_pos rfl] at ended
    cases front with
    | nil =>
      have shorter := (after_group_suffix ((([] : Text) ++ rest).drop 1)).length_le
      rw [ended] at shorter
      have filled := List.length_pos_iff.mpr more
      simp at shorter
      omega
    | cons c front =>
      rw [if_pos (by simpa using opening)]
      exact after_group_again front rest u more ended
  | false =>
    rw [opening, if_neg Bool.false_ne_true, afterName] at ended
    cases found : afterValue? ((front ++ rest).dropWhile isWordChar) with
    | none =>
      rw [found, Option.getD_none] at ended
      have named : front.all isWordChar = true := by
        have whole := List.takeWhile_append_dropWhile (p := isWordChar) (l := front ++ rest)
        rw [ended] at whole
        rw [List.all_eq_true]
        intro c member
        rw [← List.append_cancel_right whole] at member
        exact List.mem_takeWhile_imp member
      simp only [Token.goesOn, List.tail_cons, named, Bool.true_and, Bool.or_eq_false_iff,
        Option.isSome_eq_false_iff, Option.isNone_iff_eq_none] at apart
      obtain ⟨⟨unnamed, unopened⟩, novalue⟩ := apart
      have first : (front ++ u).head?.any opens = false := by
        cases front with
        | nil => simpa using unopened
        | cons c front =>
          rw [List.all_cons, Bool.and_eq_true] at named
          exact (word_char_apart c named.1).2.2.2.2
      rw [first, if_neg Bool.false_ne_true]
      exact after_name_alone front u named unnamed novalue
    | some left =>
      rw [found, Option.getD_some] at ended
      subst ended
      obtain ⟨filled, valued⟩ := after_name_valued front left u more found unvalued
      obtain ⟨c, behind, rfl⟩ := List.exists_cons_of_ne_nil filled
      rw [if_neg (by simpa using opening)]
      exact valued

-- What an annotation takes of a text that goes on with it.
theorem after_tag_taken (front u : Text) (start : Nat) (goesOn : Token.goesOn ⟨.tag, '@' :: front, start⟩ u = true) :
    afterTag (front ++ u) ≠ u := by
  intro same
  simp only [Token.goesOn, List.tail_cons, Bool.and_eq_true, Bool.or_eq_true] at goesOn
  obtain ⟨named, further⟩ := goesOn
  have names := List.all_eq_true.mp named
  have left := congrArg List.length same
  rw [after_tag_eq] at left
  split at left
  · rename_i opening
    cases front with
    | nil =>
      obtain ⟨c, u, rfl⟩ : ∃ c v, u = c :: v := by
        cases u with
        | nil => simp at opening
        | cons c u => exact ⟨c, u, rfl⟩
      have shorter := (after_group_suffix u).length_le
      simp at left
      omega
    | cons c front =>
      have first := (word_char_apart c (names c List.mem_cons_self)).2.2.2.2
      simp [first] at opening
  · rename_i unopened
    rw [afterName, List.dropWhile_append_of_pos names] at left
    rcases further with (word | bracket) | value
    · cases u with
      | nil => contradiction
      | cons c u =>
        have shorter := (drop_while_suffix isWordChar u).length_le
        rw [List.dropWhile_cons_of_pos (by simpa using word)] at left
        cases found : afterValue? (u.dropWhile isWordChar) with
        | none =>
          rw [found, Option.getD_none, List.length_cons] at left
          omega
        | some rest =>
          have less := after_value_shorter _ rest found
          rw [found, Option.getD_some, List.length_cons] at left
          omega
    · rw [List.isEmpty_iff] at bracket
      rw [bracket.1, List.nil_append] at unopened
      exact unopened bracket.2
    · obtain ⟨rest, found⟩ := Option.isSome_iff_exists.mp value
      obtain ⟨lead, c, inner, rfl, _, _, ⟨d, leads, unnamed⟩, _⟩ := value_behind_colon u rest found
      obtain ⟨others, rfl⟩ : ∃ others, lead = d :: others := List.head?_eq_some_iff.mp leads
      have less := after_value_shorter _ rest found
      rw [List.cons_append, List.dropWhile_cons_of_neg (by simp [unnamed]), ← List.cons_append, found,
        Option.getD_some] at left
      omega

namespace Cut

variable {c : Char} {front rest : Text} {kind : TokenKind}

theorem again (cut : Cut c (front ++ rest) kind rest) (u : Text) (start : Nat) (uncommented : kind ≠ .comment)
    (ended : rest = [] → u = []) (unvalued : rest.head?.any isValueChar = false → u.head?.any isValueChar = false)
    (apart : Token.goesOn ⟨kind, c :: front, start⟩ u = false) : Cut c (front ++ u) kind u := by
  by_cases nothing : rest = []
  · rw [ended nothing]
    rwa [nothing] at cut
  · generalize whole : front ++ rest = t at cut
    cases cut with
    | blank _ _ blank =>
      have passed := drop_while_again isBlank front _ u (by rw [whole]) fun _ => apart
      have read := Cut.blank c (front ++ u) blank
      rwa [passed] at read
    | comment => contradiction
    | slash _ none =>
      obtain rfl : front = [] := List.append_left_eq_self.mp whole
      exact .slash u (by simpa [Token.goesOn] using apart)
    | tag =>
      have passed := after_tag_again front _ u start nothing (by rw [whole]) unvalued apart
      have read := Cut.tag (front ++ u)
      rwa [passed] at read
    | literal =>
      have passed := after_quote_again front _ u nothing (by rw [whole])
      have read := Cut.literal (front ++ u)
      rwa [passed] at read
    | word _ _ word =>
      have passed := drop_while_again isWordChar front _ u (by rw [whole]) fun _ => apart
      have read := Cut.word c (front ++ u) word
      rwa [passed] at read
    | plain _ _ plain =>
      obtain rfl : front = [] := List.append_left_eq_self.mp whole
      exact .plain c u plain

-- A text that goes on with a token is not left behind it.
theorem apart (read : Cut c (front ++ rest) kind rest) (start : Nat) :
    Token.goesOn ⟨kind, c :: front, start⟩ rest = false := by
  generalize whole : front ++ rest = t at read
  have stopped (test : Char → Bool) : (t.dropWhile test).head?.any test = false := by
    have first := List.head?_dropWhile_not test t
    cases left : (t.dropWhile test) with
    | nil => rfl
    | cons d rest => simpa [left] using first
  cases read with
  | blank => exact stopped isBlank
  | comment => rfl
  | slash _ none => simp [Token.goesOn, none]
  | tag =>
    by_contra goesOn
    exact after_tag_taken front _ start (by simpa using goesOn) (by rw [whole])
  | literal => rfl
  | word => exact stopped isWordChar
  | plain _ _ plain =>
    have other : c ≠ '/' := by
      rintro rfl
      contradiction
    simp [Token.goesOn, other]

end Cut

end Scan

theorem tokens_of_cut (start : Nat) (c : Char) (front rest : Text) (kind : TokenKind)
    (cut : Cut c (front ++ rest) kind rest) :
    tokensFrom start (c :: (front ++ rest)) =
      ⟨kind, c :: front, start⟩ :: tokensFrom (start + Text.byteSize (c :: front)) rest := by
  rw [tokensFrom, cut.cut_eq, lexeme_of_split _ front rest rfl]

-- A token at another place.
def Token.moved (bytes : Nat) (token : Token) : Token := { token with start := bytes + token.start }

theorem tokens_moved (bytes start : Nat) (t : Text) :
    tokensFrom (bytes + start) t = (tokensFrom start t).map (Token.moved bytes) := by
  fun_induction tokensFrom start t with
  | case1 => rw [tokensFrom, List.map_nil]
  | case2 start c t cut ih => rw [tokensFrom, List.map_cons, ← ih, Nat.add_assoc]; rfl

theorem tokens_from_start (start : Nat) (t : Text) : tokensFrom start t = (tokenize t).map (Token.moved start) :=
  tokens_moved start 0 t

theorem tokenize_of_cut (c : Char) (front rest : Text) (kind : TokenKind) (cut : Cut c (front ++ rest) kind rest) :
    tokenize (c :: (front ++ rest)) =
      ⟨kind, c :: front, 0⟩ :: (tokenize rest).map (Token.moved (Text.byteSize (c :: front))) := by
  rw [tokenize, tokens_of_cut 0 c front rest kind cut, tokens_from_start, Nat.zero_add]

theorem moved_again (a b : Nat) (tokens : List Token) :
    (tokens.map (Token.moved a)).map (Token.moved b) = tokens.map (Token.moved (b + a)) := by
  rw [List.map_map]
  apply List.map_congr_left
  intro token _
  simp [Token.moved, Nat.add_assoc]

theorem tokenize_eq_nil_iff (t : Text) : tokenize t = [] ↔ t = [] := by
  cases t with
  | nil => exact iff_of_true tokenize_nil rfl
  | cons c t => rw [tokenize, tokensFrom]; simp

-- A text is empty, or a token with a text behind it.
theorem text_induction {motive : Text → Prop} (nil : motive [])
    (token : ∀ c front rest kind, Cut c (front ++ rest) kind rest → motive rest → motive (c :: (front ++ rest)))
    (t : Text) : motive t := by
  induction length : t.length using Nat.strong_induction_on generalizing t with
  | _ n ih =>
    subst length
    cases t with
    | nil => exact nil
    | cons c t =>
      have cut := Cut.of_cut c t
      obtain ⟨front, split⟩ := cut.left
      generalize (Scan.cut c t).2.2 = rest at cut split
      subst split
      refine token c front rest _ cut (ih _ ?_ rest rfl)
      rw [List.length_cons, List.length_append]
      omega

-- Each token was cut off the text from its place on.
theorem cut_at_token (start : Nat) (t : Text) (before after : List Token) (token : Token)
    (split : tokensFrom start t = before ++ token :: after) :
    ∃ c front, token.text = c :: front ∧ Cut c (front ++ untokenize after) token.kind (untokenize after) := by
  induction before generalizing start t with
  | nil =>
    cases t using text_induction with
    | nil =>
      rw [tokensFrom] at split
      contradiction
    | token c front rest kind cut =>
      rw [tokens_of_cut start c front rest kind cut] at split
      obtain ⟨rfl, rfl⟩ := List.cons.inj split
      rw [untokenize_tokens_from]
      exact ⟨c, front, rfl, cut⟩
  | cons first before ih =>
    cases t using text_induction with
    | nil =>
      rw [tokensFrom] at split
      contradiction
    | token c front rest kind cut =>
      rw [tokens_of_cut start c front rest kind cut] at split
      exact ih _ _ (List.cons.inj split).2

theorem cut_of_token (start : Nat) (t : Text) (token : Token) (member : token ∈ tokensFrom start t) :
    ∃ c front rest, token.text = c :: front ∧ Cut c (front ++ rest) token.kind rest := by
  obtain ⟨before, after, split⟩ := List.append_of_mem member
  obtain ⟨c, front, text, cut⟩ := cut_at_token start t before after token split
  exact ⟨c, front, _, text, cut⟩

theorem space_blank (start : Nat) (t : Text) (token : Token) (member : token ∈ tokensFrom start t)
    (space : token.kind = .space) : ∀ c ∈ token.text, isBlank c = true := by
  obtain ⟨c, front, rest, text, cut⟩ := cut_of_token start t token member
  rw [space] at cut
  have blanks := cut.blanks
  rwa [lexeme_of_split _ front rest rfl, ← text] at blanks

theorem punct_single (start : Nat) (t : Text) (token : Token) (member : token ∈ tokensFrom start t)
    (punct : token.kind = .punct) : ∃ c, token.text = [c] := by
  obtain ⟨c, front, rest, text, cut⟩ := cut_of_token start t token member
  rw [punct] at cut
  have nothing : front = [] := List.append_left_eq_self.mp cut.single.symm
  exact ⟨c, by rw [text, nothing]⟩

theorem punct_text (start : Nat) (t : Text) (token : Token) (member : token ∈ tokensFrom start t) (c : Char)
    (punct : token.isPunct c = true) : token.text = [c] := by
  rw [Token.isPunct, Bool.and_eq_true, decide_eq_true_eq, decide_eq_true_eq] at punct
  obtain ⟨d, single⟩ := punct_single start t token member punct.1
  rw [single] at punct ⊢
  rw [Option.some.inj punct.2]

theorem without_comments_moved (start : Nat) (t : Text) :
    (tokensFrom start t).flatMap Token.withoutComment = withoutComments t := by
  rw [tokens_from_start, List.flatMap_map]
  rfl

theorem without_comments_of_cut (c : Char) (front rest : Text) (kind : TokenKind)
    (cut : Cut c (front ++ rest) kind rest) :
    withoutComments (c :: (front ++ rest)) = Token.withoutComment ⟨kind, c :: front, 0⟩ ++ withoutComments rest := by
  rw [withoutComments, tokenize, tokens_of_cut 0 c front rest kind cut, List.flatMap_cons, without_comments_moved]

theorem tokens_word (start : Nat) (word rest : Text) (filled : word ≠ []) (all : word.all isWordChar = true)
    (stops : rest.head?.any isWordChar = false) :
    tokensFrom start (word ++ rest) = ⟨.word, word, start⟩ :: tokensFrom (start + word.byteSize) rest := by
  obtain ⟨c, front, rfl⟩ := List.exists_cons_of_ne_nil filled
  have letters := List.all_eq_true.mp all
  have passed : (front ++ rest).dropWhile isWordChar = rest := by
    rw [List.dropWhile_append_of_pos fun d member => letters d (List.mem_cons_of_mem c member)]
    cases rest with
    | nil => rfl
    | cons d rest => exact List.dropWhile_cons_of_neg (by simpa using stops)
  have read := Cut.word c (front ++ rest) (letters c List.mem_cons_self)
  rw [passed] at read
  exact tokens_of_cut start c front rest .word read

theorem tokens_blank (start : Nat) (rest : Text) (stops : rest.head?.any isBlank = false) :
    tokensFrom start (' ' :: rest) = ⟨.space, [' '], start⟩ :: tokensFrom (start + 1) rest := by
  have passed : rest.dropWhile isBlank = rest := by
    cases rest with
    | nil => rfl
    | cons d rest => exact List.dropWhile_cons_of_neg (by simpa using stops)
  have read := Cut.blank ' ' rest rfl
  rw [passed] at read
  exact tokens_of_cut start ' ' [] rest .space read

theorem without_comments_uncommented (t : Text) (uncommented : ∀ token ∈ tokenize t, token.kind ≠ .comment) :
    withoutComments t = t := by
  have kept : withoutComments t = untokenize (tokenize t) :=
    List.flatMap_congr fun token member => if_neg (uncommented token member)
  rw [kept]
  exact untokenize_tokens_from 0 t

-- Blanks in front of a text are one token, which is kept.
theorem cut_blanks (t : Text) :
    t.dropWhile isBlank = t ∨ ∃ c front, t = c :: (front ++ t.dropWhile isBlank) ∧
      Cut c (front ++ t.dropWhile isBlank) .space (t.dropWhile isBlank) ∧ t.takeWhile isBlank = c :: front := by
  cases t with
  | nil => exact .inl rfl
  | cons c t =>
    cases blank : isBlank c with
    | false => exact .inl (List.dropWhile_cons_of_neg (by simp [blank]))
    | true =>
      have whole := List.takeWhile_append_dropWhile (p := isBlank) (l := t)
      refine .inr ⟨c, t.takeWhile isBlank, ?_, ?_, List.takeWhile_cons_of_pos blank⟩
      · rw [List.dropWhile_cons_of_pos blank, whole]
      · rw [List.dropWhile_cons_of_pos blank, whole]
        exact .blank c t blank

theorem tokens_of_blanks (t : Text) (blanks : ∀ c ∈ t, isBlank c = true) : t = [] ∨ tokenize t = [⟨.space, t, 0⟩] := by
  have nothing : t.dropWhile isBlank = [] := List.dropWhile_eq_nil_iff.mpr blanks
  rcases cut_blanks t with same | ⟨c, front, whole, cut, _⟩
  · exact .inl (same.symm.trans nothing)
  · rw [nothing] at whole cut
    rw [List.append_nil] at whole
    right
    have read := tokenize_of_cut c front [] .space cut
    rwa [List.append_nil, tokenize_nil, ← whole] at read

end SchemaDiagram
