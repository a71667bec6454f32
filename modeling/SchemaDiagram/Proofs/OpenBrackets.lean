import Mathlib.Data.Bool.AllAny
import SchemaDiagram.Proofs.Joining
import SchemaDiagram.Rendering

/-!
What a line of a body does to the lines behind it. Behind a semicolon outside brackets the statements are those of the
rest alone. Where a line leaves a bracket open, all that follows belongs to its last statement.
-/

set_option autoImplicit false

namespace SchemaDiagram

open Scan

def bracketsOpen (depth : Nat) (tokens : List Token) : Nat := tokens.foldl Token.depthAfter depth

theorem brackets_open_append (depth : Nat) (tokens more : List Token) :
    bracketsOpen depth (tokens ++ more) = bracketsOpen (bracketsOpen depth tokens) more := List.foldl_append

theorem brackets_open_moved (bytes depth : Nat) (tokens : List Token) :
    bracketsOpen depth (tokens.map (Token.moved bytes)) = bracketsOpen depth tokens := by
  rw [bracketsOpen, List.foldl_map]
  rfl

theorem brackets_open_mono (a b : Nat) (tokens : List Token) (less : a ≤ b) :
    bracketsOpen a tokens ≤ bracketsOpen b tokens := by
  induction tokens generalizing a b with
  | nil => exact less
  | cons token rest ih =>
    apply ih
    unfold Token.depthAfter
    split
    · omega
    · split <;> omega

-- Whether tokens close the brackets they open and no others.
def Balanced (tokens : List Token) : Prop := ∀ depth, bracketsOpen depth tokens = depth

-- A bracket more in front is a bracket more behind, unless it was closed, and then so is the one less.
theorem brackets_open_succ (depth more : Nat) (tokens : List Token)
    (held : bracketsOpen (depth + 1) tokens = bracketsOpen depth tokens + 1) :
    bracketsOpen (depth + more + 1) tokens = bracketsOpen (depth + more) tokens + 1 := by
  induction tokens generalizing depth with
  | nil => rfl
  | cons token rest ih =>
    change bracketsOpen (token.depthAfter (depth + 1)) rest = bracketsOpen (token.depthAfter depth) rest + 1 at held
    change bracketsOpen (token.depthAfter (depth + more + 1)) rest =
      bracketsOpen (token.depthAfter (depth + more)) rest + 1
    unfold Token.depthAfter at held ⊢
    split
    · rename_i opener
      rw [if_pos opener, if_pos opener] at held
      have further := ih (depth + 1) held
      rwa [Nat.add_right_comm depth 1 more] at further
    · rename_i opener
      rw [if_neg opener, if_neg opener] at held
      split
      · rename_i closer
        rw [if_pos closer, if_pos closer, Nat.add_sub_cancel] at held
        cases depth with
        | zero =>
          simp at held
        | succ depth =>
          have further := ih depth held
          rwa [Nat.add_sub_cancel, Nat.add_right_comm depth 1 more, Nat.add_sub_cancel]
      · rename_i closer
        rw [if_neg closer, if_neg closer] at held
        exact ih depth held

theorem balanced_iff (tokens : List Token) :
    Balanced tokens ↔ bracketsOpen 0 tokens = 0 ∧ bracketsOpen 1 tokens = 1 := by
  constructor
  · intro balanced
    exact ⟨balanced 0, balanced 1⟩
  · rintro ⟨ground, held⟩ depth
    induction depth with
    | zero => exact ground
    | succ depth ih =>
      have further := brackets_open_succ 0 depth tokens (by rw [held, ground])
      rwa [Nat.zero_add, ih] at further

instance (tokens : List Token) : Decidable (Balanced tokens) := decidable_of_iff _ (balanced_iff tokens).symm

theorem balanced_append (tokens more : List Token) (first : Balanced tokens) (second : Balanced more) :
    Balanced (tokens ++ more) := by
  intro depth
  rw [brackets_open_append, first depth, second depth]

-- Within them a bracket that was open in front of them stays open.
theorem Balanced.held (before after : List Token) (balanced : Balanced (before ++ after)) (depth : Nat)
    (opened : 0 < depth) : 0 < bracketsOpen depth before := by
  by_contra closed
  have level : bracketsOpen depth before = 0 := by omega
  have ground : bracketsOpen 0 before = 0 := by
    have less := brackets_open_mono 0 depth before (Nat.zero_le depth)
    omega
  have same := balanced depth
  rw [brackets_open_append, level] at same
  have none := balanced 0
  rw [brackets_open_append, ground] at none
  omega

namespace Statement

theorem finish_append (statement : Text) (others more : List Text) :
    finish statement (others ++ more) = finish statement others ++ more := by
  rw [finish, finish]
  split <;> rfl

theorem carries_on_append (words : Nat) (tokens more : List Token) (ended : endsClause tokens = true) :
    carriesOn words (tokens ++ more) = carriesOn words tokens := by
  induction tokens generalizing words with
  | nil => contradiction
  | cons token rest ih =>
    rw [List.cons_append, carriesOn, carriesOn]
    rcases ends_clause_cons token rest ended with ⟨rfl, semicolon⟩ | behind
    · have punct : token.kind = .punct := of_decide_eq_true (Bool.and_eq_true_iff.mp semicolon).1
      simp [Token.isTrivia, Token.isSpace, Token.isRemark, punct]
    · rw [ih _ behind, ih _ behind]

theorem carries_on_moved (bytes words : Nat) (tokens : List Token) :
    carriesOn words (tokens.map (Token.moved bytes)) = carriesOn words tokens := by
  induction tokens generalizing words with
  | nil => rfl
  | cons token rest ih =>
    rw [List.map_cons, carriesOn, carriesOn, ih, ih]
    rfl

theorem collect_moved (bytes : Nat) (statement : Text) (typed : Bool) (depth : Nat) (tokens : List Token) :
    collect statement typed depth (tokens.map (Token.moved bytes)) = collect statement typed depth tokens := by
  induction tokens generalizing statement typed depth with
  | nil => rfl
  | cons token rest ih =>
    rw [List.map_cons, collect, collect, carries_on_moved, ih, ih, ih, ih]
    rfl

theorem depth_after_semicolon (depth : Nat) (token : Token) (semicolon : token.isPunct ';' = true) :
    token.depthAfter depth = depth := by
  rw [Token.isPunct, Bool.and_eq_true, decide_eq_true_eq, decide_eq_true_eq] at semicolon
  simp [Token.depthAfter, Token.isOpener, Token.isCloser, semicolon, opens, closes]

theorem depth_after_break (depth : Nat) (token : Token) (lineBreak : token.isLineBreak = true) :
    token.depthAfter depth = depth := by
  have space : token.kind = .space := of_decide_eq_true (Bool.and_eq_true_iff.mp lineBreak).1
  simp [Token.depthAfter, Token.isOpener, Token.isCloser, space]

-- A semicolon outside brackets at the end of tokens ends a statement for good.
theorem collect_append (statement : Text) (typed : Bool) (depth : Nat) (tokens more : List Token)
    (ended : endsClause tokens = true) (closed : bracketsOpen depth tokens = 0) :
    collect statement typed depth (tokens ++ more) =
      collect statement typed depth tokens ++ collect [] false 0 more := by
  induction tokens generalizing statement typed depth with
  | nil => contradiction
  | cons token rest ih =>
    change bracketsOpen (token.depthAfter depth) rest = 0 at closed
    rcases ends_clause_cons token rest ended with ⟨rfl, semicolon⟩ | behind
    · rw [depth_after_semicolon depth token semicolon] at closed
      obtain rfl : depth = 0 := closed
      rw [List.singleton_append, collect, collect, if_pos (by simp [semicolon]), if_pos (by simp [semicolon])]
      exact finish_append statement [] _
    · rw [List.cons_append, collect, collect, carries_on_append 0 rest more behind]
      split
      · rename_i semicolon
        rw [depth_after_semicolon depth token (Bool.and_eq_true_iff.mp semicolon).2] at closed
        rw [ih _ _ _ behind closed, finish_append]
      · split
        · rename_i lineBreak
          rw [depth_after_break depth token lineBreak] at closed
          split
          · exact ih _ _ _ behind closed
          · rw [ih _ _ _ behind closed, finish_append]
        · exact ih _ _ _ behind closed

-- What a statement takes of tokens within brackets.
def joined (tokens : List Token) : Text := tokens.flatMap fun token => if token.isLineBreak then [' '] else token.text

theorem collect_held (statement : Text) (typed : Bool) (depth : Nat) (tokens : List Token)
    (held : ∀ before after, tokens = before ++ after → 0 < bracketsOpen depth before) :
    collect statement typed depth tokens = finish (statement ++ joined tokens) [] := by
  induction tokens generalizing statement typed depth with
  | nil => rw [collect, joined, List.flatMap_nil, List.append_nil]
  | cons token rest ih =>
    have opened : 0 < depth := held [] _ rfl
    have further : ∀ before after, rest = before ++ after → 0 < bracketsOpen (token.depthAfter depth) before := by
      rintro before after rfl
      exact held (token :: before) after rfl
    have split : joined (token :: rest) = (if token.isLineBreak then [' '] else token.text) ++ joined rest := rfl
    rw [collect, if_neg (by simp; omega), split, ← List.append_assoc]
    split
    · rename_i lineBreak
      rw [depth_after_break depth token lineBreak] at further
      rw [if_pos (by simp [opened])]
      exact ih _ _ _ further
    · exact ih _ _ _ further

theorem filled_append (a b : Text) (filled : a.isBlank = false ∨ b.isBlank = false) : (a ++ b).isBlank = false := by
  rw [Text.isBlank, List.all_append, Bool.and_eq_false_iff]
  exact filled

-- Whether the line breaks among tokens go on with an element alike, whichever of two texts follows.
def BreaksAlike (tokens more other : List Token) : Prop :=
  ∀ rest, rest <:+ tokens → rest ≠ [] → carriesOn 0 (rest ++ more) = carriesOn 0 (rest ++ other)

-- The statement that is read at the end of tokens, where they end in neither white space nor the end of a statement.
theorem collect_on (statement : Text) (typed : Bool) (depth : Nat) (tokens other : List Token) (filled : tokens ≠ [])
    (solid : tokens.getLast?.all (!·.isSpace) = true)
    (stays : tokens.getLast?.all (!·.isPunct ';') = true ∨ bracketsOpen depth tokens ≠ 0) :
    ∃ others front last typed', tokens.getLast? = some last ∧ ∀ more, BreaksAlike tokens more other →
      collect statement typed depth (tokens ++ more) =
        others ++ collect (front ++ last.text) typed' (bracketsOpen depth tokens) more := by
  induction tokens generalizing statement typed depth with
  | nil => contradiction
  | cons token rest ih =>
    change ∃ others front last typed', (token :: rest).getLast? = some last ∧ ∀ more, BreaksAlike (token :: rest) more other →
      collect statement typed depth (token :: (rest ++ more)) =
        others ++ collect (front ++ last.text) typed' (bracketsOpen (token.depthAfter depth) rest) more
    by_cases nothing : rest = []
    · subst nothing
      have unspaced : token.isSpace = false := by simpa using solid
      have onLine : token.isLineBreak = false := by
        have kind : token.kind ≠ .space := of_decide_eq_false unspaced
        simp [Token.isLineBreak, kind]
      have goesOn : ¬ (decide (depth = 0) && token.isPunct ';') = true := by
        intro ends
        obtain ⟨ground, semicolon⟩ := Bool.and_eq_true_iff.mp ends
        have level : bracketsOpen depth [token] = depth := depth_after_semicolon depth token semicolon
        rw [level] at stays
        simp [semicolon, of_decide_eq_true ground] at stays
      refine ⟨[], statement, token, typed || (depth = 0 && token.isPunct ':'), rfl, fun more _ => ?_⟩
      rw [List.nil_append, collect, if_neg goesOn, if_neg (by simp [onLine])]
      rfl
    · have ends : (token :: rest).getLast? = rest.getLast? := by
        rw [← List.singleton_append, List.getLast?_append_of_ne_nil _ nothing]
      rw [ends] at solid stays ⊢
      change _ ∨ bracketsOpen (token.depthAfter depth) rest ≠ 0 at stays
      have behind (more : List Token) (alike : BreaksAlike (token :: rest) more other) : BreaksAlike rest more other :=
        fun part inside => alike part (inside.trans (List.suffix_cons token rest))
      have here (more : List Token) (alike : BreaksAlike (token :: rest) more other) :
          carriesOn 0 (rest ++ more) = carriesOn 0 (rest ++ other) := alike rest (List.suffix_cons token rest) nothing
      by_cases semicolon : (decide (depth = 0) && token.isPunct ';') = true
      · rw [depth_after_semicolon depth token (Bool.and_eq_true_iff.mp semicolon).2] at stays ⊢
        obtain ⟨others, front, last, typed', final, read⟩ := ih [] false depth nothing solid stays
        refine ⟨finish statement others, front, last, typed', final, fun more alike => ?_⟩
        rw [collect, if_pos semicolon, read more (behind more alike), finish_append]
      · by_cases lineBreak : token.isLineBreak = true
        · rw [depth_after_break depth token lineBreak] at stays ⊢
          by_cases onward : (decide (0 < depth) || (typed && carriesOn 0 (rest ++ other))) = true
          · obtain ⟨others, front, last, typed', final, read⟩ := ih (statement ++ [' ']) typed depth nothing solid stays
            refine ⟨others, front, last, typed', final, fun more alike => ?_⟩
            rw [collect, if_neg semicolon, if_pos lineBreak, here more alike, if_pos onward,
              read more (behind more alike)]
          · obtain ⟨others, front, last, typed', final, read⟩ :=
              ih (Text.afterLast '\n' token.text) false depth nothing solid stays
            refine ⟨finish statement others, front, last, typed', final, fun more alike => ?_⟩
            rw [collect, if_neg semicolon, if_pos lineBreak, here more alike, if_neg onward,
              read more (behind more alike), finish_append]
        · obtain ⟨others, front, last, typed', final, read⟩ := ih (statement ++ token.text)
            (typed || (depth = 0 && token.isPunct ':')) (token.depthAfter depth) nothing solid stays
          refine ⟨others, front, last, typed', final, fun more alike => ?_⟩
          rw [collect, if_neg semicolon, if_neg lineBreak, read more (behind more alike)]

-- Where tokens leave a bracket open, what stands behind them goes on with the statement that holds the bracket.
theorem collect_open (statement : Text) (typed : Bool) (depth : Nat) (tokens : List Token)
    (ended : endsClause tokens = true) (opened : 0 < bracketsOpen depth tokens) :
    ∃ others last typed', last.isBlank = false ∧
      ∀ more, collect statement typed depth (tokens ++ more) =
        others ++ collect last typed' (bracketsOpen depth tokens) more := by
  obtain ⟨semicolon, ends, punct⟩ := (Option.any_eq_true _ _).mp ended
  obtain ⟨kind, first⟩ := Bool.and_eq_true_iff.mp punct
  have kind : semicolon.kind = .punct := of_decide_eq_true kind
  have filled : tokens ≠ [] := by
    rintro rfl
    contradiction
  obtain ⟨others, front, last, typed', final, read⟩ := collect_on statement typed depth tokens [] filled
    (by simp [ends, Token.isSpace, kind]) (.inr (by omega))
  obtain rfl : semicolon = last := Option.some.inj (ends.symm.trans final)
  refine ⟨others, front ++ semicolon.text, typed', filled_append _ _ (.inr ?_), fun more => read more ?_⟩
  · obtain ⟨rest, text⟩ := List.head?_eq_some_iff.mp (of_decide_eq_true first)
    rw [text, Text.isBlank, List.all_cons, Bool.and_eq_false_iff]
    exact .inl (by decide)
  · rintro rest ⟨before, rfl⟩ more
    have behind := ends_clause_suffix before rest more ended
    rw [carries_on_append 0 rest _ behind, carries_on_append 0 rest _ behind]

end Statement

theorem statements_append (t x : Text) (ended : endsClause (tokenize t) = true)
    (closed : bracketsOpen 0 (tokenize t) = 0) : statements (t ++ x) = statements t ++ statements x := by
  rw [statements, (tokens_append t x ended).1, Statement.collect_append _ _ _ _ _ ended closed, Statement.collect_moved]
  rfl

-- Where a text leaves a bracket open, its last statement takes all that follows and leaves no bracket of its own open.
theorem statements_within (t x : Text) (ended : endsClause (tokenize t) = true)
    (opened : 0 < bracketsOpen 0 (tokenize t)) (balanced : Balanced (tokenize x)) :
    ∃ front last, statements t = front ++ [last] ∧
      statements (t ++ x) = front ++ [last ++ Statement.joined (tokenize x)] := by
  obtain ⟨front, last, typed, solid, read⟩ := Statement.collect_open [] false 0 _ ended opened
  have alone : statements t = front ++ [last] := by
    have split := read []
    rw [List.append_nil, Statement.collect, Statement.finish, solid, if_neg Bool.false_ne_true] at split
    exact split
  have held : ∀ before after, tokenize x = before ++ after →
      0 < bracketsOpen (bracketsOpen 0 (tokenize t)) before := by
    intro before after split
    rw [split] at balanced
    exact balanced.held before after _ opened
  refine ⟨front, last, alone, ?_⟩
  rw [statements, (tokens_append t x ended).1, read, Statement.collect_moved, Statement.collect_held _ _ _ _ held,
    Statement.finish, if_neg]
  rw [Statement.filled_append _ _ (.inl solid)]
  exact Bool.false_ne_true

-- A stretch of a body that ends in a semicolon and closes the brackets it opens, such as a line `name : type;` with
-- the line break in front of it.
structure BodyClause (text : Text) : Prop where
  ended : endsClause (tokenize text) = true
  balanced : Balanced (tokenize text)

theorem statements_of_clauses (clauses : List Text) (x : Text) (each : ∀ text ∈ clauses, BodyClause text) :
    statements (clauses.flatten ++ x) = clauses.flatMap statements ++ statements x := by
  induction clauses with
  | nil => rfl
  | cons text clauses ih =>
    obtain ⟨first, others⟩ := List.forall_mem_cons.mp each
    rw [List.flatten_cons, List.append_assoc, statements_append text _ first.ended (first.balanced 0), ih others,
      List.flatMap_cons, List.append_assoc]

theorem balanced_of_clauses (clauses : List Text) (x : Text) (each : ∀ text ∈ clauses, BodyClause text)
    (behind : Balanced (tokenize x)) : Balanced (tokenize (clauses.flatten ++ x)) := by
  induction clauses with
  | nil => exact behind
  | cons text clauses ih =>
    obtain ⟨first, others⟩ := List.forall_mem_cons.mp each
    rw [List.flatten_cons, List.append_assoc, (tokens_append text _ first.ended).1]
    apply balanced_append _ _ first.balanced
    intro depth
    rw [brackets_open_moved]
    exact ih others depth

theorem statements_of_blanks (t : Text) (blanks : ∀ c ∈ t, isBlank c = true) :
    statements t = [] ∧ Balanced (tokenize t) := by
  have white (u : Text) (inside : u ⊆ t) : u.isBlank = true :=
    List.all_eq_true.mpr fun c member => blank_white c (blanks c (inside member))
  rcases tokens_of_blanks t blanks with rfl | alone
  · rw [statements, tokenize_nil]
    exact ⟨rfl, fun _ => rfl⟩
  · rw [statements, alone]
    refine ⟨?_, fun depth => ?_⟩
    · have indent : Text.afterLast '\n' t ⊆ t := by
        intro c member
        exact List.mem_reverse.mp ((List.takeWhile_sublist _).subset (List.mem_reverse.mp member))
      rw [Statement.collect, if_neg (by simp [Token.isPunct])]
      split
      · simp only [Statement.collect, Statement.finish, white [] (by simp), white _ indent, if_true]
        split <;> rfl
      · simp [Statement.collect, Statement.finish, white t (fun c member => member)]
    · simp [bracketsOpen, Token.depthAfter, Token.isOpener, Token.isCloser]

theorem ends_clause_behind (token : Token) (bytes : Nat) (tokens : List Token) (filled : tokens ≠ []) :
    endsClause (token :: tokens.map (Token.moved bytes)) = endsClause tokens := by
  obtain ⟨before, last, rfl⟩ := (List.eq_nil_or_concat tokens).resolve_left filled
  have same : (last.moved bytes).isPunct ';' = last.isPunct ';' := rfl
  simp [endsClause, List.getLast?_cons, same]

-- A semicolon at the end of a text without quotes, annotations and comments is a token of its own.
theorem ends_clause_plain (line : Text) (last : line.getLast? = some ';')
    (plain : ∀ c ∈ line, c ≠ '\'' ∧ c ≠ '@' ∧ c ≠ '/') : endsClause (tokenize line) = true := by
  induction line using text_induction with
  | nil => contradiction
  | token c front rest kind cut ih =>
    rw [tokenize_of_cut c front rest kind cut]
    by_cases nothing : rest = []
    · subst nothing
      obtain ⟨quote, tag, slash⟩ := plain c List.mem_cons_self
      have semicolon : ';' ∈ c :: (front ++ []) := List.mem_of_getLast? last
      rw [List.append_nil] at semicolon cut
      rw [tokenize_nil, List.map_nil]
      generalize ends : ([] : Text) = left at cut
      cases cut with
      | blank _ _ blank =>
        have passed := List.dropWhile_eq_nil_iff.mp ends.symm
        have blanks : ∀ d ∈ c :: front, isBlank d = true := List.forall_mem_cons.mpr ⟨blank, passed⟩
        exact absurd (blanks ';' semicolon) (by decide)
      | comment => exact absurd rfl slash
      | slash => exact absurd rfl slash
      | tag => exact absurd rfl tag
      | literal => exact absurd rfl quote
      | word _ _ word =>
        have passed := List.dropWhile_eq_nil_iff.mp ends.symm
        have letters : ∀ d ∈ c :: front, isWordChar d = true := List.forall_mem_cons.mpr ⟨word, passed⟩
        exact absurd (letters ';' semicolon) (by decide)
      | plain =>
        rw [← ends, List.mem_singleton] at semicolon
        rw [← ends, ← semicolon]
        decide
    · have behind : rest.getLast? = some ';' := by
        rwa [← List.cons_append, List.getLast?_append_of_ne_nil _ nothing] at last
      have further := ih behind fun d member => plain d (by simp [member])
      rwa [ends_clause_behind _ _ _ (mt (tokenize_eq_nil_iff rest).mp nothing)]

/-- A malformed line between clauses. Without the line, each clause says what it says by itself. With the line they do
too, and the line as well, as long as it closes its brackets. Otherwise the clauses behind it are no statements any more
and stand in the line's last one, with a blank for each line break. -/
theorem malformed_line_outcome (types : TypeTable) (file : SourceFile) (clauses others : List Text) (line tail : Text)
    (each : ∀ text ∈ clauses ++ others, BodyClause text) (last : line.getLast? = some ';')
    (plain : ∀ c ∈ line, c ≠ '\'' ∧ c ≠ '@' ∧ c ≠ '/') (blanks : ∀ c ∈ tail, isBlank c = true)
    (fragment without : Fragment) (name : without.name = fragment.name)
    (body : fragment.body? = some (clauses.flatten ++ (line ++ (others.flatten ++ tail))))
    (rest : without.body? = some (clauses.flatten ++ (others.flatten ++ tail))) :
    let said := fun text => (statements text).map (Yield.ofStatement types file fragment.name)
    without.yields types file = clauses.flatMap said ++ others.flatMap said ∧
      (bracketsOpen 0 (tokenize line) = 0 →
        fragment.yields types file = clauses.flatMap said ++ (said line ++ others.flatMap said)) ∧
      (0 < bracketsOpen 0 (tokenize line) → ∃ front last, statements line = front ++ [last] ∧
        fragment.statements = clauses.flatMap statements ++
          (front ++ [last ++ Statement.joined (tokenize (others.flatten ++ tail))])) := by
  intro said
  obtain ⟨before, behind⟩ := List.forall_mem_append.mp each
  have ended := ends_clause_plain line last plain
  obtain ⟨nothing, level⟩ := statements_of_blanks tail blanks
  have following : statements (others.flatten ++ tail) = others.flatMap statements := by
    rw [statements_of_clauses others tail behind, nothing, List.append_nil]
  have each (texts : List Text) :
      (texts.flatMap statements).map (Yield.ofStatement types file fragment.name) = texts.flatMap said :=
    List.map_flatMap
  refine ⟨?_, fun closed => ?_, fun opened => ?_⟩
  · rw [Fragment.yields, Fragment.statements, rest, name, Option.getD_some, statements_of_clauses _ _ before, following,
      List.map_append, each, each]
  · rw [Fragment.yields, Fragment.statements, body, Option.getD_some, statements_of_clauses _ _ before,
      statements_append line _ ended closed, following, List.map_append, List.map_append, each, each]
  · obtain ⟨front, end_, alone, taken⟩ :=
      statements_within line _ ended opened (balanced_of_clauses others tail behind level)
    refine ⟨front, end_, alone, ?_⟩
    rw [Fragment.statements, body, Option.getD_some, statements_of_clauses _ _ before, taken]

-- A shelf with a line between two elements.
def shelfWith (line : Text) : Fragment :=
  ⟨.entity, "Shelf", "entity Shelf \x7b\n  size : Decimal(9,2);" ++ line ++ "\n  book : Book;\n\x7d"⟩

def shelfFile : SourceFile := ⟨none, [], none, [], []⟩

theorem shelf_clauses :
    ∀ text ∈ (["\n  size : Decimal(9,2);"] ++ ["\n  book : Book;"] : List Text), BodyClause text := by
  intro text member
  rcases List.mem_pair.mp member with rfl | rfl
  · exact ⟨by decide +kernel, by decide +kernel⟩
  · exact ⟨by decide +kernel, by decide +kernel⟩

-- A line with a closing bracket too many, and one with an opening bracket too many.
theorem shelf_line_outcomes :
    (shelfWith "\n  row) : [3;]4;").yields {} shelfFile =
        (["  size : Decimal(9,2)", "  row) : [3;]4", "  book : Book"] : List Text).map
          (Yield.ofStatement {} shelfFile "Shelf") ∧
      (shelfWith "\n  row : String(10;").statements =
        (["  size : Decimal(9,2)", "  row : String(10; book : Book; "] : List Text) := by
  have outcome (line : Text) (last : line.getLast? = some ';') (plain : ∀ c ∈ line, c ≠ '\'' ∧ c ≠ '@' ∧ c ≠ '/')
      (body : (shelfWith line).body? = some ("\n  size : Decimal(9,2);" ++ (line ++ ("\n  book : Book;" ++ "\n")))) :=
    malformed_line_outcome {} shelfFile ["\n  size : Decimal(9,2);"] ["\n  book : Book;"] line "\n" shelf_clauses last
      plain (List.all_eq_true.mp (by decide)) (shelfWith line) (shelfWith []) rfl body (by decide +kernel)
  constructor
  · obtain ⟨_, apart, _⟩ := outcome "\n  row) : [3;]4;" (by decide) (List.all_iff_forall_prop.mp (by decide))
      (by decide +kernel)
    have texts : ["\n  size : Decimal(9,2);".toList].flatMap statements ++ (statements "\n  row) : [3;]4;" ++
        ["\n  book : Book;".toList].flatMap statements) =
        (["  size : Decimal(9,2)", "  row) : [3;]4", "  book : Book"] : List Text) := by
      decide +kernel
    rw [apart (by decide +kernel), ← texts]
    simp only [List.flatMap_singleton, List.map_append]
    rfl
  · obtain ⟨_, _, within⟩ := outcome "\n  row : String(10;" (by decide) (List.all_iff_forall_prop.mp (by decide))
      (by decide +kernel)
    obtain ⟨front, last, alone, taken⟩ := within (by decide +kernel)
    have single : statements "\n  row : String(10;" = [] ++ ["  row : String(10;".toList] := by decide +kernel
    obtain ⟨rfl, same⟩ := List.append_inj' (alone.symm.trans single) rfl
    obtain rfl := List.singleton_inj.mp same
    rw [taken]
    decide +kernel

theorem open_bracket_takes_clauses :
    ¬ ∀ (types : TypeTable) (file : SourceFile) (clauses others : List Text) (line tail : Text)
        (fragment : Fragment), (∀ text ∈ clauses ++ others, BodyClause text) → line.getLast? = some ';' →
      (∀ c ∈ line, c ∉ ['\n', '\x7b', '\x7d', '\'', '@', '/']) → (∀ c ∈ tail, isBlank c = true) →
      fragment.body? = some (clauses.flatten ++ ('\n' :: line ++ (others.flatten ++ tail))) →
        ∀ text ∈ others, ∀ member ∈ ((statements text).map (Yield.ofStatement types file fragment.name)).filterMap
          Yield.member, member ∈ (fragment.render types file).entity.members := by
  intro always
  have kept := always {} shelfFile ["\n  size : Decimal(9,2);"] ["\n  book : Book;"] "  row : String(10;" "\n"
    (shelfWith "\n  row : String(10;") shelf_clauses (by decide) (List.all_iff_forall_prop.mp (by decide))
    (List.all_eq_true.mp (by decide)) (by decide +kernel)
    "\n  book : Book;" (List.mem_singleton_self _) (.typed ⟨"book", "Book", "Book", false⟩) (by decide +kernel)
  exact absurd kept (by decide +kernel)

end SchemaDiagram
