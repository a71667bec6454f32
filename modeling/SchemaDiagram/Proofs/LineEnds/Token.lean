import Mathlib.Data.List.Forall2
import SchemaDiagram.Proofs.LineEnds.Text
import SchemaDiagram.Proofs.Words

/-!
Tokens of a text with and without its CRs. No token begins or ends between a CR and its LF, so that the tokens are
the same but for the CRs inside of them.
-/

set_option autoImplicit false

namespace SchemaDiagram

namespace Text

-- What is left of a text when the part in front, taken away, leaves no LF without its CR.
def CleanCut (t rest : Text) : Prop := ∃ front, front ++ rest = t ∧ pairedReturns front = true

namespace CleanCut

theorem refl (t : Text) : CleanCut t t := ⟨[], rfl, rfl⟩

theorem whole (t : Text) (paired : pairedReturns t = true) : CleanCut t [] := ⟨t, List.append_nil t, paired⟩

theorem tail (c : Char) (rest : Text) (other : c ≠ '\r') : CleanCut (c :: rest) rest :=
  ⟨[c], rfl, by rw [paired_other c [] other]; rfl⟩

theorem trans {a b c : Text} (first : CleanCut a b) (second : CleanCut b c) : CleanCut a c := by
  obtain ⟨front, rfl, paired⟩ := first
  obtain ⟨middle, rfl, further⟩ := second
  exact ⟨front ++ middle, List.append_assoc _ _ _, paired_append front middle paired further⟩

theorem drop_while (test : Char → Bool) (alike : test '\r' = test '\n') (t : Text) (paired : pairedReturns t = true) :
    CleanCut t (t.dropWhile test) :=
  ⟨t.takeWhile test, List.takeWhile_append_dropWhile, paired_take_while test alike t paired⟩

theorem drop_one (t : Text) (first : t.head? ≠ some '\r') : CleanCut t (t.drop 1) := by
  cases t with
  | nil => exact refl []
  | cons c rest => exact tail c rest fun same => first (same ▸ rfl)

-- The LF behind a CR goes with it.
theorem ending {behind rest : Text} (cut : CleanCut ('\n' :: behind) rest) (left : rest <:+ behind) :
    CleanCut ('\r' :: '\n' :: behind) rest := by
  obtain ⟨front, split, paired⟩ := cut
  cases front with
  | nil =>
    have shorter := left.length_le
    rw [← List.nil_append rest, split, List.length_cons] at shorter
    omega
  | cons c front =>
    obtain ⟨rfl, _⟩ := List.cons.inj split
    exact ⟨'\r' :: '\n' :: front, congrArg ('\r' :: ·) split, paired⟩

theorem rest_paired {t rest : Text} (cut : CleanCut t rest) (paired : pairedReturns t = true) :
    pairedReturns rest = true := by
  obtain ⟨front, split, _⟩ := cut
  exact paired_returns_suffix t rest ⟨front, split⟩ paired

end CleanCut

theorem lexeme_without_returns (t rest : Text) (left : rest <:+ t) :
    Scan.lexeme (withoutReturns t) (withoutReturns rest) = withoutReturns (Scan.lexeme t rest) := by
  obtain ⟨front, split⟩ := left
  rw [Scan.lexeme_of_split t front rest split]
  apply Scan.lexeme_of_split
  rw [← without_returns_append, split]

theorem drop_one_without_returns (t : Text) (first : t.head? ≠ some '\r') :
    (withoutReturns t).drop 1 = withoutReturns (t.drop 1) := by
  cases t with
  | nil => rfl
  | cons c rest =>
    rw [without_returns_other rest c fun same => first (same ▸ rfl)]
    rfl

end Text

namespace Scan

open Text

-- What a scan leaves is left of the text without its CRs as well, and the cut is clean.
structure Alike (scan : Text → Text) (t : Text) : Prop where
  same : scan (withoutReturns t) = withoutReturns (scan t)
  clean : CleanCut t (scan t)

namespace Alike

variable {scan next : Text → Text} {t : Text}

-- A scan of what another has left.
theorem followed (alike : Alike scan t) (further : Alike next (scan t)) : Alike (fun t => next (scan t)) t := by
  refine ⟨?_, alike.clean.trans further.clean⟩
  rw [alike.same, further.same]

-- A scan that passes its first character.
theorem passing (c : Char) (apart : c ≠ '\r') (step : ∀ t, scan (c :: t) = next t) (alike : Alike next t) :
    Alike scan (c :: t) := by
  refine ⟨?_, ?_⟩
  · rw [without_returns_other t c apart, step, step, alike.same]
  · rw [step]
    exact (CleanCut.tail c t apart).trans alike.clean

end Alike

theorem drop_while_alike (test : Char → Bool) (alike : test '\r' = test '\n') (t : Text)
    (paired : pairedReturns t = true) : Alike (List.dropWhile test) t :=
  ⟨drop_while_without_returns test alike t paired, CleanCut.drop_while test alike t paired⟩

theorem drop_one_alike (t : Text) (first : t.head? ≠ some '\r') : Alike (List.drop 1) t :=
  ⟨drop_one_without_returns t first, CleanCut.drop_one t first⟩

theorem drop_while_head (test : Char → Bool) (stays : test '\r' = true) (t : Text) :
    (t.dropWhile test).head? ≠ some '\r' := by
  intro same
  have first := List.head?_dropWhile_not test t
  rw [same] at first
  exact absurd (stays.symm.trans first) (by decide)

theorem after_line_of_paired (t : Text) (paired : pairedReturns t = true) :
    afterLine? t = some (t.dropWhile fun c => c ≠ '\n' && c ≠ '\r') := by
  cases found : afterLine? t with
  | none => exact absurd found (after_line_paired t paired)
  | some rest =>
    unfold afterLine? at found
    split at found
    · rename_i same
      rw [same, found]
    · contradiction
    · rw [found]

theorem after_block_goes_on (c d : Char) (rest : Text) (unclosed : ¬ (c = '*' ∧ d = '/'))
    (paired : pairedReturns (d :: rest) = true) :
    afterBlock (c :: withoutReturns (d :: rest)) = afterBlock (withoutReturns (d :: rest)) := by
  by_cases same : d = '\r'
  · subst same
    obtain ⟨behind, rfl, _⟩ := paired_return rest paired
    rw [without_returns_return, without_returns_feed behind, afterBlock]
    exact if_neg fun both => absurd both.2 (by decide)
  · rw [without_returns_other rest d same, afterBlock, if_neg unclosed]

theorem after_block_alike (t : Text) (paired : pairedReturns t = true) : Alike afterBlock t := by
  fun_induction afterBlock t with
  | case1 => exact ⟨rfl, CleanCut.refl []⟩
  | case2 c =>
    have apart : c ≠ '\r' := by
      rintro rfl
      contradiction
    refine ⟨?_, CleanCut.whole [c] paired⟩
    rw [without_returns_other [] c apart]
    rfl
  | case3 c d rest closes =>
    obtain ⟨rfl, rfl⟩ := closes
    exact ⟨rfl, '*' :: ['/'], rfl, rfl⟩
  | case4 c d rest goesOn ih =>
    have step : afterBlock (c :: d :: rest) = afterBlock (d :: rest) := by rw [afterBlock, if_neg goesOn]
    by_cases same : c = '\r'
    · subst same
      obtain ⟨behind, split, further⟩ := paired_return (d :: rest) paired
      obtain ⟨rfl, rfl⟩ := List.cons.inj split
      have inner := ih further
      refine ⟨?_, ?_⟩
      · rw [step, without_returns_return, inner.same]
      · rw [step]
        exact inner.clean.ending (after_block_tail '\n' rest)
    · rw [paired_other c _ same] at paired
      have inner := ih paired
      refine ⟨?_, ?_⟩
      · rw [step, without_returns_other _ c same, after_block_goes_on c d rest goesOn paired, inner.same]
      · rw [step]
        exact (CleanCut.tail c _ same).trans inner.clean

theorem after_quote_alike (t : Text) (paired : pairedReturns t = true) : Alike afterQuote t :=
  (drop_while_alike (· ≠ '\'') (by decide) t paired).followed (drop_one_alike _ (drop_while_head _ (by decide) t))

/-! The inside of a group, by the first character. -/

section

variable (c : Char) (inner : Text)

theorem inside_closes (closing : closes c = true) : (afterInside (c :: inner)).1 = c :: inner := by
  rw [afterInside, if_pos closing]

theorem inside_opens (plain : closes c = false) (opening : opens c = true) :
    (afterInside (c :: inner)).1 = (afterInside (afterGroup inner)).1 := by
  rw [afterInside, if_neg (by simp [plain]), if_pos opening]
  rfl

theorem inside_quote (plain : closes c = false) (unopened : opens c = false) (quote : c = '\'') :
    (afterInside (c :: inner)).1 = (afterInside (afterQuote inner)).1 := by
  rw [afterInside, if_neg (by simp [plain]), if_neg (by simp [unopened]), if_pos quote]

theorem inside_other (plain : closes c = false) (unopened : opens c = false) (other : c ≠ '\'') :
    (afterInside (c :: inner)).1 = (afterInside inner).1 := by
  rw [afterInside, if_neg (by simp [plain]), if_neg (by simp [unopened]), if_neg other]

end

-- The inside of a group begins with the bracket that closes it, with a group or a literal in it, or with a character that
-- is passed over.
theorem inside_induction {motive : Text → Prop} (nil : motive [])
    (closing : ∀ c inner, closes c = true → motive (c :: inner))
    (group : ∀ c inner, closes c = false → opens c = true → motive inner → motive (afterGroup inner) →
      motive (c :: inner))
    (literal : ∀ inner, motive (afterQuote inner) → motive ('\'' :: inner))
    (other : ∀ c inner, closes c = false → opens c = false → c ≠ '\'' → motive inner → motive (c :: inner))
    (t : Text) : motive t := by
  induction length : t.length using Nat.strong_induction_on generalizing t with
  | _ n ih =>
    subst length
    cases t with
    | nil => exact nil
    | cons c inner =>
      have behind := ih _ (Nat.lt_succ_self _) inner rfl
      cases closed : closes c with
      | true => exact closing c inner closed
      | false =>
        cases opened : opens c with
        | true =>
          have left := (after_group_suffix inner).length_le
          exact group c inner closed opened behind (ih _ (Nat.lt_succ_of_le left) _ rfl)
        | false =>
          by_cases quote : c = '\''
          · subst quote
            have left := (after_quote_suffix inner).length_le
            exact literal inner (ih _ (Nat.lt_succ_of_le left) _ rfl)
          · exact other c inner closed opened quote behind

theorem inside_stops (t : Text) : (afterInside t).1.head?.all closes = true := by
  induction t using inside_induction with
  | nil => rw [afterInside]; rfl
  | closing c inner closed =>
    rw [inside_closes c inner closed]
    exact closed
  | group c inner closed opened _ behind =>
    rw [inside_opens c inner closed opened]
    exact behind
  | literal inner behind =>
    rw [inside_quote '\'' inner rfl rfl rfl]
    exact behind
  | other c inner closed opened quote behind =>
    rw [inside_other c inner closed opened quote]
    exact behind

theorem inside_head (t : Text) : (afterInside t).1.head? ≠ some '\r' := by
  intro same
  have stops := inside_stops t
  rw [same] at stops
  contradiction

theorem after_group_of_inside (t : Text) (alike : Alike (fun t => (afterInside t).1) t) : Alike afterGroup t :=
  alike.followed (drop_one_alike _ (inside_head t))

theorem inside_alike (t : Text) (paired : pairedReturns t = true) : Alike (fun t => (afterInside t).1) t := by
  induction length : t.length using Nat.strong_induction_on generalizing t with
  | _ n ih =>
    subst length
    cases t, paired using paired_induction with
    | nil =>
      have nothing : (afterInside []).1 = [] := by rw [afterInside]
      refine ⟨?_, ?_⟩
      · rw [nothing]
        exact nothing
      · rw [nothing]
        exact CleanCut.refl []
    | ending rest paired _ _ =>
      have inner := ih _ (Nat.lt_succ_self _) ('\n' :: rest) paired rfl
      have step := inside_other '\r' ('\n' :: rest) (by decide) (by decide) (by decide)
      have further := inside_other '\n' rest (by decide) (by decide) (by decide)
      refine ⟨?_, ?_⟩
      · rw [step, without_returns_return]
        exact inner.same
      · rw [step]
        refine inner.clean.ending ?_
        rw [further]
        exact (afterInside rest).2
    | other c inner apart paired _ _ =>
      -- Behind the first character a scan goes on, and what it leaves is scanned in turn.
      have after (scan : Text → Text) (alike : Alike scan inner) (left : (scan inner).length ≤ inner.length)
          (step : ∀ inner, (afterInside (c :: inner)).1 = (afterInside (scan inner)).1) :
          Alike (fun t => (afterInside t).1) (c :: inner) :=
        (alike.followed
          (ih _ (Nat.lt_succ_of_le left) (scan inner) (alike.clean.rest_paired paired) rfl)).passing c apart step
      cases closing : closes c with
      | true =>
        refine ⟨?_, ?_⟩
        · rw [without_returns_other inner c apart, inside_closes c _ closing, inside_closes c _ closing,
            without_returns_other inner c apart]
        · rw [inside_closes c _ closing]
          exact CleanCut.refl _
      | false =>
        cases opening : opens c with
        | true =>
          have group := after_group_of_inside inner (ih _ (Nat.lt_succ_self _) inner paired rfl)
          exact after afterGroup group (after_group_suffix inner).length_le fun inner =>
            inside_opens c inner closing opening
        | false =>
          by_cases quote : c = '\''
          · exact after afterQuote (after_quote_alike inner paired) (after_quote_suffix inner).length_le fun inner =>
              inside_quote c inner closing opening quote
          · exact after id ⟨rfl, CleanCut.refl inner⟩ (Nat.le_refl _) fun inner =>
              inside_other c inner closing opening quote

theorem after_group_alike (t : Text) (paired : pairedReturns t = true) : Alike afterGroup t :=
  after_group_of_inside t (inside_alike t paired)

-- The same of a scan that may find nothing.
structure AlikeIf (scan : Text → Option Text) (t : Text) : Prop where
  same : scan (withoutReturns t) = (scan t).map withoutReturns
  clean : ∀ rest, scan t = some rest → CleanCut t rest

namespace AlikeIf

variable {scan next : Text → Option Text} {t : Text}

theorem nothing (t : Text) : AlikeIf (fun _ => none) t := ⟨rfl, fun _ found => by cases found⟩

theorem always {left : Text → Text} (alike : Alike left t) : AlikeIf (fun t => some (left t)) t := by
  refine ⟨congrArg some alike.same, ?_⟩
  intro rest found
  cases found
  exact alike.clean

theorem behind {first : Text → Text} (alike : Alike first t) (further : AlikeIf next (first t)) :
    AlikeIf (fun t => next (first t)) t := by
  refine ⟨?_, fun rest found => alike.clean.trans (further.clean rest found)⟩
  rw [alike.same, further.same]

theorem passing (c : Char) (apart : c ≠ '\r') (step : ∀ t, scan (c :: t) = next t) (alike : AlikeIf next t) :
    AlikeIf scan (c :: t) := by
  refine ⟨?_, ?_⟩
  · rw [without_returns_other t c apart, step, step, alike.same]
  · intro rest found
    rw [step] at found
    exact (CleanCut.tail c t apart).trans (alike.clean rest found)

end AlikeIf

theorem after_line_alike (t : Text) (paired : pairedReturns t = true) : AlikeIf afterLine? t := by
  have line := AlikeIf.always (drop_while_alike (fun c => c ≠ '\n' && c ≠ '\r') (by decide) t paired)
  refine ⟨?_, ?_⟩
  · rw [after_line_of_paired _ (paired_free _ (return_not_left t)), after_line_of_paired t paired]
    exact line.same
  · rw [after_line_of_paired t paired]
    exact line.clean

-- The value of an annotation, from its first character on.
def ofValue? : Text → Option Text
  | [] => none
  | c :: value =>
    if c = '\'' then some (afterQuote value)
    else if opens c then some (afterGroup value)
    else if isValueChar c then some (value.dropWhile isValueChar)
    else none

def ofColon? : Text → Option Text
  | ':' :: rest => ofValue? (rest.dropWhile isBlank)
  | _ => none

theorem after_value_eq (t : Text) : afterValue? t = ofColon? (t.dropWhile isBlank) := by
  rw [afterValue?]
  generalize t.dropWhile isBlank = behind
  fun_cases ofColon? behind with
  | case1 rest =>
    cases value : rest.dropWhile isBlank <;> simp only [value] <;> rfl
  | case2 behind other =>
    split
    · exact absurd rfl (other _)
    · rfl

theorem of_value_alike (t : Text) (first : t.head? ≠ some '\r') (paired : pairedReturns t = true) :
    AlikeIf ofValue? t := by
  cases t with
  | nil => exact ⟨rfl, fun _ found => by cases found⟩
  | cons c value =>
    have apart : c ≠ '\r' := fun same => first (same ▸ rfl)
    rw [paired_other c value apart] at paired
    by_cases quote : c = '\''
    · exact (AlikeIf.always (after_quote_alike value paired)).passing c apart fun value => by
        rw [ofValue?, if_pos quote]
    · cases opening : opens c with
      | true =>
        exact (AlikeIf.always (after_group_alike value paired)).passing c apart fun value => by
          rw [ofValue?, if_neg quote, if_pos opening]
      | false =>
        have unopened : ¬ opens c = true := by simp [opening]
        cases word : isValueChar c with
        | true =>
          exact (AlikeIf.always (drop_while_alike isValueChar (by decide) value paired)).passing c apart fun value => by
            rw [ofValue?, if_neg quote, if_neg unopened, if_pos word]
        | false =>
          exact (AlikeIf.nothing value).passing c apart fun value => by
            rw [ofValue?, if_neg quote, if_neg unopened, if_neg (by simp [word])]

theorem of_colon_alike (t : Text) (first : t.head? ≠ some '\r') (paired : pairedReturns t = true) :
    AlikeIf ofColon? t := by
  cases t with
  | nil => exact ⟨rfl, fun _ found => by cases found⟩
  | cons c rest =>
    have apart : c ≠ '\r' := fun same => first (same ▸ rfl)
    rw [paired_other c rest apart] at paired
    by_cases colon : c = ':'
    · subst colon
      have value := of_value_alike (rest.dropWhile isBlank) (drop_while_head isBlank (by decide) rest)
        (paired_drop_while isBlank rest paired)
      exact (AlikeIf.behind (drop_while_alike isBlank (by decide) rest paired) value).passing ':' apart fun _ => rfl
    · refine (AlikeIf.nothing rest).passing c apart fun rest => ?_
      unfold ofColon?
      split
      · rename_i same
        exact absurd (List.cons.inj same).1 colon
      · rfl

theorem after_value_alike (t : Text) (paired : pairedReturns t = true) : AlikeIf afterValue? t := by
  rw [funext after_value_eq]
  exact AlikeIf.behind (drop_while_alike isBlank (by decide) t paired)
    (of_colon_alike _ (drop_while_head isBlank (by decide) t) (paired_drop_while isBlank t paired))

theorem after_name_alike (t : Text) (paired : pairedReturns t = true) : Alike afterName t := by
  have cut := CleanCut.drop_while isWordChar (by decide) t paired
  have value := after_value_alike (t.dropWhile isWordChar) (paired_drop_while isWordChar t paired)
  refine ⟨?_, ?_⟩
  · rw [afterName, afterName, drop_while_without_returns isWordChar (by decide) t paired, value.same]
    cases afterValue? (t.dropWhile isWordChar) <;> rfl
  · rw [afterName]
    cases found : afterValue? (t.dropWhile isWordChar) with
    | none => exact cut
    | some rest => exact cut.trans (value.clean rest found)

theorem after_tag_eq (t : Text) : afterTag t = if t.head?.any opens then afterGroup (t.drop 1) else afterName t := by
  cases t with
  | nil => rfl
  | cons c rest => rfl

theorem after_tag_alike (t : Text) (paired : pairedReturns t = true) : Alike afterTag t := by
  have first := head_without_returns opens (by decide) t paired
  cases opening : t.head?.any opens with
  | false =>
    have name := after_name_alike t paired
    rw [opening] at first
    refine ⟨?_, ?_⟩
    · rw [after_tag_eq, after_tag_eq, first, opening]
      exact name.same
    · rw [after_tag_eq, opening]
      exact name.clean
  | true =>
    have apart : t.head? ≠ some '\r' := by
      intro same
      rw [same] at opening
      contradiction
    have group := after_group_alike (t.drop 1) (paired_returns_suffix t _ (List.drop_suffix 1 t) paired)
    rw [opening] at first
    refine ⟨?_, ?_⟩
    · rw [after_tag_eq, after_tag_eq, first, opening, if_pos rfl, if_pos rfl, drop_one_without_returns t apart]
      exact group.same
    · rw [after_tag_eq, opening, if_pos rfl]
      exact (CleanCut.drop_one t apart).trans group.clean

theorem after_comment_alike (t : Text) (paired : pairedReturns t = true) : AlikeIf afterComment? t := by
  cases t, paired using paired_induction with
  | nil => exact ⟨rfl, fun _ found => by cases found⟩
  | ending rest _ _ _ => exact ⟨rfl, fun _ found => by cases found⟩
  | other c rest apart paired _ _ =>
    by_cases slash : c = '/'
    · subst slash
      exact (after_line_alike rest paired).passing '/' apart fun _ => rfl
    · by_cases star : c = '*'
      · subst star
        exact (AlikeIf.always (after_block_alike rest paired)).passing '*' apart fun _ => rfl
      · refine (AlikeIf.nothing rest).passing c apart fun rest => ?_
        unfold afterComment?
        split
        · rename_i same
          exact absurd (List.cons.inj same).1 slash
        · rename_i same
          exact absurd (List.cons.inj same).1 star
        · rfl

theorem cut_blank (c : Char) (t : Text) (blank : isBlank c = true) :
    cut c t = (.space, (c :: t).takeWhile isBlank, (c :: t).dropWhile isBlank) := by
  rw [cut, if_pos blank, List.takeWhile_cons_of_pos blank, List.dropWhile_cons_of_pos blank]

theorem cut_punct (c : Char) (t : Text) (punct : (cut c t).1 = .punct) :
    (cut c t).2.1 = [c] ∧ isBlank c = false := by
  cases blank : isBlank c with
  | true =>
    rw [cut_blank c t blank] at punct
    contradiction
  | false =>
    refine ⟨?_, rfl⟩
    unfold cut at punct ⊢
    rw [if_neg (by simp [blank])] at punct ⊢
    split
    · rename_i slash
      rw [if_pos slash] at punct
      split
      · rename_i found
        rw [found] at punct
        contradiction
      · rfl
    · rename_i slash
      rw [if_neg slash] at punct
      split
      · rename_i tag
        rw [if_pos tag] at punct
        contradiction
      · rename_i tag
        rw [if_neg tag] at punct
        split
        · rename_i quote
          rw [if_pos quote] at punct
          contradiction
        · rename_i quote
          rw [if_neg quote] at punct
          split
          · rename_i word
            rw [if_pos word] at punct
            contradiction
          · rfl

-- Words and single characters hold no CR.
theorem cut_solid (c : Char) (t : Text) (solid : (cut c t).1 = .word ∨ (cut c t).1 = .punct) :
    '\r' ∉ (cut c t).2.1 := by
  intro member
  rcases solid with word | punct
  · exact absurd (cut_word_chars c t word '\r' member) (by decide)
  · obtain ⟨single, blank⟩ := cut_punct c t punct
    rw [single, List.mem_singleton] at member
    rw [← member] at blank
    contradiction

-- The first token and what is left behind it, with the CRs of both taken away.
def bare (cut : TokenKind × Text × Text) : TokenKind × Text × Text :=
  (cut.1, withoutReturns cut.2.1, withoutReturns cut.2.2)

theorem cut_blank_alike (c d : Char) (t u : Text) (blank : isBlank c = true) (first : isBlank d = true)
    (same : withoutReturns (c :: t) = d :: u) (paired : pairedReturns (c :: t) = true) :
    cut d u = bare (cut c t) ∧ CleanCut (c :: t) (cut c t).2.2 := by
  rw [cut_blank c t blank, cut_blank d u first, ← same,
    take_while_without_returns isBlank (by decide) _ paired, drop_while_without_returns isBlank (by decide) _ paired]
  exact ⟨rfl, CleanCut.drop_while isBlank (by decide) _ paired⟩

-- A token that a scan ends.
theorem up_to_alike (kind : TokenKind) (c : Char) (t : Text) (apart : c ≠ '\r') (rest : Text) (cut : CleanCut t rest) :
    (kind, c :: lexeme (withoutReturns t) (withoutReturns rest), withoutReturns rest) =
        bare (kind, c :: lexeme t rest, rest) ∧
      CleanCut (c :: t) rest := by
  obtain ⟨front, split, paired⟩ := cut
  refine ⟨?_, (CleanCut.tail c t apart).trans ⟨front, split, paired⟩⟩
  rw [bare, without_returns_other _ c apart, lexeme_without_returns t rest ⟨front, split⟩]

theorem cut_other_alike (c : Char) (t : Text) (blank : isBlank c = false) (paired : pairedReturns t = true) :
    cut c (withoutReturns t) = bare (cut c t) ∧ CleanCut (c :: t) (cut c t).2.2 := by
  have apart : c ≠ '\r' := by
    rintro rfl
    contradiction
  have single : (.punct, [c], withoutReturns t) = bare (.punct, [c], t) := by
    rw [bare, without_returns_other [] c apart]
    rfl
  have unblank : ¬ isBlank c = true := by simp [blank]
  unfold cut
  rw [if_neg unblank, if_neg unblank]
  by_cases slash : c = '/'
  · rw [if_pos slash, if_pos slash]
    have comment := after_comment_alike t paired
    rw [comment.same]
    cases found : afterComment? t with
    | none => exact ⟨single, CleanCut.tail c t apart⟩
    | some rest => exact up_to_alike .comment c t apart rest (comment.clean rest found)
  · rw [if_neg slash, if_neg slash]
    by_cases tag : c = '@'
    · rw [if_pos tag, if_pos tag]
      have alike := after_tag_alike t paired
      rw [alike.same]
      exact up_to_alike .tag c t apart _ alike.clean
    · rw [if_neg tag, if_neg tag]
      by_cases quote : c = '\''
      · rw [if_pos quote, if_pos quote]
        have alike := after_quote_alike t paired
        rw [alike.same]
        exact up_to_alike .literal c t apart _ alike.clean
      · rw [if_neg quote, if_neg quote]
        cases word : isWordChar c with
        | true =>
          rw [if_pos rfl, if_pos rfl, take_while_without_returns isWordChar (by decide) t paired,
            drop_while_without_returns isWordChar (by decide) t paired]
          refine ⟨?_, (CleanCut.tail c t apart).trans (CleanCut.drop_while isWordChar (by decide) t paired)⟩
          rw [bare, without_returns_other _ c apart]
        | false =>
          rw [if_neg Bool.false_ne_true, if_neg Bool.false_ne_true]
          exact ⟨single, CleanCut.tail c t apart⟩

theorem cut_alike (c : Char) (t : Text) (paired : pairedReturns (c :: t) = true) :
    ∃ d u, withoutReturns (c :: t) = d :: u ∧ cut d u = bare (cut c t) ∧ CleanCut (c :: t) (cut c t).2.2 := by
  by_cases back : c = '\r'
  · subst back
    obtain ⟨behind, rfl, _⟩ := paired_return t paired
    have same : withoutReturns ('\r' :: '\n' :: behind) = '\n' :: withoutReturns behind := rfl
    exact ⟨'\n', withoutReturns behind, same,
      cut_blank_alike '\r' '\n' _ _ (by decide) (by decide) same paired⟩
  · have same := without_returns_other t c back
    refine ⟨c, withoutReturns t, same, ?_⟩
    cases blank : isBlank c with
    | true => exact cut_blank_alike c c t _ blank blank same paired
    | false => exact cut_other_alike c t blank ((paired_other c t back).symm.trans paired)

end Scan

open Text

-- A token and the same token without its CRs, wherever the two stand.
structure Token.Bare (token other : Token) : Prop where
  kind : other.kind = token.kind
  text : other.text = token.text.withoutReturns
  paired : pairedReturns token.text = true
  solid : token.kind = .word ∨ token.kind = .punct → '\r' ∉ token.text

-- The same of tokens of a text, with the places of both.
structure Token.Placed (whole : Text) (token other : Token) : Prop extends Token.Bare token other where
  start : Aligned whole token.start other.start

theorem tokens_placed (front t : Text) (first : pairedReturns front = true)
    (paired : pairedReturns (front ++ t) = true) :
    List.Forall₂ (Token.Placed (front ++ t)) (tokensFrom front.byteSize t)
      (tokensFrom (withoutReturns front).byteSize (withoutReturns t)) := by
  generalize place : front.byteSize = n
  fun_induction tokensFrom n t generalizing front with
  | case1 =>
    rw [withoutReturns, withoutReturns, List.filter_nil, tokensFrom]
    exact .nil
  | case2 n c t cut ih =>
    subst place
    have behind := paired_returns_suffix _ _ (List.suffix_append front (c :: t)) paired
    obtain ⟨d, u, same, bare, clean⟩ := Scan.cut_alike c t behind
    obtain ⟨taken, split, alone⟩ := clean
    have whole : taken = cut.2.1 := List.append_cancel_right (split.trans (Scan.cut_append c t).symm)
    subst whole
    have parts : front ++ (c :: t) = front ++ cut.2.1 ++ cut.2.2 := by rw [List.append_assoc, Scan.cut_append]
    have others := ih (front ++ cut.2.1) (paired_append _ _ first alone) (by rwa [← parts]) (byte_size_append _ _)
    rw [without_returns_append, byte_size_append] at others
    rw [same, tokensFrom, bare, parts]
    have here : Aligned (front ++ cut.2.1 ++ cut.2.2) front.byteSize (withoutReturns front).byteSize :=
      ⟨front, (List.prefix_append _ _).trans (List.prefix_append _ _), first, rfl, rfl⟩
    exact .cons ⟨⟨rfl, rfl, alone, Scan.cut_solid c t⟩, here⟩ others

theorem tokenize_placed (t : Text) (paired : pairedReturns t = true) :
    List.Forall₂ (Token.Placed t) (tokenize t) (tokenize (withoutReturns t)) := tokens_placed [] t rfl paired

theorem tokenize_bare (t : Text) (paired : pairedReturns t = true) :
    List.Forall₂ Token.Bare (tokenize t) (tokenize (withoutReturns t)) :=
  (tokenize_placed t paired).imp fun _ _ placed => placed.toBare

namespace Token.Bare

variable {token other : Token} (bare : Token.Bare token other)

include bare

theorem solid_text (solid : token.kind = .word ∨ token.kind = .punct) : other.text = token.text := by
  rw [bare.text, without_returns_free _ (bare.solid solid)]

theorem told_by_text (kind : TokenKind) (solid : kind = .word ∨ kind = .punct) (test : Text → Bool) :
    (other.kind = kind && test other.text) = (token.kind = kind && test token.text) := by
  rw [bare.kind]
  by_cases same : token.kind = kind
  · rw [bare.solid_text (same ▸ solid)]
  · simp [same]

theorem is_punct (c : Char) : other.isPunct c = token.isPunct c :=
  bare.told_by_text .punct (.inr rfl) fun text => text.head? = some c

theorem is_word (word : Text) : other.isWord word = token.isWord word :=
  bare.told_by_text .word (.inl rfl) fun text => asciiLower text = asciiLower word

theorem is_space : other.isSpace = token.isSpace := by rw [isSpace, isSpace, bare.kind]

theorem is_remark : other.isRemark = token.isRemark := by rw [isRemark, isRemark, bare.kind]

theorem is_trivia : other.isTrivia = token.isTrivia := by rw [isTrivia, isTrivia, bare.is_space, bare.is_remark]

theorem is_line_break : other.isLineBreak = token.isLineBreak := by
  have feeds : other.text.elem '\n' = token.text.elem '\n' := by
    rw [bare.text, Bool.eq_iff_iff, List.elem_iff, List.elem_iff, withoutReturns, List.mem_filter]
    simp
  rw [isLineBreak, isLineBreak, bare.kind, feeds]

theorem is_opener : other.isOpener = token.isOpener :=
  bare.told_by_text .punct (.inr rfl) fun text => text.head?.any Scan.opens

theorem is_closer : other.isCloser = token.isCloser :=
  bare.told_by_text .punct (.inr rfl) fun text => text.head?.any Scan.closes

theorem depth_after (depth : Nat) : other.depthAfter depth = token.depthAfter depth := by
  rw [depthAfter, depthAfter, bare.is_opener, bare.is_closer]

theorem without_comment : other.withoutComment = withoutReturns token.withoutComment ∧
    pairedReturns token.withoutComment = true := by
  rw [withoutComment, withoutComment, bare.kind, bare.text]
  by_cases comment : token.kind = .comment
  · rw [if_pos comment, if_pos comment]
    have free : '\r' ∉ token.text.filter (· = '\n') := by
      intro member
      simpa using (List.mem_filter.mp member).2
    refine ⟨?_, paired_free _ free⟩
    rw [without_returns_free _ free, withoutReturns, List.filter_filter]
    apply List.filter_congr
    intro c _
    by_cases feed : c = '\n'
    · subst feed
      rfl
    · simp [feed]
  · rw [if_neg comment, if_neg comment]
    exact ⟨rfl, bare.paired⟩

theorem without_remark : other.withoutRemark = withoutReturns token.withoutRemark ∧
    pairedReturns token.withoutRemark = true := by
  unfold withoutRemark
  rw [bare.kind, bare.text]
  cases token.kind with
  | tag => exact ⟨rfl, rfl⟩
  | comment => exact ⟨rfl, rfl⟩
  | space => exact ⟨rfl, bare.paired⟩
  | literal => exact ⟨rfl, bare.paired⟩
  | word => exact ⟨rfl, bare.paired⟩
  | punct => exact ⟨rfl, bare.paired⟩

end Token.Bare

section

variable {tokens others : List Token} (bare : List.Forall₂ Token.Bare tokens others)

include bare

theorem bare_flat_map (part : Token → Text)
    (each : ∀ token other, Token.Bare token other →
      part other = withoutReturns (part token) ∧ pairedReturns (part token) = true) :
    others.flatMap part = withoutReturns (tokens.flatMap part) ∧ pairedReturns (tokens.flatMap part) = true := by
  induction bare with
  | nil => exact ⟨rfl, rfl⟩
  | cons first _ ih =>
    obtain ⟨same, paired⟩ := each _ _ first
    rw [List.flatMap_cons, List.flatMap_cons, without_returns_append, same, ih.1]
    exact ⟨rfl, paired_append _ _ paired ih.2⟩

theorem untokenize_bare :
    untokenize others = withoutReturns (untokenize tokens) ∧ pairedReturns (untokenize tokens) = true :=
  bare_flat_map bare Token.text fun _ _ first => ⟨first.text, first.paired⟩

end

theorem without_comments_bare (t : Text) (paired : pairedReturns t = true) :
    withoutComments (withoutReturns t) = withoutReturns (withoutComments t) ∧
      pairedReturns (withoutComments t) = true :=
  bare_flat_map (tokenize_bare t paired) Token.withoutComment fun _ _ first => first.without_comment

theorem without_remarks_bare (t : Text) (paired : pairedReturns t = true) :
    withoutRemarks (withoutReturns t) = withoutReturns (withoutRemarks t) ∧ pairedReturns (withoutRemarks t) = true :=
  bare_flat_map (tokenize_bare t paired) Token.withoutRemark fun _ _ first => first.without_remark

end SchemaDiagram
