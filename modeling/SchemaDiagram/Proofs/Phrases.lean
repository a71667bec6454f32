import SchemaDiagram.Proofs.Arrays
import SchemaDiagram.Proofs.ViewScan
import SchemaDiagram.Edge

/-!
The words of a clause that tell its edge. They are looked for in the clause with white space made even, and as words
of the clause itself; another word that stands apart from its neighbours has no part in it, in whatever case it is
spelled.
-/

set_option autoImplicit false

namespace SchemaDiagram

namespace Text

/-! Even white space, one character at a time. -/

theorem normalized_white (c : Char) (t : Text) (white : isWhite c = true) : normalized (c :: t) = normalized t := by
  rw [normalized, words, fields, if_pos white, List.filter_cons_of_neg (by simp)]
  rfl

theorem normalized_blank (front t : Text) (white : ∀ c ∈ front, isWhite c = true) :
    normalized (front ++ t) = normalized t := by
  induction front with
  | nil => rfl
  | cons c front ih =>
    rw [List.forall_mem_cons] at white
    rw [List.cons_append, normalized_white c _ white.1, ih white.2]

-- White space between two texts parts their words.
theorem words_gap (a gap b : Text) (filled : gap ≠ []) (white : ∀ c ∈ gap, isWhite c = true) :
    words (a ++ (gap ++ b)) = words a ++ words b := by
  induction gap generalizing a with
  | nil => contradiction
  | cons c gap ih =>
    obtain ⟨first, others⟩ := List.forall_mem_cons.mp white
    have parted (b : Text) : words (a ++ c :: b) = words a ++ words b := by
      rw [words, fields_parted isWhite a b c first, List.filter_append]
      rfl
    rw [List.cons_append, parted]
    cases gap with
    | nil => rfl
    | cons d gap =>
      have further := ih [] (List.cons_ne_nil d gap) others
      rw [List.nil_append] at further
      rw [further]
      rfl

theorem words_split (c : Char) (t : Text) (solid : isWhite c = false) :
    ∃ first others, fields isWhite t = first :: others ∧
      words (c :: t) = (c :: first) :: others.filter (!·.isEmpty) := by
  obtain ⟨first, others, split⟩ := List.exists_cons_of_ne_nil (fields_ne_nil isWhite t)
  refine ⟨first, others, split, ?_⟩
  rw [words, fields, solid, split]
  exact List.filter_cons_of_pos (by simp)

theorem normalized_head (c : Char) (t : Text) (solid : isWhite c = false) :
    ∃ more, normalized (c :: t) = c :: more := by
  obtain ⟨first, others, _, words⟩ := words_split c t solid
  rw [normalized, words]
  cases others.filter (!·.isEmpty) with
  | nil => exact ⟨first, List.intercalate_singleton⟩
  | cons second more => exact ⟨_, List.intercalate_cons_cons⟩

theorem normalized_inside (c d : Char) (t : Text) (solid : isWhite c = false) (more : isWhite d = false) :
    normalized (c :: d :: t) = c :: normalized (d :: t) := by
  obtain ⟨first, others, split, words⟩ := words_split d t more
  obtain ⟨joined, rest, longer, all⟩ := words_split c (d :: t) solid
  have same : fields isWhite (d :: t) = (d :: first) :: others := by
    rw [fields, more, split]
    rfl
  rw [same] at longer
  obtain ⟨rfl, rfl⟩ := List.cons.inj longer
  rw [normalized, normalized, words, all]
  cases others.filter (!·.isEmpty) with
  | nil => rw [List.intercalate_singleton, List.intercalate_singleton]
  | cons second more => rw [List.intercalate_cons_cons, List.intercalate_cons_cons]; rfl

theorem normalized_joined (word t : Text) (solid : word.Solid) (first : t.head?.any isWhite = false) (filled : t ≠ []) :
    normalized (word ++ t) = word ++ normalized t := by
  obtain ⟨d, t, rfl⟩ := List.exists_cons_of_ne_nil filled
  induction word with
  | nil => rfl
  | cons c word ih =>
    have white := solid c List.mem_cons_self
    have others := ih fun e member => solid e (List.mem_cons_of_mem c member)
    cases word with
    | nil => exact normalized_inside c d t white first
    | cons e word =>
      rw [List.cons_append, List.cons_append, normalized_inside c e _ white (solid e (by simp))]
      exact congrArg (c :: ·) others

theorem normalized_parted (word t : Text) (filled : word ≠ []) (solid : word.Solid) (parted : Parted t) :
    normalized (word ++ t) = word ++ if words t = [] then [] else ' ' :: normalized t := by
  cases t with
  | nil =>
    rw [List.append_nil, normalized, words_of_solid word filled solid, List.intercalate_singleton]
    exact (List.append_nil word).symm
  | cons c t =>
    have white := parted c rfl
    have both : words (word ++ c :: t) = word :: words (c :: t) := by
      rw [words, fields_front isWhite word t c solid white, List.filter_cons_of_pos (by simpa using filled), words,
        fields, if_pos white, List.filter_cons_of_neg (by simp)]
    rw [normalized, both]
    split
    · rename_i nothing
      rw [nothing, List.intercalate_singleton, List.append_nil]
    · rename_i more
      obtain ⟨second, others, same⟩ := List.exists_cons_of_ne_nil more
      rw [normalized, same, List.intercalate_cons_cons, List.append_assoc]
      rfl

theorem normalized_behind (b : Text) : ∃ behind,
    (∀ word : Text, word ≠ [] → word.Solid → normalized (word ++ b) = word ++ behind) ∧
      (b.head?.any isWordUnit = false → behind.head?.any isWordUnit = false) := by
  induction b with
  | nil => exact ⟨[], fun word filled solid => normalized_parted word [] filled solid (by simp [Parted]), id⟩
  | cons c b ih =>
    obtain ⟨behind, kept, _⟩ := ih
    cases white : isWhite c with
    | true =>
      refine ⟨if words (c :: b) = [] then [] else ' ' :: normalized (c :: b), fun word filled solid => ?_, fun _ => ?_⟩
      · exact normalized_parted word _ filled solid fun d first => Option.some.inj first ▸ white
      · split <;> rfl
    | false =>
      refine ⟨c :: behind, fun word filled solid => ?_, id⟩
      have longer := kept (word ++ [c]) (by simp) (solid.append (Solid.cons c white (by simp [Solid])))
      rwa [List.append_assoc, List.append_assoc] at longer

theorem normalized_before (a : Text) : ∃ before,
    (∀ c rest, isWhite c = false → normalized (a ++ c :: rest) = before ++ normalized (c :: rest)) ∧
      (a.getLast?.any isWordUnit = false → before.getLast?.any isWordUnit = false) ∧
      (before = [] → ∀ c ∈ a, isWhite c = true) := by
  induction a with
  | nil => exact ⟨[], fun c rest _ => rfl, id, fun _ => by simp⟩
  | cons d a ih =>
    obtain ⟨before, kept, last, blank⟩ := ih
    have lastInner (outer : (d :: a).getLast?.any isWordUnit = false) : before.getLast?.any isWordUnit = false := by
      apply last
      cases a with
      | nil => rfl
      | cons e a => simpa using outer
    cases white : isWhite d with
    | true =>
      refine ⟨before, fun c rest solid => ?_, lastInner, fun nothing => ?_⟩
      · rw [List.cons_append, normalized_white d _ white, kept c rest solid]
      · exact List.forall_mem_cons.mpr ⟨white, blank nothing⟩
    | false =>
      cases a with
      | nil =>
        refine ⟨[d], fun c rest solid => normalized_inside d c rest white solid, id, fun nothing => ?_⟩
        contradiction
      | cons e a =>
        cases gap : isWhite e with
        | true =>
          refine ⟨d :: ' ' :: before, fun c rest solid => ?_, fun outer => ?_, fun nothing => ?_⟩
          · obtain ⟨more, head⟩ := normalized_head c rest solid
            have told := kept c rest solid
            have filled : words (e :: a ++ c :: rest) ≠ [] := by
              intro nothing
              rw [normalized, nothing, head] at told
              exact absurd told.symm (by simp)
            have step := normalized_parted [d] (e :: a ++ c :: rest) (by simp) (Solid.cons d white (by simp [Solid]))
              fun f first => Option.some.inj first ▸ gap
            rw [if_neg filled, told] at step
            exact step
          · have inner := lastInner outer
            cases before with
            | nil => exact (by decide : isWordUnit ' ' = false)
            | cons f before => simpa using inner
          · contradiction
        | false =>
          refine ⟨d :: before, fun c rest solid => ?_, fun outer => ?_, fun nothing => ?_⟩
          · rw [List.cons_append, List.cons_append, normalized_inside d e _ white gap]
            exact congrArg (d :: ·) (kept c rest solid)
          · have inner := lastInner outer
            cases before with
            | nil =>
              have contrary := blank rfl e List.mem_cons_self
              rw [gap] at contrary
              contradiction
            | cons f before => simpa using inner
          · contradiction

-- Around a word the white space becomes even whatever the word is.
theorem normalized_around (a b : Text) (left : a.getLast?.any isWordUnit = false)
    (right : b.head?.any isWordUnit = false) : ∃ before behind,
    (∀ word : Text, word ≠ [] → word.Solid → normalized (a ++ (word ++ b)) = before ++ (word ++ behind)) ∧
      before.getLast?.any isWordUnit = false ∧ behind.head?.any isWordUnit = false := by
  obtain ⟨before, front, last, _⟩ := normalized_before a
  obtain ⟨behind, back, first⟩ := normalized_behind b
  refine ⟨before, behind, fun word filled solid => ?_, last left, first right⟩
  rw [← back word filled solid]
  obtain ⟨c, word, rfl⟩ := List.exists_cons_of_ne_nil filled
  exact front c (word ++ b) (solid c List.mem_cons_self)

/-! Searches in front of a place where no word goes on. -/

theorem starts_with_apart (part a r s : Text) (filled : a ≠ []) (last : a.getLast?.any isWordUnit = false)
    (same : ∀ front back, part = front ++ back → front.getLast?.any (!isWordUnit ·) = true →
      startsWith back r = startsWith back s) :
    startsWith part (a ++ r) = startsWith part (a ++ s) := by
  induction a generalizing part with
  | nil => contradiction
  | cons c a ih =>
    cases part with
    | nil => rfl
    | cons p part =>
      by_cases equal : p = c
      · have step (t : Text) : startsWith (p :: part) (c :: a ++ t) = startsWith part (a ++ t) := by
          rw [startsWith, List.cons_append, after?, if_pos equal, startsWith]
        rw [step, step]
        cases a with
        | nil => exact same [p] part rfl (by simpa [equal] using last)
        | cons d a =>
          refine ih part (by simp) (by simpa using last) fun front back split ends => ?_
          refine same (p :: front) back (congrArg (p :: ·) split) ?_
          cases front with
          | nil => contradiction
          | cons f front => simpa using ends
      · have step (t : Text) : startsWith (p :: part) (c :: a ++ t) = false := by
          rw [startsWith, List.cons_append, after?, if_neg equal]
          rfl
        rw [step, step]

theorem contains_apart (part a r s : Text) (last : a.getLast?.any isWordUnit = false)
    (same : ∀ front back, part = front ++ back → front.getLast?.any (!isWordUnit ·) = true →
      startsWith back r = startsWith back s) (behind : contains part r = contains part s) :
    contains part (a ++ r) = contains part (a ++ s) := by
  induction a with
  | nil => exact behind
  | cons c a ih =>
    have inner : a.getLast?.any isWordUnit = false := by
      cases a with
      | nil => rfl
      | cons d a => simpa using last
    have here := starts_with_apart part (c :: a) r s (by simp) last same
    rw [List.cons_append, List.cons_append] at here ⊢
    rw [contains, contains, here, ih inner]

theorem after_word_apart (word a r : Text) (units : word.AllUnits) (filled : a ≠ [])
    (last : a.getLast?.any isWordUnit = false) : (afterWord? word (a ++ r)).isSome = (afterWord? word a).isSome := by
  induction word generalizing a with
  | nil =>
    obtain ⟨c, a, rfl⟩ := List.exists_cons_of_ne_nil filled
    simp only [afterWord?, after?, List.cons_append, Option.filter_some, endsWord]
    by_cases goes : isWordUnit c = true <;> simp [goes]
  | cons p word ih =>
    obtain ⟨c, a, rfl⟩ := List.exists_cons_of_ne_nil filled
    have others : AllUnits word := fun d member => units d (List.mem_cons_of_mem p member)
    by_cases equal : p = c
    · have step (t : Text) : afterWord? (p :: word) (c :: t) = afterWord? word t := by
        rw [afterWord?, after?, if_pos equal, afterWord?]
      rw [List.cons_append, step, step]
      cases a with
      | nil =>
        have unit := units p List.mem_cons_self
        rw [equal] at unit
        simp [unit] at last
      | cons d a => exact ih (d :: a) others (by simp) (by simpa using last)
    · have step (t : Text) : afterWord? (p :: word) (c :: t) = none := by
        rw [afterWord?, after?, if_neg equal]
        rfl
      rw [List.cons_append, step, step]

theorem any_word_apart (word a r s : Text) (inside : Bool) (units : word.AllUnits)
    (last : a.getLast?.any isWordUnit = false) (outside : a = [] → inside = false)
    (behind : anyWordStart (fun rest => (afterWord? word rest).isSome) false r =
      anyWordStart (fun rest => (afterWord? word rest).isSome) false s) :
    anyWordStart (fun rest => (afterWord? word rest).isSome) inside (a ++ r) =
      anyWordStart (fun rest => (afterWord? word rest).isSome) inside (a ++ s) := by
  induction a generalizing inside with
  | nil =>
    rw [outside rfl]
    exact behind
  | cons c a ih =>
    have inner : a.getLast?.any isWordUnit = false := by
      cases a with
      | nil => rfl
      | cons d a => simpa using last
    have here := (after_word_apart word (c :: a) r units (by simp) last).trans
      (after_word_apart word (c :: a) s units (by simp) last).symm
    rw [List.cons_append, List.cons_append] at here ⊢
    rw [anyWordStart, anyWordStart, here, ih (isWordUnit c) inner ?_]
    intro nothing
    rw [nothing] at last
    simpa using last

theorem after_lower (lead word t : Text) (fits : word.length ≤ lead.length)
    (found : (after? lead (word ++ t)).isSome = true) : lead.asciiLower.take word.length = word.asciiLower := by
  obtain ⟨rest, found⟩ := Option.isSome_iff_exists.mp found
  rw [after_eq_some_iff] at found
  have front := congrArg (List.take word.length) found
  rw [List.take_left, List.take_append_of_le_length fits] at front
  conv_rhs => rw [front]
  exact (List.map_take (f := Char.toLower)).symm

theorem all_units_lower (t : Text) : t.asciiLower.AllUnits ↔ t.AllUnits := by
  rw [AllUnits, AllUnits, asciiLower, List.forall_mem_map]
  exact forall₂_congr fun c _ => by rw [word_unit_lower]

theorem solid_of_units (t : Text) (units : t.AllUnits) : t.Solid :=
  fun c member => unit_not_white c (units c member)

end Text

/-! A condition's first word tells nothing of the edge. -/

section

variable (word : Text) (lower : word.asciiLower = "on")

include lower

theorem on_units : word.AllUnits := by
  have letters : Text.AllUnits "on" := by decide
  exact (Text.all_units_lower word).mp (lower ▸ letters)

theorem on_solid : word.Solid := Text.solid_of_units word (on_units word lower)

theorem on_filled : word ≠ [] := by
  rintro rfl
  contradiction

theorem on_size : word.length = 2 := (Text.lower_length word).symm.trans (congrArg List.length lower)

theorem on_unlike (lead t : Text) (longer : 2 ≤ lead.length) (other : lead.asciiLower.take 2 ≠ "on") :
    Text.startsWith lead (word ++ t) = false := by
  have size := on_size word lower
  rw [Text.startsWith, Bool.eq_false_iff]
  intro found
  have same := Text.after_lower lead word t (size ▸ longer) found
  rw [size, lower] at same
  exact other same

end

namespace Cardinality

def phrases : List Text := ["of many", "to many", "of one"]

-- What is left of a phrase where a word of it has ended is its second word.
theorem phrase_back (phrase : Text) (among : phrase ∈ phrases) (front back : Text) (split : phrase = front ++ back)
    (ends : front.getLast?.any (!isWordUnit ·) = true) : back = "many" ∨ back = "one" := by
  have short : ∀ phrase ∈ phrases, phrase.length ≤ 7 := by decide
  have each : ∀ phrase ∈ phrases, ∀ n ∈ List.range 8, (phrase.take n).getLast?.any (!isWordUnit ·) = true →
      phrase.drop n = "many" ∨ phrase.drop n = "one" := by decide
  have fits := short phrase among
  have found := each phrase among front.length
  rw [split, List.length_append] at fits
  rw [split, List.take_left, List.drop_left] at found
  exact found (List.mem_range.mpr (by omega)) ends

variable (a b first second : Text) (firstLower : first.asciiLower = "on") (secondLower : second.asciiLower = "on")
    (left : a.getLast?.any isWordUnit = false) (right : b.head?.any isWordUnit = false)

include firstLower secondLower left right

theorem contains_phrase (phrase : Text) (among : phrase ∈ phrases) :
    Text.contains phrase (a ++ (first ++ b)) = Text.contains phrase (a ++ (second ++ b)) := by
  have starts : ∀ phrase ∈ phrases,
      2 ≤ phrase.length ∧ phrase.asciiLower.take 2 ≠ "on" ∧ phrase.asciiLower.take 1 ≠ "n" := by decide
  have unread (word : Text) (lower : word.asciiLower = "on") (back : Text) (either : back = "many" ∨ back = "one") :
      Text.startsWith back (word ++ b) = false := by
    rcases either with rfl | rfl
    · exact on_unlike word lower "many" b (by decide) (by decide)
    · rw [Text.startsWith, Bool.eq_false_iff]
      intro found
      obtain ⟨rest, found⟩ := Option.isSome_iff_exists.mp found
      rw [Text.after_eq_some_iff] at found
      have further := congrArg (List.drop 2) found
      rw [← on_size word lower, List.drop_left, on_size word lower] at further
      rw [further] at right
      contradiction
  have passed (word : Text) (lower : word.asciiLower = "on") :
      Text.contains phrase (word ++ b) = Text.contains phrase b := by
    obtain ⟨c, d, rfl⟩ := List.length_eq_two.mp (on_size word lower)
    have whole := on_unlike [c, d] lower phrase b (starts phrase among).1 (starts phrase among).2.1
    have inner : Text.startsWith phrase ([d] ++ b) = false := by
      rw [Text.startsWith, Bool.eq_false_iff]
      intro found
      have same := Text.after_lower phrase [d] b (Nat.le_of_succ_le (starts phrase among).1) found
      have letter : Text.asciiLower [d] = "n" := congrArg (List.drop 1) lower
      exact (starts phrase among).2.2 (same.trans letter)
    rw [List.cons_append, List.singleton_append] at whole ⊢
    rw [List.singleton_append] at inner
    rw [Text.contains, whole, Text.contains, inner, Bool.false_or, Bool.false_or]
  refine Text.contains_apart phrase a _ _ left (fun front back split ends => ?_) ?_
  · have second := phrase_back phrase among front back split ends
    rw [unread first firstLower back second, unread _ secondLower back second]
  · rw [passed first firstLower, passed second secondLower]

theorem of_clause_around :
    ofClause (a ++ (first ++ b)) = ofClause (a ++ (second ++ b)) := by
  obtain ⟨before, behind, even, left, right⟩ := Text.normalized_around a b left right
  have found := contains_phrase before behind first second firstLower secondLower left right
  unfold ofClause
  rw [even first (on_filled first firstLower) (on_solid first firstLower),
    even second (on_filled second secondLower) (on_solid second secondLower)]
  dsimp only
  rw [found "of many" (by decide), found "to many" (by decide), found "of one" (by decide)]

end Cardinality

namespace Edge

theorem has_word_around (word a b first second : Text) (among : word ∈ (["many", "one"] : List Text))
    (firstLower : first.asciiLower = "on") (secondLower : second.asciiLower = "on")
    (left : a.getLast?.any isWordUnit = false) (right : b.head?.any isWordUnit = false) :
    Text.hasWord word (a ++ (first ++ b)) = Text.hasWord word (a ++ (second ++ b)) := by
  have shape : ∀ word ∈ (["many", "one"] : List Text), 2 < word.length ∧ word.AllUnits := by decide
  obtain ⟨longer, units⟩ := shape word among
  have wordy (c : Char) (t : Text) (other : isWordUnit c = false) : (Text.afterWord? word (c :: t)).isSome = false := by
    have unread := Text.after_word_iff word [] (c :: t) units (fun d member => by cases member) other
    rw [Bool.eq_false_iff]
    intro found
    rw [← unread.mp found] at longer
    exact absurd longer (by decide)
  have passed (on : Text) (lower : on.asciiLower = "on") :
      Text.anyWordStart (fun rest => (Text.afterWord? word rest).isSome) false (on ++ b) =
        Text.anyWordStart (fun rest => (Text.afterWord? word rest).isSome) false b := by
    have unread : (Text.afterWord? word (on ++ b)).isSome = false := by
      rw [Bool.eq_false_iff]
      intro found
      rw [← (Text.after_word_iff word on b units (on_units on lower) right).mp found, on_size on lower] at longer
      exact absurd longer (by decide)
    rw [Text.any_word_start_word _ wordy on b (on_filled on lower) (on_units on lower) right, unread, Bool.false_or]
  exact Text.any_word_apart word a _ _ false units left (fun _ => rfl)
    ((passed first firstLower).trans (passed second secondLower).symm)

theorem of_clause_around (a b first second owner target : Text) (kind : EdgeKind)
    (firstLower : first.asciiLower = "on") (secondLower : second.asciiLower = "on")
    (left : a.getLast?.any isWordUnit = false) (right : b.head?.any isWordUnit = false) :
    ofClause (a ++ (first ++ b)) owner target kind = ofClause (a ++ (second ++ b)) owner target kind := by
  have many := has_word_around "many" a b first second (by decide) firstLower secondLower left right
  have one := has_word_around "one" a b first second (by decide) firstLower secondLower left right
  rw [ofClause, ofClause, labelOf, labelOf, many, one,
    Cardinality.of_clause_around a b first second firstLower secondLower left right]

end Edge

end SchemaDiagram
