import SchemaDiagram.Proofs.KeywordCase

/-!
How many an edge leads to is told twice. Its label asks for the word "many" anywhere in the line, as a word by itself,
its cardinality for "of many" or "to many" however much white space parts the two words. They agree in a line that has
the word nowhere, or in one of these phrases; an element of that name makes them disagree.
-/

set_option autoImplicit false

namespace SchemaDiagram

namespace Text

theorem starts_with_iff (lead t : Text) : startsWith lead t = true ↔ ∃ behind, t = lead ++ behind := by
  rw [startsWith, Option.isSome_iff_exists]
  exact exists_congr fun behind => after_eq_some_iff lead t behind

theorem starts_with_cons (p c : Char) (lead t : Text) :
    startsWith (p :: lead) (c :: t) = (decide (p = c) && startsWith lead t) := by
  rw [startsWith, after?]
  split <;> simp_all [startsWith]

-- Behind a character that is no white space comes the rest, parted from it where white space did so.
theorem normalized_solid (c : Char) (t : Text) (solid : isWhite c = false) :
    normalized (c :: t) =
      c :: if t.head?.any isWhite && !(words t).isEmpty then ' ' :: normalized t else normalized t := by
  cases t with
  | nil => exact normalized_parted [c] [] (by simp) (Solid.cons c solid (by simp [Solid])) (by simp [Parted])
  | cons d t =>
    cases white : isWhite d with
    | false =>
      rw [normalized_inside c d t solid white]
      simp [white]
    | true =>
      have parted := normalized_parted [c] (d :: t) (by simp) (Solid.cons c solid (by simp [Solid]))
        fun e first => Option.some.inj first ▸ white
      refine parted.trans ?_
      cases nothing : words (d :: t) with
      | nil => simp [normalized, nothing]
      | cons first others => simp [white]

theorem starts_with_normalized (word t : Text) (solid : word.Solid) (first : t.head?.any isWhite = false) :
    startsWith word (normalized t) = startsWith word t := by
  induction word generalizing t with
  | nil => rfl
  | cons p word ih =>
    cases t with
    | nil => rfl
    | cons c t =>
      have inner : Solid word := fun d member => solid d (List.mem_cons_of_mem p member)
      rw [normalized_solid c t first, starts_with_cons, starts_with_cons]
      congr 1
      cases white : t.head?.any isWhite with
      | false => exact ih t inner white
      | true =>
        -- White space is passed over by no word, and neither is a blank.
        obtain ⟨d, t, rfl⟩ : ∃ d u, t = d :: u := by
          cases t with
          | nil => contradiction
          | cons d u => exact ⟨d, u, rfl⟩
        cases word with
        | nil => rfl
        | cons q word =>
          have unlike (e : Char) (white : isWhite e = true) : (decide (q = e)) = false := by
            have other := inner q List.mem_cons_self
            exact decide_eq_false fun same => by rw [same, white] at other; contradiction
          rw [starts_with_cons q d, unlike d white, Bool.false_and]
          split
          · rw [starts_with_cons, unlike ' ' (by decide), Bool.false_and]
          · rename_i nothing
            have none : words (d :: t) = [] := by simpa [white] using nothing
            rw [normalized, none]
            rfl

-- White space in front of a text is not shown.
theorem starts_behind_gap (word t : Text) (filled : word ≠ []) (solid : word.Solid) :
    startsWith word (normalized t) = true ↔
      ∃ gap behind, (∀ c ∈ gap, isWhite c = true) ∧ t = gap ++ (word ++ behind) := by
  constructor
  · intro starts
    have split := List.takeWhile_append_dropWhile (p := isWhite) (l := t)
    have blank : ∀ c ∈ t.takeWhile isWhite, isWhite c = true := fun c member => List.mem_takeWhile_imp member
    have stops := List.head?_dropWhile_not isWhite t
    have first : (t.dropWhile isWhite).head?.any isWhite = false := by
      cases left : t.dropWhile isWhite with
      | nil => rfl
      | cons c rest => simpa [left] using stops
    rw [← split, normalized_blank _ _ blank, starts_with_normalized word _ solid first] at starts
    obtain ⟨behind, left⟩ := (starts_with_iff _ _).mp starts
    exact ⟨t.takeWhile isWhite, behind, blank, by rw [← left, split]⟩
  · rintro ⟨gap, behind, blank, rfl⟩
    obtain ⟨more, shown, _⟩ := normalized_behind behind
    exact (starts_with_iff _ _).mpr ⟨more, (normalized_blank gap _ blank).trans (shown word filled solid)⟩

-- Two words with white space between them.
def Pair (lead word t before behind : Text) : Prop :=
  ∃ gap, gap ≠ [] ∧ (∀ c ∈ gap, isWhite c = true) ∧ t = before ++ (lead ++ (gap ++ (word ++ behind)))

section

variable (lead word : Text) (leadFilled : lead ≠ []) (leadSolid : lead.Solid) (filled : word ≠ []) (solid : word.Solid)

include leadFilled leadSolid

-- Behind a word only white space is shown as a blank, and only with more words behind it.
theorem behind_blank (rest more : Text) (even : normalized (lead ++ rest) = lead ++ ' ' :: more) :
    rest.head?.any isWhite = true ∧ normalized rest = more := by
  cases rest with
  | nil =>
    rw [normalized_parted lead [] leadFilled leadSolid (by simp [Parted])] at even
    simp [words, fields] at even
  | cons d rest =>
    cases white : isWhite d with
    | false =>
      obtain ⟨behind, head⟩ := normalized_head d rest white
      rw [normalized_joined lead (d :: rest) leadSolid white (List.cons_ne_nil d rest), head] at even
      rw [(List.cons.inj (List.append_cancel_left even)).1] at white
      contradiction
    | true =>
      rw [normalized_parted lead (d :: rest) leadFilled leadSolid
        fun e first => Option.some.inj first ▸ white] at even
      have inner := List.append_cancel_left even
      split at inner
      · contradiction
      · exact ⟨white, (List.cons.inj inner).2⟩

include filled solid

theorem pair_starts (t : Text) (first : t.head?.any isWhite = false) :
    startsWith (lead ++ ' ' :: word) (normalized t) = true ↔ ∃ behind, Pair lead word t [] behind := by
  constructor
  · intro starts
    obtain ⟨more, even⟩ := (starts_with_iff _ _).mp starts
    rw [List.append_assoc, List.cons_append] at even
    have begins : startsWith lead (normalized t) = true := (starts_with_iff _ _).mpr ⟨_, even⟩
    rw [starts_with_normalized lead t leadSolid first] at begins
    obtain ⟨rest, rfl⟩ := (starts_with_iff _ _).mp begins
    obtain ⟨white, shown⟩ := behind_blank lead leadFilled leadSolid rest _ even
    have second : startsWith word (normalized rest) = true := (starts_with_iff _ _).mpr ⟨more, shown⟩
    obtain ⟨gap, behind, blank, rfl⟩ := (starts_behind_gap word _ filled solid).mp second
    refine ⟨behind, gap, ?_, blank, (List.nil_append _).symm⟩
    rintro rfl
    obtain ⟨c, word, rfl⟩ := List.exists_cons_of_ne_nil filled
    have other := solid c List.mem_cons_self
    simp [other] at white
  · rintro ⟨behind, gap, gapFilled, blank, rfl⟩
    have second : startsWith word (normalized (gap ++ (word ++ behind))) = true :=
      (starts_behind_gap word _ filled solid).mpr ⟨gap, behind, blank, rfl⟩
    obtain ⟨more, even⟩ := (starts_with_iff _ _).mp second
    have parted : Parted (gap ++ (word ++ behind)) := by
      obtain ⟨c, gap, rfl⟩ := List.exists_cons_of_ne_nil gapFilled
      exact fun d first => Option.some.inj first ▸ blank c List.mem_cons_self
    have wordy : words (gap ++ (word ++ behind)) ≠ [] := by
      intro nothing
      rw [normalized, nothing] at even
      exact filled (List.append_eq_nil_iff.mp even.symm).1
    rw [List.nil_append, normalized_parted lead _ leadFilled leadSolid parted, if_neg wordy, even, starts_with_iff]
    exact ⟨more, by simp⟩

-- Even white space makes no pair of words and parts none.
theorem contains_pair (t : Text) :
    contains (lead ++ ' ' :: word) (normalized t) = true ↔ ∃ before behind, Pair lead word t before behind := by
  induction t with
  | nil =>
    refine iff_of_false ?_ ?_
    · simp [normalized, words, fields, contains]
    · rintro ⟨before, behind, gap, _, _, whole⟩
      simp [leadFilled] at whole
  | cons c t ih =>
    obtain ⟨p, more, leads⟩ := List.exists_cons_of_ne_nil leadFilled
    have further : (∃ before behind, Pair lead word (c :: t) before behind) ↔
        (∃ behind, Pair lead word (c :: t) [] behind) ∨ ∃ before behind, Pair lead word t before behind := by
      constructor
      · rintro ⟨before, behind, gap, gapFilled, blank, whole⟩
        cases before with
        | nil => exact .inl ⟨behind, gap, gapFilled, blank, whole⟩
        | cons d before => exact .inr ⟨before, behind, gap, gapFilled, blank, (List.cons.inj whole).2⟩
      · rintro (⟨behind, pair⟩ | ⟨before, behind, gap, gapFilled, blank, whole⟩)
        · exact ⟨[], behind, pair⟩
        · exact ⟨c :: before, behind, gap, gapFilled, blank, congrArg (c :: ·) whole⟩
    rw [further]
    cases white : isWhite c with
    | true =>
      rw [normalized_white c t white, ih, or_iff_right]
      rintro ⟨behind, gap, _, _, whole⟩
      rw [leads] at whole
      have other := leadSolid p (by simp [leads])
      rw [← (List.cons.inj whole).1, white] at other
      contradiction
    | false =>
      have step : contains (lead ++ ' ' :: word) (normalized (c :: t)) =
          (startsWith (lead ++ ' ' :: word) (normalized (c :: t)) ||
            contains (lead ++ ' ' :: word) (normalized t)) := by
        have other : p ≠ ' ' := by
          rintro rfl
          have blank := leadSolid ' ' (by simp [leads])
          contradiction
        rw [normalized_solid c t white, contains]
        congr 1
        split
        · rw [contains, leads, List.cons_append, starts_with_cons, decide_eq_false other, Bool.false_and, Bool.false_or]
        · rfl
      rw [step, Bool.or_eq_true, ih, pair_starts lead word leadFilled leadSolid filled solid (c :: t) white]

end

-- Where a search with a test that begins at words succeeds.
theorem any_word_start_iff (test : Text → Bool) (inside : Bool) (t : Text) :
    anyWordStart test inside t = true ↔ ∃ before behind, t = before ++ behind ∧ behind ≠ [] ∧ test behind = true ∧
      (before = [] → inside = false) ∧ before.getLast?.any isWordUnit = false := by
  induction t generalizing inside with
  | nil =>
    refine iff_of_false Bool.false_ne_true ?_
    rintro ⟨before, behind, whole, filled, _⟩
    exact filled (List.append_eq_nil_iff.mp whole.symm).2
  | cons c t ih =>
    rw [anyWordStart, Bool.or_eq_true, ih]
    constructor
    · rintro (here | ⟨before, behind, rfl, filled, found, first, last⟩)
      · rw [Bool.and_eq_true, Bool.not_eq_true'] at here
        exact ⟨[], c :: t, rfl, List.cons_ne_nil c t, here.2, fun _ => here.1, rfl⟩
      · refine ⟨c :: before, behind, rfl, filled, found, by simp, ?_⟩
        cases before with
        | nil => simpa using first rfl
        | cons d before => simpa using last
    · rintro ⟨before, behind, whole, filled, found, first, last⟩
      cases before with
      | nil =>
        obtain rfl : c :: t = behind := whole
        exact .inl (by simp [first rfl, found])
      | cons d before =>
        obtain ⟨rfl, rfl⟩ := List.cons.inj whole
        refine .inr ⟨before, behind, rfl, filled, found, ?_, ?_⟩
        · rintro rfl
          simpa using last
        · cases before with
          | nil => rfl
          | cons e before => simpa using last

-- No word goes on at either end.
structure Alone (before behind : Text) : Prop where
  left : before.getLast?.any isWordUnit = false
  right : behind.head?.any isWordUnit = false

def Holds (word t : Text) : Prop := ∃ before behind, t = before ++ (word ++ behind) ∧ Alone before behind

theorem has_word_iff (word t : Text) (filled : word ≠ []) : hasWord word t = true ↔ Holds word t := by
  rw [hasWord, any_word_start_iff]
  constructor
  · rintro ⟨before, rest, rfl, _, found, _, last⟩
    obtain ⟨behind, read⟩ := Option.isSome_iff_exists.mp found
    obtain ⟨after, ends⟩ := Option.filter_eq_some_iff.mp read
    rw [ends_word_eq, Bool.not_eq_true'] at ends
    exact ⟨before, behind, congrArg (before ++ ·) ((after_eq_some_iff _ _ _).mp after), last, ends⟩
  · rintro ⟨before, behind, rfl, left, right⟩
    refine ⟨before, word ++ behind, rfl, by simp [filled], ?_, fun _ => rfl, left⟩
    rw [afterWord?, (after_eq_some_iff word _ behind).mpr rfl, Option.filter_some, ends_word_eq, right]
    rfl

end Text

namespace Edge

open Text

def isMany (edge : Edge) : Bool := edge.cardinality = .oneToMany || edge.cardinality = .manyToOne

def tellsMany (edge : Edge) : Bool := endsWith " many" edge.label

-- The phrases that count many, between the letters around them.
def Counts (clause before behind : Text) : Prop :=
  Pair "of" "many" clause before behind ∨ Pair "to" "many" clause before behind

variable (clause owner target : Text) (kind : EdgeKind)

theorem tells_many_iff : (ofClause clause owner target kind).tellsMany = true ↔ Holds "many" clause := by
  have label : (ofClause clause owner target kind).label = labelOf kind clause := rfl
  rw [← has_word_iff "many" clause (by decide), Bool.coe_iff_coe, tellsMany, label, labelOf]
  cases many : hasWord "many" clause with
  | true =>
    rw [if_pos rfl]
    cases kind <;> decide
  | false =>
    rw [if_neg Bool.false_ne_true]
    split <;> cases kind <;> decide

theorem is_many_iff : (ofClause clause owner target kind).isMany = true ↔
    ∃ before behind, Counts clause before behind := by
  have pair (lead : Text) (filled : lead ≠ []) (solid : lead.Solid) :=
    contains_pair lead "many" filled solid (by decide) (by decide) clause
  have cardinality : (ofClause clause owner target kind).isMany =
      (contains "of many" (normalized clause) || contains "to many" (normalized clause)) := by
    rw [isMany, ofClause, Cardinality.ofClause]
    dsimp only
    split
    · rename_i ofMany
      rw [ofMany]
      rfl
    · rename_i others
      rw [Bool.not_eq_true] at others
      split
      · rename_i toMany
        rw [toMany, others]
        rfl
      · rename_i neither
        rw [Bool.not_eq_true] at neither
        rw [others, neither]
        split <;> rfl
  rw [cardinality, Bool.or_eq_true]
  refine (or_congr (pair "of" (by decide) (by decide)) (pair "to" (by decide) (by decide))).trans ?_
  simp only [Counts, exists_or]

-- A phrase that counts ends with the word that the label asks for.
theorem Counts.holds {before behind : Text} (counts : Counts clause before behind) (alone : Alone before behind) :
    Holds "many" clause := by
  have pair (lead : Text) (pair : Pair lead "many" clause before behind) : Holds "many" clause := by
    obtain ⟨gap, filled, blank, whole⟩ := pair
    refine ⟨before ++ (lead ++ gap), behind, by rw [whole]; simp, ?_, alone.right⟩
    rw [← List.append_assoc, List.getLast?_append_of_ne_nil _ filled]
    cases last : gap.getLast? with
    | none => rfl
    | some c => exact white_no_word c (blank c (List.mem_of_getLast? last))
  exact counts.elim (pair "of") (pair "to")

end Edge

open Text Edge in
theorem multiplicity_told (types : TypeTable) (file : SourceFile) (owner line name raw : Text) (relation : Relation)
    (read : BodyLine.read line = .element name raw)
    (related : (Resolution.resolve types file raw).relation = some relation) (outward : relation.target ≠ owner) :
    let clause := withoutRemarks line
    ∃ edge, (Yield.ofStatement types file owner line).edge = some edge ∧
      (∀ registry : Registry, registry.find? owner relation.target = none →
        (registry.add edge).find? owner relation.target = some edge) ∧
      (edge.tellsMany = true ↔ Holds "many" clause) ∧
      (∀ before behind, Counts clause before behind → Alone before behind →
        edge.isMany = true ∧ edge.tellsMany = true) ∧
      ((∀ before behind, Counts clause before behind → Alone before behind) →
        (edge.isMany = true ↔ ∃ before behind, Counts clause before behind) ∧
          (edge.tellsMany = edge.isMany ↔ (Holds "many" clause → ∃ before behind, Counts clause before behind))) := by
  intro clause
  have edge : (Yield.ofStatement types file owner line).edge =
      some (Edge.ofClause clause owner relation.target relation.kind) := by
    rw [Yield.edge_of_element types file owner line name raw read, related, Option.filter_some, if_pos (by simpa)]
    rfl
  have told := tells_many_iff clause owner relation.target relation.kind
  have counted := is_many_iff clause owner relation.target relation.kind
  refine ⟨_, edge, fun registry absent => ?_, told, fun before behind counts alone => ?_, fun apart => ⟨counted, ?_⟩⟩
  · exact registry.find_newly_added (Edge.ofClause clause owner relation.target relation.kind) absent
  · exact ⟨counted.mpr ⟨before, behind, counts⟩, told.mpr (counts.holds clause alone)⟩
  · rw [Bool.eq_iff_iff, told, counted]
    refine ⟨Iff.mp, fun word => ⟨word, ?_⟩⟩
    rintro ⟨before, behind, counts⟩
    exact counts.holds clause (apart before behind counts)

def booksOfAuthor : Text := "books : Composition of  many Book"
def authorOfBook : Text := "author : Association to one Author"

open Text Edge in
theorem books_and_author_agree :
    (BodyLine.read booksOfAuthor = .element "books" "Composition of many Book" ∧
      (Resolution.resolve {} (SourceFile.ofText none []) "Composition of many Book").relation =
        some ⟨.composition, "Book"⟩) ∧
    (BodyLine.read authorOfBook = .element "author" "Association to one Author" ∧
      (Resolution.resolve {} (SourceFile.ofText none []) "Association to one Author").relation =
        some ⟨.association, "Author"⟩) ∧
    (∃ edge, (Yield.ofStatement {} (SourceFile.ofText none []) "Author" booksOfAuthor).edge = some edge ∧
      edge.isMany = true ∧ edge.tellsMany = true) ∧
    ∃ edge, (Yield.ofStatement {} (SourceFile.ofText none []) "Book" authorOfBook).edge = some edge ∧
      edge.tellsMany = edge.isMany := by
  have read : BodyLine.read booksOfAuthor = .element "books" "Composition of many Book" := by decide +kernel
  have related : (Resolution.resolve {} (SourceFile.ofText none []) "Composition of many Book").relation =
      some ⟨.composition, "Book"⟩ := by decide +kernel
  have readOne : BodyLine.read authorOfBook = .element "author" "Association to one Author" := by decide +kernel
  have relatedOne : (Resolution.resolve {} (SourceFile.ofText none []) "Association to one Author").relation =
      some ⟨.association, "Author"⟩ := by decide +kernel
  obtain ⟨edge, found, _, _, counted, _⟩ := multiplicity_told {} _ "Author" _ _ _ _ read related (by decide)
  obtain ⟨other, foundOne, _, _, _, agree⟩ := multiplicity_told {} _ "Book" _ _ _ _ readOne relatedOne (by decide)
  have phrase : Counts (withoutRemarks booksOfAuthor) "books : Composition " " Book" :=
    .inl ⟨"  ", by decide, List.all_eq_true.mp (by decide), by decide +kernel⟩
  -- The line has neither phrase, so it has none that goes on with a word, and no word "many" either.
  have uncounted : ¬ ∃ before behind, Counts (withoutRemarks authorOfBook) before behind := by
    rw [← is_many_iff _ "Book" "Author" .association]
    decide +kernel
  have wordless : ¬ Holds "many" (withoutRemarks authorOfBook) := by
    rw [← has_word_iff _ _ (by decide)]
    decide +kernel
  refine ⟨⟨read, related⟩, ⟨readOne, relatedOne⟩, ⟨edge, found, counted _ _ phrase ⟨by decide, by decide⟩⟩, other,
    foundOne, ?_⟩
  have apart := agree fun before behind counts => absurd ⟨before, behind, counts⟩ uncounted
  exact apart.2.mpr fun word => absurd word wordless

theorem element_named_many :
    ¬ ∀ (types : TypeTable) (file : SourceFile) (owner line name raw : Text) (kind : EdgeKind) (target : Text)
        (relation : Relation), BodyLine.read line = .element name raw →
      TypeClause.ofText raw = .relationship kind target →
      (Resolution.resolve types file raw).relation = some relation → relation.target ≠ owner →
        ∃ edge, (Yield.ofStatement types file owner line).edge = some edge ∧ edge.tellsMany = edge.isMany := by
  intro always
  obtain ⟨edge, found, same⟩ := always {} (SourceFile.ofText none []) "A" "many : Association to one B" "many"
    "Association to one B" .association "B" ⟨.association, "B"⟩ (by decide +kernel) (by decide +kernel)
    (by decide +kernel) (by decide)
  have whole : (Yield.ofStatement {} (SourceFile.ofText none []) "A" "many : Association to one B").edge =
      some ⟨"A", "B", .association, .optionalToOne, "associates to many"⟩ := by decide +kernel
  rw [whole] at found
  obtain rfl := Option.some.inj found
  revert same
  decide

end SchemaDiagram
