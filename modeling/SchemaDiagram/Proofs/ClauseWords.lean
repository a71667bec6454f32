import SchemaDiagram.Proofs.Phrases

/-!
How the type of an element is read by the words in front of its target. Each word is looked for in one spelling. The
first word that is spelled otherwise is taken for the target, or, where it is the word that makes a relationship or an
array, the whole type is taken for a name.
-/

set_option autoImplicit false

namespace SchemaDiagram

namespace Text

theorem Parted.stops (t : Text) (parted : Parted t) : t.head?.any isWordUnit = false := by
  cases t with
  | nil => rfl
  | cons c t => exact white_no_word c (parted c rfl)

-- A word is read off the first word of a text, or not at all.
theorem after_word_parted (sought word rest : Text) (letters : sought.AllUnits) (parted : Parted rest) :
    afterWord? sought (word ++ rest) = none ↔ afterWord? sought word = none := by
  rw [afterWord?, afterWord?, after_word_front sought word rest letters (parted.stops)]
  cases after? sought word with
  | none => exact Iff.rfl
  | some more =>
    cases more with
    | nil =>
      have ends : endsWord rest = true := by rw [ends_word_eq, parted.stops, Bool.not_false]
      rw [Option.map_some, Option.filter_some, List.nil_append, if_pos ends, Option.filter_some]
      exact iff_of_false (by simp) (by simp [endsWord])
    | cons c more => simp [Option.filter_some, endsWord]

theorem after_word_self (word rest : Text) (ends : rest.head?.any isWordUnit = false) :
    afterWord? word (word ++ rest) = some rest := by
  have ended : endsWord rest = true := by rw [ends_word_eq, ends, Bool.not_false]
  rw [afterWord?, (after_eq_some_iff word _ rest).mpr rfl, Option.filter_some, if_pos ended]

theorem after_word_unlike (sought word rest : Text) (letters : sought.AllUnits) (units : word.AllUnits)
    (stops : rest.head?.any isWordUnit = false) (other : word ≠ sought) : afterWord? sought (word ++ rest) = none := by
  have unread := mt (after_word_iff sought word rest letters units stops).mp other
  rwa [Option.isSome_iff_ne_none, not_not] at unread

-- Whatever the case, a text does not begin with a word that its small letters do not begin with.
theorem after_word_lower (sought t : Text) (small : sought.asciiLower = sought)
    (unread : afterWord? sought t.asciiLower = none) : afterWord? sought t = none := by
  cases found : afterWord? sought t with
  | none => rfl
  | some rest =>
    obtain ⟨split, ends⟩ := Option.filter_eq_some_iff.mp found
    rw [after_eq_some_iff] at split
    have lowered : after? sought t.asciiLower = some rest.asciiLower := by
      rw [after_eq_some_iff, split, lower_append, small]
    rw [afterWord?, lowered, Option.filter_some] at unread
    cases rest with
    | nil => contradiction
    | cons c rest =>
      have still : endsWord (asciiLower (c :: rest)) = true := by
        change (!isWordUnit c.toLower) = true
        rw [word_unit_lower]
        exact ends
      rw [if_pos still] at unread
      contradiction

-- What stands between two words of a normalized text.
def Gap (gap : Text) : Prop := gap = [] ∨ gap = [' ']

theorem Gap.drop (gap t : Text) (isGap : Gap gap) (solid : t.head?.any isWhite = false) :
    (gap ++ t).dropWhile isWhite = t := by
  have stays : t.dropWhile isWhite = t := by
    cases t with
    | nil => rfl
    | cons c t => exact List.dropWhile_cons_of_neg (by simpa using solid)
  rcases isGap with rfl | rfl
  · exact stays
  · exact (List.dropWhile_cons_of_pos (by decide)).trans stays

end Text

namespace TypeClause

open Text

theorem solid_stays (lead t : Text) (filled : lead ≠ []) (solid : lead.Solid) :
    (withoutCondition (lead ++ t).trim).trim = lead ++ behindLead t := by
  rw [trim_led lead _ filled solid, without_condition_solid lead _ solid, trim_led lead _ filled solid, behindLead]

theorem behind_lead_gap (gap word rest : Text) (isGap : Gap gap) (filled : word ≠ []) (solid : word.Solid)
    (free : afterWord? "on" (word ++ trimEnd rest) = none) :
    behindLead (gap ++ (word ++ rest)) = gap ++ (word ++ behindLead rest) := by
  rcases isGap with rfl | rfl
  · have whole : trimEnd word = word := trim_end_solid [] word filled solid
    rw [List.nil_append, behindLead, trim_end_append word rest whole, without_condition_solid word _ solid,
      trim_end_append word _ whole, behindLead, List.nil_append]
  · exact behind_lead_name word rest filled solid free

def linkWords : List Text := ["of", "to"]
def countWords : List Text := ["one", "many"]

-- The words that stand for something in a clause, and what begins its condition.
def clauseWords : List Text := "on" :: (linkWords ++ countWords)

theorem clause_word_units : ∀ word ∈ clauseWords, word.AllUnits := by decide

theorem after_one_of_word (words : List Text) (units : ∀ word ∈ words, word.AllUnits) (word rest : Text)
    (member : word ∈ words) (ends : rest.head?.any isWordUnit = false) :
    afterOneOf words (word ++ rest) = rest.dropWhile isWhite := by
  have read : words.findSome? (afterWord? · (word ++ rest)) = some rest := by
    induction words with
    | nil => contradiction
    | cons first others ih =>
      rw [List.forall_mem_cons] at units
      by_cases same : word = first
      · rw [List.findSome?_cons, ← same, after_word_self word rest ends]
      · have wordUnits := List.forall_mem_cons.mpr units word member
        rw [List.findSome?_cons, after_word_unlike first word rest units.1 wordUnits ends same]
        exact ih units.2 (List.mem_of_ne_of_mem same member)
  rw [afterOneOf, read]

theorem after_one_of_other (words : List Text) (t : Text) (other : ∀ word ∈ words, afterWord? word t = none) :
    afterOneOf words t = t := by
  have nothing : words.findSome? (afterWord? · t) = none := List.findSome?_eq_none_iff.mpr other
  rw [afterOneOf, nothing]

-- Whether a text begins with neither white space nor a bracket, which would be passed over.
def Starts (t : Text) : Prop := ∃ c rest, t = c :: rest ∧ isWhite c = false ∧ c ≠ '['

theorem Starts.head {t : Text} (starts : Starts t) : t.head?.any isWhite = false := by
  obtain ⟨c, rest, rfl, solid, _⟩ := starts
  exact solid

theorem starts_of_units (word rest : Text) (filled : word ≠ []) (units : word.AllUnits) : Starts (word ++ rest) := by
  obtain ⟨c, word, rfl⟩ := List.exists_cons_of_ne_nil filled
  have unit := units c List.mem_cons_self
  refine ⟨c, word ++ rest, rfl, solid_of_units _ units c List.mem_cons_self, ?_⟩
  rintro rfl
  contradiction

theorem clause_word_filled : ∀ word ∈ clauseWords, word ≠ [] := by decide

-- A text behind a word that it may have in front.
def led (word? : Option (Text × Text)) (t : Text) : Text :=
  match word? with
  | none => t
  | some (word, gap) => word ++ (gap ++ t)

-- The word is one of those that are looked for, and ends in front of the text.
def Leads (words : List Text) (word? : Option (Text × Text)) (t : Text) : Prop :=
  ∀ word gap, word? = some (word, gap) → word ∈ words ∧ Gap gap ∧ (gap ++ t).head?.any isWordUnit = false

theorem leads_nothing (words : List Text) (t : Text) : Leads words none t := by
  intro word gap found
  contradiction

section

variable (words : List Text) (within : words ⊆ linkWords ++ countWords)

include within

theorem led_starts (word? : Option (Text × Text)) (t : Text) (starts : Starts t) (leads : Leads words word? t) :
    Starts (led word? t) := by
  cases word? with
  | none => exact starts
  | some pair =>
    have among := List.mem_cons_of_mem "on".toList (within (leads pair.1 pair.2 rfl).1)
    exact starts_of_units pair.1 _ (clause_word_filled _ among) (clause_word_units _ among)

theorem after_led (word? : Option (Text × Text)) (t : Text) (starts : Starts t) (leads : Leads words word? t)
    (unread : word? = none → ∀ word ∈ words, afterWord? word t = none) : afterOneOf words (led word? t) = t := by
  cases word? with
  | none => exact after_one_of_other words t (unread rfl)
  | some pair =>
    obtain ⟨member, gap, ends⟩ := leads pair.1 pair.2 rfl
    have units : ∀ word ∈ words, word.AllUnits :=
      fun word among => clause_word_units word (List.mem_cons_of_mem "on".toList (within among))
    exact (after_one_of_word words units pair.1 _ member ends).trans (gap.drop _ t starts.head)

-- No condition begins at such a word.
theorem behind_led (word? : Option (Text × Text)) (t left : Text) (leads : Leads words word? t)
    (behind : ∀ gap, Gap gap → behindLead (gap ++ t) = gap ++ left) (gap : Text) (isGap : Gap gap) :
    behindLead (gap ++ led word? t) = gap ++ led word? left := by
  cases word? with
  | none => exact behind gap isGap
  | some pair =>
    obtain ⟨word, further⟩ := pair
    obtain ⟨member, isFurther, ends⟩ := leads word further rfl
    have among := List.mem_cons_of_mem "on".toList (within member)
    have other : ∀ word ∈ linkWords ++ countWords, word ≠ "on" := by decide
    have front := stops_front _ (further ++ t) (trim_end_front _) ends
    have free : afterWord? "on" (word ++ trimEnd (further ++ t)) = none :=
      after_word_unlike "on" word _ (clause_word_units "on" List.mem_cons_self) (clause_word_units word among) front
        (other word (within member))
    rw [led, behind_lead_gap gap word _ isGap (clause_word_filled word among)
      (solid_of_units word (clause_word_units word among)) free, behind further isFurther]
    rfl

end

-- What a clause reads in front of its target.
structure Reading where
  link : Option (Text × Text)
  count : Option (Text × Text)
  left : Text

namespace Reading

def text (reading : Reading) : Text := led reading.link (led reading.count reading.left)

-- The words that the text that is left could still begin with.
def reserved (reading : Reading) : List Text :=
  "on" :: if reading.count.isSome then [] else if reading.link.isSome then countWords else linkWords ++ countWords

structure Stands (reading : Reading) : Prop where
  link : Leads linkWords reading.link (led reading.count reading.left)
  count : Leads countWords reading.count reading.left
  starts : Starts reading.left
  unread : ∀ word ∈ reading.reserved, afterWord? word reading.left = none
  line : '\n' ∉ reading.left

theorem link_within : linkWords ⊆ linkWords ++ countWords := List.subset_append_left _ _
theorem count_within : countWords ⊆ linkWords ++ countWords := List.subset_append_right _ _

variable (reading : Reading) (stands : reading.Stands)

include stands

theorem inner_starts : Starts (led reading.count reading.left) :=
  led_starts countWords count_within _ _ stands.starts stands.count

theorem starts_text : Starts reading.text :=
  led_starts linkWords link_within _ _ (reading.inner_starts stands) stands.link

theorem target_left (gap : Text) (isGap : Gap gap) : target (gap ++ reading.text) = reading.left := by
  have dropped := isGap.drop _ reading.text (reading.starts_text stands).head
  have unbracketed : afterBrackets (gap ++ reading.text) = gap ++ reading.text := by
    obtain ⟨c, rest, text, _, other⟩ := reading.starts_text stands
    rw [afterBrackets, dropped, text]
    split
    · rename_i same
      exact absurd (List.cons.inj same).1 other
    · rfl
  have afterLink : afterOneOf linkWords reading.text = led reading.count reading.left := by
    refine after_led linkWords link_within _ _ (reading.inner_starts stands) stands.link fun nothing word member => ?_
    cases count : reading.count with
    | none =>
      refine stands.unread word (List.mem_cons_of_mem _ ?_)
      rw [nothing, count]
      exact List.mem_append_left _ member
    | some pair =>
      obtain ⟨among, _, ends⟩ := stands.count pair.1 pair.2 count
      have other : ∀ first ∈ linkWords, ∀ second ∈ countWords, second ≠ first := by decide
      exact after_word_unlike word pair.1 _ (clause_word_units word (by simp [clauseWords, member]))
        (clause_word_units pair.1 (by simp [clauseWords, among])) ends (other word member pair.1 among)
  have afterCount : afterOneOf countWords (led reading.count reading.left) = reading.left := by
    refine after_led countWords count_within _ _ stands.starts stands.count fun nothing word member => ?_
    refine stands.unread word (List.mem_cons_of_mem _ ?_)
    rw [nothing]
    cases reading.link with
    | none => exact List.mem_append_right _ member
    | some pair => exact member
  rw [target, unbracketed, dropped]
  exact (congrArg (afterOneOf countWords) afterLink).trans afterCount

end Reading

-- Of the text that is left at least the first word stays in front of a condition.
theorem left_stays (left : Text) (starts : Starts left) (free : afterWord? "on" left = none) :
    ∃ word rest, left = word ++ rest ∧ word ≠ [] ∧ word.Solid ∧ Parted rest ∧
      ∀ gap, Gap gap → behindLead (gap ++ left) = gap ++ (word ++ behindLead rest) := by
  obtain ⟨word, rest, split, first, solid, parted, _⟩ := cut_at_white left
  have filled : word ≠ [] := by
    obtain ⟨c, more, rfl, white, _⟩ := starts
    rw [← first, List.takeWhile_cons_of_pos (by simp [white])]
    exact List.cons_ne_nil _ _
  have onUnits : Text.AllUnits "on" := clause_word_units "on" List.mem_cons_self
  refine ⟨word, rest, split, filled, solid, parted, fun gap isGap => ?_⟩
  rw [split, after_word_parted "on" word rest onUnits parted] at free
  have still :=
    (after_word_parted "on" word (trimEnd rest) onUnits (parted.of_front _ _ (trim_end_front rest))).mpr free
  rw [split, behind_lead_gap gap word rest isGap filled solid still]

theorem head_of_word (gap word a b : Text) (filled : word ≠ []) (test : Char → Bool) :
    (gap ++ (word ++ a)).head?.any test = (gap ++ (word ++ b)).head?.any test := by
  cases gap with
  | nil =>
    obtain ⟨c, word, rfl⟩ := List.exists_cons_of_ne_nil filled
    rfl
  | cons c gap => rfl

theorem Leads.same_head {words : List Text} {word? : Option (Text × Text)} {a b : Text} (leads : Leads words word? a)
    (same : ∀ gap : Text, (gap ++ a).head?.any isWordUnit = (gap ++ b).head?.any isWordUnit) : Leads words word? b := by
  intro word gap found
  obtain ⟨member, isGap, ends⟩ := leads word gap found
  exact ⟨member, isGap, (same gap).symm.trans ends⟩

theorem led_head (word? : Option (Text × Text)) (a b : Text) (test : Char → Bool)
    (same : ∀ gap : Text, (gap ++ a).head?.any test = (gap ++ b).head?.any test) (gap : Text) :
    (gap ++ led word? a).head?.any test = (gap ++ led word? b).head?.any test := by
  cases word? with
  | none => exact same gap
  | some pair =>
    have behind := same (gap ++ (pair.1 ++ pair.2))
    simpa [led] using behind

-- Without its condition the text is read as before, up to the rest of what is left.
theorem Reading.cut (reading : Reading) (stands : reading.Stands) :
    ∃ word rest, reading.left = word ++ rest ∧ word ≠ [] ∧ word.Solid ∧ Parted rest ∧
      ({ reading with left := word ++ behindLead rest } : Reading).Stands ∧
      (∀ gap, (gap ++ reading.text).head?.any isWordUnit =
        (gap ++ ({ reading with left := word ++ behindLead rest } : Reading).text).head?.any isWordUnit) ∧
      ∀ gap, Gap gap → behindLead (gap ++ reading.text) =
        gap ++ ({ reading with left := word ++ behindLead rest } : Reading).text := by
  obtain ⟨word, rest, split, filled, solid, parted, behind⟩ :=
    left_stays reading.left stands.starts (stands.unread "on" List.mem_cons_self)
  have front := behind_lead_front rest
  have head (gap : Text) : (gap ++ reading.left).head?.any isWordUnit =
      (gap ++ (word ++ behindLead rest)).head?.any isWordUnit := by
    rw [split]
    exact head_of_word gap word rest _ filled isWordUnit
  have inner := led_head reading.count reading.left (word ++ behindLead rest) isWordUnit head
  refine ⟨word, rest, split, filled, solid, parted,
    ⟨stands.link.same_head inner, stands.count.same_head head, ?_, ?_, ?_⟩, led_head reading.link _ _ isWordUnit inner,
    fun gap isGap => ?_⟩
  · obtain ⟨c, more, text, white, other⟩ := stands.starts
    obtain ⟨d, word, rfl⟩ := List.exists_cons_of_ne_nil filled
    rw [split, List.cons_append] at text
    obtain ⟨rfl, -⟩ := List.cons.inj text
    exact ⟨d, word ++ behindLead rest, rfl, white, other⟩
  · intro sought member
    have unread := stands.unread sought member
    have among : sought ∈ clauseWords := by
      rcases List.mem_cons.mp member with rfl | later
      · exact List.mem_cons_self
      · apply List.mem_cons_of_mem
        split at later
        · contradiction
        · split at later
          · exact List.mem_append_right _ later
          · exact later
    have units := clause_word_units sought among
    rw [split, after_word_parted sought word rest units parted] at unread
    exact (after_word_parted sought word _ units (parted.of_front _ _ front)).mpr unread
  · have line := stands.line
    rw [split, List.mem_append, not_or] at line
    rw [List.mem_append, not_or]
    exact ⟨line.1, fun member => line.2 (front.subset member)⟩
  · exact behind_led linkWords Reading.link_within reading.link _ _ stands.link
      (behind_led countWords Reading.count_within reading.count _ _ stands.count behind) gap isGap

theorem on_one_line_word (word rest : Text) (filled : word ≠ []) (solid : word.Solid) (line : '\n' ∉ word ++ rest) :
    onOneLine (word ++ rest) = some (word ++ trimEnd rest) := by
  have whole : trimEnd word = word := trim_end_solid [] word filled solid
  rw [onOneLine, if_neg (by simpa using line), trim, trimStart, trim_start_solid word rest filled solid,
    trim_end_append word rest whole]

-- The words that make a relationship.
def relationWords : List (Text × EdgeKind) := [("Composition", .composition), ("Association", .association)]

theorem relation_word_solid : ∀ pair ∈ relationWords, pair.1 ≠ [] ∧ pair.1.Solid := by decide

theorem relationship_word (word : Text) (kind : EdgeKind) (among : (word, kind) ∈ relationWords) (t : Text)
    (ends : t.head?.any isWordUnit = false) :
    relationship? (word ++ t) = (onOneLine (target t)).map (relationship kind) := by
  have found := after_word_self word t ends
  rcases List.mem_pair.mp among with same | same
  · obtain ⟨rfl, rfl⟩ := Prod.mk.inj same
    rw [relationship?, found]
  · obtain ⟨rfl, rfl⟩ := Prod.mk.inj same
    have other : afterWord? "Composition" ("Association".toList ++ t) = none := rfl
    rw [relationship?, found, other]

end TypeClause

namespace Resolution

open Text TypeClause

theorem of_relationship_parted (types : TypeTable) (file : SourceFile) (kind : EdgeKind) (word rest : Text)
    (filled : word ≠ []) (solid : word.Solid) (parted : Parted rest) :
    ofRelationship types file kind (word ++ rest) = ofRelationship types file kind word := by
  have struct : isStruct (word ++ rest) = isStruct word := by
    cases word with
    | nil => contradiction
    | cons c word => rfl
  have named : targetName (word ++ rest) = targetName word := by
    rw [targetName, targetName, first_word word rest filled solid parted, words_of_solid word filled solid]
    rfl
  rw [ofRelationship, ofRelationship, struct, named]

section

variable (types : TypeTable) (file : SourceFile)

theorem resolve_reading (word : Text) (kind : EdgeKind) (among : (word, kind) ∈ relationWords) (gap : Text)
    (isGap : Gap gap) (reading : Reading) (stands : reading.Stands)
    (ends : (gap ++ reading.text).head?.any isWordUnit = false) :
    resolve types file (word ++ (gap ++ reading.text)) = ofRelationship types file kind reading.left := by
  obtain ⟨filled, solid⟩ := relation_word_solid _ among
  obtain ⟨first, rest, split, firstFilled, firstSolid, parted, cutStands, heads, behind⟩ := reading.cut stands
  have behindParted := parted.of_front _ _ ((trim_end_front _).trans (behind_lead_front rest))
  have clause : ofText (word ++ (gap ++ reading.text)) = .relationship kind (first ++ trimEnd (behindLead rest)) := by
    rw [heads gap] at ends
    rw [ofText, solid_stays word _ filled solid, behind gap isGap, relationship_word word kind among _ ends,
      Reading.target_left _ cutStands gap isGap, on_one_line_word first _ firstFilled firstSolid cutStands.line]
    rfl
  rw [resolve, clause, split, of_relationship_parted types file kind first rest firstFilled firstSolid parted]
  exact of_relationship_parted types file kind first _ firstFilled firstSolid behindParted

theorem resolve_array_left (lead : Text) (among : lead ∈ arrayLeads) (gap left : Text) (isGap : Gap gap)
    (starts : Starts left) (free : afterWord? "on" left = none) (line : '\n' ∉ left)
    (ends : (gap ++ left).head?.any isWordUnit = false) :
    resolve types file (lead ++ (gap ++ left)) = ofArray types file left := by
  obtain ⟨first, rest, split, filled, solid, parted, behind⟩ := left_stays left starts free
  have behindParted := parted.of_front _ _ ((trim_end_front _).trans (behind_lead_front rest))
  have dropped : (gap ++ (first ++ behindLead rest)).dropWhile isWhite = first ++ behindLead rest := by
    apply isGap.drop
    obtain ⟨c, more, rfl⟩ := List.exists_cons_of_ne_nil filled
    exact solid c List.mem_cons_self
  have unbroken : '\n' ∉ first ++ behindLead rest := by
    rw [split, List.mem_append, not_or] at line
    rw [List.mem_append, not_or]
    exact ⟨line.1, fun member => line.2 ((behind_lead_front rest).subset member)⟩
  rw [split, head_of_word gap first rest (behindLead rest) filled isWordUnit] at ends
  have clause : ofText (lead ++ (gap ++ left)) = .array (first ++ trimEnd (behindLead rest)) := by
    rw [ofText, lead_stays lead among, behind gap isGap]
    generalize gap ++ (first ++ behindLead rest) = behind at ends dropped
    have unrelated : relationship? (lead ++ behind) = none := by
      rcases List.mem_pair.mp among with rfl | rfl <;> rfl
    have element : afterArray? (lead ++ behind) = some behind := by
      rcases List.mem_pair.mp among with rfl | rfl
      · exact after_word_self "of" behind ends
      · exact after_word_self "many" behind ends
    rw [unrelated, array?, element]
    dsimp only
    rw [dropped, on_one_line_word first _ filled solid unbroken]
    rfl
  rw [resolve, clause, split, of_array_parted types file first rest filled solid parted]
  exact of_array_parted types file first _ filled solid behindParted

theorem relation_of_name (raw name : Text) (read : ofText raw = .name name) :
    (resolve types file raw).relation = none := by
  rw [resolve, read]

end

end Resolution

namespace TypeClause

open Text

-- The words that make a relationship or an array.
def mainWords : List Text := ["Composition", "Association", "array", "many"]

theorem main_word_units (word : Text) (lower : word.asciiLower ∈ mainWords.map asciiLower) :
    word ≠ [] ∧ word.AllUnits := by
  have each : ∀ word ∈ mainWords.map asciiLower, word ≠ [] ∧ word.AllUnits := by decide
  obtain ⟨filled, units⟩ := each _ lower
  exact ⟨fun nothing => filled (congrArg asciiLower nothing), (all_units_lower word).mp units⟩

theorem main_word_unread (word : Text) (lower : word.asciiLower ∈ mainWords.map asciiLower) (other : word ∉ mainWords)
    (sought : Text) (among : sought ∈ mainWords) (t : Text) : after? sought (word ++ t) = none := by
  cases found : after? sought (word ++ t) with
  | none => rfl
  | some rest =>
    rw [after_eq_some_iff] at found
    -- The first two letters tell these words apart.
    have long : ∀ word ∈ mainWords.map asciiLower, 2 ≤ word.length := by decide
    have told : ∀ a ∈ mainWords.map asciiLower, ∀ b ∈ mainWords.map asciiLower, a.take 2 = b.take 2 → a = b := by
      decide
    have soughtLower : sought.asciiLower ∈ mainWords.map asciiLower := List.mem_map_of_mem among
    have lowered := congrArg (List.take 2) (congrArg asciiLower found)
    rw [lower_append, lower_append, List.take_append_of_le_length (long _ lower),
      List.take_append_of_le_length (long _ soughtLower)] at lowered
    have sizes := congrArg List.length (told _ lower _ soughtLower lowered)
    rw [lower_length, lower_length] at sizes
    exact absurd ((List.append_inj_left found sizes) ▸ among) other

theorem of_text_name (word tail : Text) (units : word.AllUnits) (filled : word ≠ [])
    (unrelated : relationship? (word ++ behindLead tail) = none) (single : array? (word ++ behindLead tail) = none) :
    ofText (word ++ tail) = .name (word ++ behindLead tail) := by
  have open? : (word ++ behindLead tail).head? ≠ some '\x7b' := by
    obtain ⟨c, word, rfl⟩ := List.exists_cons_of_ne_nil filled
    have unit := units c List.mem_cons_self
    intro same
    rw [Option.some.inj same] at unit
    contradiction
  rw [ofText, solid_stays word tail filled (solid_of_units word units), unrelated, single]
  exact if_neg open?

theorem of_text_misspelled (word tail : Text) (lower : word.asciiLower ∈ mainWords.map asciiLower)
    (other : word ∉ mainWords) : ofText (word ++ tail) = .name (word ++ behindLead tail) := by
  obtain ⟨filled, units⟩ := main_word_units word lower
  have unread (sought : Text) (among : sought ∈ mainWords) (t : Text) :=
    main_word_unread word lower other sought among t
  apply of_text_name word tail units filled
  · rw [relationship?, afterWord?, unread _ (by decide), afterWord?, unread _ (by decide)]
    rfl
  · rw [array?, afterArray?, unread _ (by decide), afterWord?, unread _ (by decide)]
    rfl

-- An array says so with two words.
theorem of_text_array_misspelled (gap word tail : Text) (isGap : Gap gap) (lower : word.asciiLower = "of")
    (other : word ≠ "of") (ends : tail.head?.any isWordUnit = false) :
    ∃ name, ofText ("array" ++ (gap ++ (word ++ tail))) = .name name := by
  have units : word.AllUnits := (all_units_lower word).mp (lower ▸ clause_word_units "of" (by decide))
  have filled : word ≠ [] := by
    rintro rfl
    contradiction
  have free := after_word_unlike "on" word (trimEnd tail) (clause_word_units "on" List.mem_cons_self) units
    (stops_front _ tail (trim_end_front tail) ends) (fun same => by rw [same] at lower; contradiction)
  have notOf := after_word_unlike "of" word (behindLead tail) (clause_word_units "of" (by decide)) units
    (stops_front _ tail (behind_lead_front tail) ends) other
  have behind := behind_lead_gap gap word tail isGap filled (solid_of_units word units) free
  refine ⟨_, of_text_name "array" _ ?_ (by decide) rfl ?_⟩
  · exact (all_units_lower "array").mp (main_word_units "array" (by decide)).2
  · rw [behind]
    have dropped := isGap.drop gap (word ++ behindLead tail) (starts_of_units word _ filled units).head
    have nothing : afterArray? ("array" ++ (gap ++ (word ++ behindLead tail))) = none := by
      change (if (gap ++ (word ++ behindLead tail)).head?.any isWhite then
        afterWord? "of" ((gap ++ (word ++ behindLead tail)).dropWhile isWhite) else none) = none
      rw [dropped, notOf, ite_self]
    rw [array?, nothing]

end TypeClause

end SchemaDiagram
