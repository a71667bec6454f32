import SchemaDiagram.Proofs.ClauseWords
import SchemaDiagram.Proofs.Naming
import SchemaDiagram.Proofs.NormalPath

/-!
Relationships as they are written: the word that makes one, how many there are in brackets, a word that links and a word
that counts, each of which may be left out, and a dotted path. However much white space parts them, what is read is the
path, which is shown and connected to by its last segment.
-/

set_option autoImplicit false

namespace SchemaDiagram

open Text

def isIdentifier (t : Text) : Bool :=
  !t.isEmpty && t.all (fun c => c.isAlphanum || c = '_') && !t.head?.any Char.isDigit

theorem identifier_units (t : Text) (identifier : isIdentifier t = true) : t ≠ [] ∧ t.AllUnits := by
  simp only [isIdentifier, Bool.and_eq_true, Bool.not_eq_true', List.isEmpty_eq_false_iff] at identifier
  refine ⟨identifier.1.1, fun c member => ?_⟩
  have plain := List.all_eq_true.mp identifier.1.2 c member
  rcases Bool.or_eq_true_iff.mp plain with letter | line
  · exact alphanum_unit c letter
  · rw [of_decide_eq_true line]
    decide

namespace Text

theorem split_last_append (sep : Char) (lead name : Text) (apart : sep ∉ name) :
    splitLast? sep (lead ++ sep :: name) = some (lead, name) := by
  have last := after_last_append sep lead name apart
  have within : ∀ c ∈ name.reverse, decide (c ≠ sep) = true := by
    intro c member
    exact decide_eq_true fun same => apart (same ▸ List.mem_reverse.mp member)
  have stopped : (lead ++ sep :: name).reverse.dropWhile (· ≠ sep) = sep :: lead.reverse := by
    rw [List.reverse_append, List.reverse_cons, List.append_assoc, List.dropWhile_append_of_pos within]
    simp
  rw [splitLast?, stopped, last]
  simp

theorem split_last_whole (sep : Char) (t : Text) (apart : sep ∉ t) : splitLast? sep t = none := by
  have whole : t.reverse.dropWhile (· ≠ sep) = [] := by
    rw [List.dropWhile_eq_nil_iff]
    intro c member
    exact decide_eq_true fun same => apart (same ▸ List.mem_reverse.mp member)
  rw [splitLast?, whole]

-- White space of any kind and length.
def Blank (t : Text) : Prop := ∀ c ∈ t, isWhite c = true

instance (t : Text) : Decidable t.Blank := decidable_of_iff (t.all isWhite = true) List.all_eq_true

theorem Blank.drop (gap t : Text) (blank : gap.Blank) (solid : t.head?.any isWhite = false) :
    (gap ++ t).dropWhile isWhite = t := by
  rw [List.dropWhile_append_of_pos blank]
  cases t with
  | nil => rfl
  | cons c t => exact List.dropWhile_cons_of_neg (by simpa using solid)

theorem Blank.stops (gap t : Text) (blank : gap.Blank) (filled : gap ≠ []) :
    (gap ++ t).head?.any isWordUnit = false := by
  obtain ⟨c, gap, rfl⟩ := List.exists_cons_of_ne_nil filled
  exact white_no_word c (blank c List.mem_cons_self)

-- Whether a text begins with a word, and the word ends there.
def Begins (word t : Text) : Prop := ∃ rest, t = word ++ rest ∧ rest.head?.any isWordUnit = false

theorem Begins.unread (word sought t : Text) (begins : Begins word t) (units : word.AllUnits)
    (letters : sought.AllUnits) (other : word ≠ sought) : afterWord? sought t = none := by
  obtain ⟨rest, rfl, stops⟩ := begins
  exact after_word_unlike sought word rest letters units stops other

end Text

namespace TypeClause

theorem without_condition_gap (gap t : Text) (blank : gap.Blank) (solid : t.head?.any isWhite = false)
    (free : afterWord? "on" t = none) : withoutCondition (gap ++ t) = gap ++ withoutCondition t := by
  induction gap with
  | nil => rfl
  | cons c gap ih =>
    have others : Blank gap := fun d member => blank d (List.mem_cons_of_mem c member)
    rw [List.cons_append, withoutCondition, others.drop gap t solid, isCondition, free]
    simp [ih others]

theorem after_brackets_closed (gap inside t : Text) (blank : gap.Blank) (free : ']' ∉ inside) :
    afterBrackets (gap ++ '[' :: (inside ++ ']' :: t)) = t := by
  have dropped := blank.drop gap ('[' :: (inside ++ ']' :: t)) rfl
  have within : ∀ c ∈ inside, decide (c ≠ ']') = true :=
    fun c member => decide_eq_true fun same => free (same ▸ member)
  have closed : (inside ++ ']' :: t).dropWhile (· ≠ ']') = ']' :: t := by
    rw [List.dropWhile_append_of_pos within, List.dropWhile_cons_of_neg (by decide)]
  rw [afterBrackets, dropped]
  simp only [closed]

-- A text that neither white space nor a condition begins, and that holds no condition.
structure Unconditional (t : Text) : Prop where
  solid : t.head?.any isWhite = false
  free : afterWord? "on" t = none
  whole : withoutCondition t = t

theorem Unconditional.led (word gap t : Text) (filled : word ≠ []) (solid : word.Solid) (blank : gap.Blank)
    (free : afterWord? "on" (word ++ (gap ++ t)) = none) (unconditional : Unconditional t) :
    Unconditional (word ++ (gap ++ t)) := by
  refine ⟨?_, free, ?_⟩
  · obtain ⟨c, word, rfl⟩ := List.exists_cons_of_ne_nil filled
    exact solid c List.mem_cons_self
  · rw [without_condition_solid word _ solid, without_condition_gap gap t blank unconditional.solid unconditional.free,
      unconditional.whole]

def isCountMark (c : Char) : Bool := c.isDigit || c = '.' || c = ',' || c = '*'

theorem count_mark_plain (c : Char) (mark : isCountMark c = true) : isWhite c = false ∧ c ≠ ']' := by
  simp only [isCountMark, Bool.or_eq_true, decide_eq_true_eq] at mark
  rcases mark with ((digit | rfl) | rfl) | rfl
  · have unit := alphanum_unit c (by simp [Char.isAlphanum, digit])
    refine ⟨unit_not_white c unit, ?_⟩
    rintro rfl
    contradiction
  all_goals decide

-- Each part with the white space behind it.
structure Written where
  kind : EdgeKind
  keyword : Text
  gap : Text
  bracket : Option (Text × Text)
  link : Option (Text × Text)
  count : Option (Text × Text)
  qualifier : List Text
  name : Text

namespace Written

def bracketed (part : Text × Text) : Text × Text := ('[' :: part.1 ++ [']'], part.2)

variable (written : Written)

def segments : List Text := written.qualifier ++ [written.name]
def path : Text := ['.'].intercalate written.segments
def counted : Text := led written.count written.path
def linked : Text := led written.link written.counted
def behind : Text := written.gap ++ led (written.bracket.map bracketed) written.linked
def text : Text := written.keyword ++ written.behind

-- One of some words, and white space behind it.
def Part (words : List Text) (part? : Option (Text × Text)) : Prop :=
  ∀ part, part? = some part → part.1 ∈ words ∧ part.2.Blank ∧ part.2 ≠ []

structure Stands (written : Written) : Prop where
  keyword : (written.keyword, written.kind) ∈ relationWords
  blank : written.gap.Blank
  gap : written.gap = [] → written.bracket.isSome = true
  bracket : ∀ part, written.bracket = some part →
    (∀ c ∈ part.1, isCountMark c = true) ∧ part.2.Blank ∧ part.2 ≠ []
  link : Part linkWords written.link
  count : Part countWords written.count
  segments : ∀ segment ∈ written.segments, isIdentifier segment = true
  first : ∀ segment, written.segments.head? = some segment → segment ∉ clauseWords

theorem Part.begins {words : List Text} {part? : Option (Text × Text)} (part : Part words part?) (t : Text)
    (test : Text → Prop) (each : ∀ word ∈ words, test word) (inner : ∃ word, test word ∧ Begins word t) :
    ∃ word, test word ∧ Begins word (led part? t) := by
  cases part? with
  | none => exact inner
  | some pair =>
    obtain ⟨member, blank, filled⟩ := part pair rfl
    exact ⟨pair.1, each pair.1 member, pair.2 ++ t, rfl, blank.stops pair.2 t filled⟩

theorem Part.passed {words : List Text} {part? : Option (Text × Text)} (part : Part words part?) (t : Text)
    (units : ∀ word ∈ words, word.AllUnits) (solid : t.head?.any isWhite = false)
    (unread : ∀ word ∈ words, afterWord? word t = none) : afterOneOf words (led part? t) = t := by
  cases part? with
  | none => exact after_one_of_other words t unread
  | some pair =>
    obtain ⟨member, blank, filled⟩ := part pair rfl
    have read := after_one_of_word words units pair.1 _ member (blank.stops pair.2 t filled)
    exact read.trans (blank.drop pair.2 t solid)

theorem led_end (part? : Option (Text × Text)) (t tail : Text) (ends : tail <:+ t) : tail <:+ led part? t := by
  cases part? with
  | none => exact ends
  | some pair => exact ends.trans ((List.suffix_append pair.2 t).trans (List.suffix_append pair.1 _))

-- In front of its condition a clause could begin with these words.
def isLead (word : Text) : Prop := word ≠ [] ∧ word.AllUnits ∧ word ≠ "on"

theorem isLead.starts (word t : Text) (lead : isLead word) (begins : Begins word t) : Starts t := by
  obtain ⟨rest, rfl, _⟩ := begins
  exact starts_of_units word rest lead.1 lead.2.1

theorem isLead.free (word t : Text) (lead : isLead word) (begins : Begins word t) : afterWord? "on" t = none :=
  begins.unread word "on" t lead.2.1 (clause_word_units "on" List.mem_cons_self) lead.2.2

theorem Part.unconditional {words : List Text} {part? : Option (Text × Text)} (part : Part words part?)
    (each : ∀ word ∈ words, isLead word) (t : Text) (unconditional : Unconditional t) :
    Unconditional (led part? t) := by
  cases part? with
  | none => exact unconditional
  | some pair =>
    obtain ⟨member, blank, filled⟩ := part pair rfl
    have lead := each pair.1 member
    have begins : Begins pair.1 (pair.1 ++ (pair.2 ++ t)) := ⟨_, rfl, blank.stops pair.2 t filled⟩
    exact unconditional.led pair.1 pair.2 t lead.1 (solid_of_units pair.1 lead.2.1) blank (lead.free _ _ begins)

theorem lead_words : ∀ word ∈ linkWords ++ countWords, isLead word := by
  have each : ∀ word ∈ linkWords ++ countWords, word ≠ [] ∧ word.AllUnits ∧ word ≠ "on" := by decide
  exact each

section

variable (stands : written.Stands)

include stands

theorem path_begins : ∃ first, (isLead first ∧ first ∉ clauseWords) ∧ Begins first written.path := by
  obtain ⟨first, others, split⟩ := List.exists_cons_of_ne_nil (List.append_ne_nil_of_right_ne_nil written.qualifier
    (List.cons_ne_nil written.name []))
  change written.segments = first :: others at split
  have reserved := stands.first first (by rw [split, List.head?_cons])
  obtain ⟨filled, units⟩ := identifier_units first (stands.segments first (by simp [split]))
  refine ⟨first, ⟨⟨filled, units, fun same => reserved (same ▸ List.mem_cons_self)⟩, reserved⟩, ?_⟩
  rw [path, split]
  cases others with
  | nil => exact ⟨[], by rw [List.intercalate_singleton, List.append_nil], rfl⟩
  | cons second others =>
    refine ⟨'.' :: ['.'].intercalate (second :: others), ?_, (by decide : isWordUnit '.' = false)⟩
    rw [List.intercalate_cons_cons, List.append_assoc]
    rfl

theorem path_chars (c : Char) (member : c ∈ written.path) : c = '.' ∨ isWordUnit c = true := by
  have units (segment : Text) (among : segment ∈ written.segments) : segment.AllUnits :=
    (identifier_units segment (stands.segments segment among)).2
  rw [path] at member
  generalize written.segments = segments at member units
  induction segments with
  | nil => simp [List.intercalate] at member
  | cons first rest ih =>
    cases rest with
    | nil =>
      rw [List.intercalate_singleton] at member
      exact .inr (units first List.mem_cons_self c member)
    | cons second more =>
      rw [List.intercalate_cons_cons, List.append_assoc, List.mem_append, List.mem_append, List.mem_singleton] at member
      rcases member with inside | dot | later
      · exact .inr (units first List.mem_cons_self c inside)
      · exact .inl dot
      · exact ih later fun segment among => units segment (List.mem_cons_of_mem first among)

theorem path_without (c : Char) (other : c ≠ '.') (mark : isWordUnit c = false) : c ∉ written.path := by
  intro member
  rcases written.path_chars stands c member with dot | unit
  · exact other dot
  · rw [mark] at unit
    contradiction

theorem path_solid : written.path.Solid := by
  intro c member
  rcases written.path_chars stands c member with rfl | unit
  · decide
  · exact unit_not_white c unit

theorem path_filled : written.path ≠ [] := by
  obtain ⟨first, ⟨lead, _⟩, rest, split, _⟩ := written.path_begins stands
  rw [split]
  exact List.append_ne_nil_of_left_ne_nil lead.1 rest

theorem counted_begins : ∃ word, (isLead word ∧ word ∉ linkWords) ∧ Begins word written.counted := by
  have counts : ∀ word ∈ countWords, word ∉ linkWords := by decide
  have each (word : Text) (member : word ∈ countWords) : isLead word ∧ word ∉ linkWords :=
    ⟨lead_words word (List.mem_append_right _ member), counts word member⟩
  refine stands.count.begins _ _ each ?_
  obtain ⟨first, ⟨lead, reserved⟩, begins⟩ := written.path_begins stands
  exact ⟨first, ⟨lead, fun member => reserved (List.mem_cons_of_mem _ (List.mem_append_left _ member))⟩, begins⟩

theorem linked_begins : ∃ word, isLead word ∧ Begins word written.linked := by
  refine stands.link.begins _ _ (fun word member => lead_words word (List.mem_append_left _ member)) ?_
  obtain ⟨word, ⟨lead, _⟩, begins⟩ := written.counted_begins stands
  exact ⟨word, lead, begins⟩

theorem linked_starts : Starts written.linked := by
  obtain ⟨word, lead, begins⟩ := written.linked_begins stands
  exact lead.starts word _ begins

theorem counted_starts : Starts written.counted := by
  obtain ⟨word, ⟨lead, _⟩, begins⟩ := written.counted_begins stands
  exact lead.starts word _ begins

theorem path_starts : Starts written.path := by
  obtain ⟨word, ⟨lead, _⟩, begins⟩ := written.path_begins stands
  exact lead.starts word _ begins

theorem without_bracket : (afterBrackets written.behind).dropWhile isWhite = written.linked := by
  have linked := written.linked_starts stands
  rw [behind]
  cases bracket : written.bracket with
  | none =>
    have dropped := stands.blank.drop written.gap written.linked linked.head
    obtain ⟨c, rest, text, _, other⟩ := linked
    rw [text] at dropped ⊢
    change (afterBrackets (written.gap ++ c :: rest)).dropWhile isWhite = c :: rest
    rw [afterBrackets, dropped]
    split
    · rename_i same
      exact absurd (List.cons.inj same).1 other
    · exact dropped
  | some part =>
    obtain ⟨marks, blank, _⟩ := stands.bracket part bracket
    have inside : ']' ∉ part.1 := fun member => (count_mark_plain ']' (marks ']' member)).2 rfl
    have spelled : led (Option.map bracketed (some part)) written.linked =
        '[' :: (part.1 ++ ']' :: (part.2 ++ written.linked)) := by simp [led, bracketed]
    rw [spelled, after_brackets_closed _ _ _ stands.blank inside]
    exact blank.drop part.2 _ linked.head

theorem target_path : target written.behind = written.path := by
  have afterLink : afterOneOf linkWords written.linked = written.counted := by
    obtain ⟨word, ⟨lead, other⟩, begins⟩ := written.counted_begins stands
    have units : ∀ word ∈ linkWords, word.AllUnits := by decide
    refine stands.link.passed _ units (written.counted_starts stands).head fun sought member => ?_
    exact begins.unread word sought _ lead.2.1 (units sought member) fun same => other (same ▸ member)
  have afterCount : afterOneOf countWords written.counted = written.path := by
    obtain ⟨first, ⟨lead, reserved⟩, begins⟩ := written.path_begins stands
    have units : ∀ word ∈ countWords, word.AllUnits := by decide
    refine stands.count.passed _ units (written.path_starts stands).head fun sought member => ?_
    refine begins.unread first sought _ lead.2.1 (units sought member) fun same => reserved ?_
    rw [same]
    exact List.mem_cons_of_mem _ (List.mem_append_right _ member)
  rw [target, written.without_bracket stands]
  exact (congrArg (afterOneOf countWords) afterLink).trans afterCount

theorem behind_unconditional : withoutCondition written.behind = written.behind := by
  have path : Unconditional written.path := by
    obtain ⟨first, ⟨lead, _⟩, begins⟩ := written.path_begins stands
    have alone := without_condition_solid written.path [] (written.path_solid stands)
    rw [List.append_nil, withoutCondition, List.append_nil] at alone
    exact ⟨(written.path_starts stands).head, lead.free first _ begins, alone⟩
  have counted : Unconditional written.counted :=
    stands.count.unconditional (fun word member => lead_words word (List.mem_append_right _ member)) _ path
  have linked : Unconditional written.linked :=
    stands.link.unconditional (fun word member => lead_words word (List.mem_append_left _ member)) _ counted
  have bracketed : Unconditional (led (written.bracket.map bracketed) written.linked) := by
    cases bracket : written.bracket with
    | none => exact linked
    | some part =>
      obtain ⟨marks, blank, _⟩ := stands.bracket part bracket
      have inside : Solid part.1 := fun c member => (count_mark_plain c (marks c member)).1
      have solid : (Written.bracketed part).1.Solid := Solid.cons '[' (by decide) (inside.append (by decide))
      exact linked.led _ part.2 _ (List.cons_ne_nil _ _) solid blank rfl
  rw [behind, without_condition_gap _ _ stands.blank bracketed.solid bracketed.free, bracketed.whole]

theorem behind_kept : behindLead written.behind = written.behind := by
  have ends : written.path <:+ written.behind :=
    (led_end _ _ _ (led_end _ _ _ (led_end _ _ _ (List.suffix_refl _)))).trans (List.suffix_append _ _)
  obtain ⟨front, split⟩ := ends
  have trimmed : trimEnd written.behind = written.behind := by
    rw [← split]
    exact trim_end_solid front written.path (written.path_filled stands) (written.path_solid stands)
  rw [behindLead, trimmed, written.behind_unconditional stands, trimmed]

theorem behind_ends : written.behind.head?.any isWordUnit = false := by
  by_cases gap : written.gap = []
  · obtain ⟨part, bracket⟩ := Option.isSome_iff_exists.mp (stands.gap gap)
    rw [behind, gap, bracket]
    exact (by decide : isWordUnit '[' = false)
  · exact stands.blank.stops written.gap _ gap

theorem of_written : ofText written.text = .relationship written.kind written.path := by
  obtain ⟨filled, solid⟩ := relation_word_solid _ stands.keyword
  have line : onOneLine written.path = some written.path := by
    have unbroken := written.path_without stands '\n' (by decide) (by decide)
    rw [onOneLine, if_neg (by simpa using unbroken),
      trim_solid _ (written.path_filled stands) (written.path_solid stands)]
  rw [text, ofText, solid_stays written.keyword written.behind filled solid, written.behind_kept stands,
    relationship_word written.keyword written.kind stands.keyword _ (written.behind_ends stands),
    written.target_path stands, line]
  rfl

-- A path of several segments asks for the last in the namespace of the others.
theorem qualified_path : Reference.ofQualified? written.path =
    if written.qualifier = [] then none
    else some ⟨['.'].intercalate written.qualifier, written.name, .pending⟩ := by
  have undotted (segment : Text) (member : segment ∈ written.segments) : segment ≠ [] ∧ '.' ∉ segment := by
    obtain ⟨filled, units⟩ := identifier_units segment (stands.segments segment member)
    exact ⟨filled, fun dot => absurd (units '.' dot) (by decide)⟩
  have name := undotted written.name (by simp [segments])
  rw [path, segments]
  split
  · rename_i alone
    rw [alone, List.nil_append, List.intercalate_singleton, Reference.ofQualified?, split_last_whole '.' _ name.2]
  · rename_i several
    have filled : ['.'].intercalate written.qualifier ≠ [] := by
      obtain ⟨first, others, split⟩ := List.exists_cons_of_ne_nil several
      have firstFilled := (undotted first (by simp [segments, split])).1
      rw [split]
      cases others with
      | nil => rwa [List.intercalate_singleton]
      | cons second more =>
        rw [List.intercalate_cons_cons, List.append_assoc]
        exact List.append_ne_nil_of_left_ne_nil firstFilled _
    rw [intercalate_concat '.' _ several, Reference.ofQualified?, split_last_append '.' _ _ name.2]
    simp [filled, name.1]

end

end Written

end TypeClause

namespace Resolution

open TypeClause

theorem relationship_target (types : TypeTable) (file : SourceFile) (written : Written) (stands : written.Stands)
    (unknown : types.lookup? written.path = none) :
    resolve types file written.text = ⟨written.name, some ⟨written.kind, written.name⟩,
      if 2 ≤ written.segments.length ∧ file.declares written.name = false then
        some ⟨['.'].intercalate written.qualifier, written.name, .pending⟩
      else none⟩ := by
  have filled := written.path_filled stands
  have solid := written.path_solid stands
  have entity : isStruct written.path = false := by
    have brace := written.path_without stands '\x7b' (by decide) (by decide)
    obtain ⟨c, rest, split⟩ := List.exists_cons_of_ne_nil filled
    rw [split, List.mem_cons, not_or] at brace
    simp [split, isStruct, Ne.symm brace.1]
  have bare := without_parameters_none written.path (written.path_without stands '(' (by decide) (by decide))
  have chosen : targetName written.path = written.path := by
    rw [targetName, words_of_solid written.path filled solid]
    exact bare
  have named : ofName types file written.path = (written.name,
      if 2 ≤ written.segments.length ∧ file.declares written.name = false then
        some ⟨['.'].intercalate written.qualifier, written.name, .pending⟩
      else none) := by
    rw [ofName, bare, trim_solid written.path filled solid, unknown, written.qualified_path stands]
    cases qualifier : written.qualifier with
    | nil => simp [qualifier, Written.path, Written.segments]
    | cons first others => cases declared : file.declares written.name <;> simp [qualifier, Written.segments, declared]
  rw [resolve, written.of_written stands]
  simp only [ofRelationship, entity, chosen, named, Bool.false_eq_true, if_false]

-- All the parts that a clause can have, and a path of three segments.
def countedAuthor : Written :=
  ⟨.association, "Association", [], some ("0..*", "\t"), some ("to", "  "), some ("many", "\n "),
    ["shop", "on"], "Author_2"⟩

theorem counted_author_stands : countedAuthor.Stands := by
  constructor
  case bracket =>
    intro part found
    obtain rfl := Option.some.inj found
    exact ⟨List.all_eq_true.mp (by decide), by decide, by decide⟩
  case link =>
    intro part found
    obtain rfl := Option.some.inj found
    decide
  case count =>
    intro part found
    obtain rfl := Option.some.inj found
    decide
  case first =>
    intro segment found
    obtain rfl := Option.some.inj found
    decide
  all_goals decide

theorem counted_author_asked_for :
    countedAuthor.Stands ∧ countedAuthor.text = "Association[0..*]\tto  many\n shop.on.Author_2" ∧
      TypeTable.lookup? {} countedAuthor.path = none ∧
      resolve {} (SourceFile.ofText none []) countedAuthor.text =
        ⟨"Author_2", some ⟨.association, "Author_2"⟩, some ⟨"shop.on", "Author_2", .pending⟩⟩ ∧
      resolve {} (SourceFile.ofText none "type Author_2;") countedAuthor.text =
        ⟨"Author_2", some ⟨.association, "Author_2"⟩, none⟩ := by
  have unknown : TypeTable.lookup? {} countedAuthor.path = none := by decide +kernel
  have elsewhere := relationship_target {} (SourceFile.ofText none []) countedAuthor counted_author_stands unknown
  have beside :=
    relationship_target {} (SourceFile.ofText none "type Author_2;") countedAuthor counted_author_stands unknown
  refine ⟨counted_author_stands, by decide, unknown, ?_, ?_⟩
  · rw [elsewhere, if_pos (by decide +kernel)]
    rfl
  · rw [beside, if_neg (by decide +kernel)]
    rfl

end Resolution

end SchemaDiagram
