import SchemaDiagram.Proofs.ClauseWords
import SchemaDiagram.Proofs.Recasing

/-!
The tokens of a line whose type is a relationship or an array, with its words in any case, and the text that the type
shows of them.
-/

set_option autoImplicit false

namespace SchemaDiagram

open Text TypeClause BodyLine

-- A word of a clause and the white space behind it.
structure Keyword where
  word : Token
  gap : List Token

namespace Keyword

def tokens (keyword : Keyword) : List Token := keyword.word :: keyword.gap

-- A word in any case, which ends in front of the text behind it.
structure Stands (keyword : Keyword) (words : List Text) (behind : Text) : Prop where
  among : ∃ word ∈ words, keyword.word.isWord word = true
  blank : ∀ token ∈ keyword.gap, token.isSpace = true
  ends : keyword.gap = [] → behind.head?.any isWordUnit = false

-- Whether the word is spelled as one of those that are looked for.
def isSpelled (words : List Text) (keyword : Keyword) : Bool := words.elem keyword.word.text

def gapText (keyword : Keyword) : Text := if keyword.gap = [] then [] else [' ']

theorem gap_text (keyword : Keyword) : Gap keyword.gapText := by
  unfold gapText
  split
  · exact .inl rfl
  · exact .inr rfl

-- With a word that may be there, and then stands in front.
def before (keyword? : Option Keyword) (tokens : List Token) : List Token :=
  match keyword? with
  | none => tokens
  | some keyword => keyword.tokens ++ tokens

end Keyword

-- The words of clauses, and what else is no part of a type.
def keywordTexts : List Text := mainWords ++ clauseWords
def silentWords : List Text := ["default", "localized", "null", "not"]

theorem Token.word_of_keyword (token : Token) (word : Text) (among : word ∈ keywordTexts)
    (read : token.isWord word = true) :
    token.kind = .word ∧ token.text.AllUnits ∧ token.text ≠ [] ∧
      ∀ silent ∈ silentWords, token.isWord silent = false := by
  simp only [isWord, Bool.and_eq_true, decide_eq_true_eq] at read
  obtain ⟨kind, lower⟩ := read
  have each : ∀ word ∈ keywordTexts, word.asciiLower ≠ [] ∧ word.asciiLower.AllUnits ∧
      ∀ silent ∈ silentWords, word.asciiLower ≠ silent.asciiLower := by decide
  obtain ⟨filled, units, apart⟩ := each word among
  refine ⟨kind, (all_units_lower token.text).mp (lower ▸ units), ?_, fun silent member => ?_⟩
  · intro nothing
    rw [nothing] at lower
    exact filled lower.symm
  · simp only [isWord, kind, decide_true, Bool.true_and, decide_eq_false_iff_not, lower]
    exact apart silent member

namespace BodyLine

theorem kept_word (conditional : Bool) (depth : Nat) (token : Token) (rest : List Token) (solid : token.kind ≠ .punct)
    (told : ∀ silent ∈ silentWords, token.isWord silent = false) :
    kept conditional depth (token :: rest) = token :: kept conditional depth rest := by
  have word (silent : Text) (member : silent ∈ silentWords) := told silent member
  have equals : token.isPunct '=' = false := by simp [Token.isPunct, solid]
  have level : token.depthAfter depth = depth := by simp [Token.depthAfter, Token.isOpener, Token.isCloser, solid]
  rw [kept, word "default" (by decide), word "localized" (by decide), word "null" (by decide), word "not" (by decide),
    equals, level]
  simp

theorem space_is_no_word (token : Token) (space : token.isSpace = true) :
    token.kind ≠ .punct ∧ ∀ word, token.isWord word = false := by
  rw [Token.isSpace, decide_eq_true_eq] at space
  exact ⟨by simp [space], fun word => by simp [Token.isWord, space]⟩

theorem kept_spaces (conditional : Bool) (depth : Nat) (spaces rest : List Token)
    (blank : ∀ token ∈ spaces, token.isSpace = true) :
    kept conditional depth (spaces ++ rest) = spaces ++ kept conditional depth rest := by
  induction spaces with
  | nil => rfl
  | cons token spaces ih =>
    rw [List.forall_mem_cons] at blank
    obtain ⟨solid, wordless⟩ := space_is_no_word token blank.1
    rw [List.cons_append, kept_word conditional depth token _ solid fun silent _ => wordless silent, ih blank.2]
    rfl

theorem shown_spaces (spaces : List Token) (blank : ∀ token ∈ spaces, token.isSpace = true) :
    ∀ c ∈ spaces.flatMap shown, isWhite c = true := by
  intro c member
  obtain ⟨token, among, inside⟩ := List.mem_flatMap.mp member
  rw [shown, if_pos (blank token among)] at inside
  rw [List.mem_singleton.mp inside]
  decide

theorem type_text_spaces (conditional : Bool) (depth : Nat) (spaces rest : List Token)
    (blank : ∀ token ∈ spaces, token.isSpace = true) :
    normalized (typeText conditional depth (spaces ++ rest)) = normalized (typeText conditional depth rest) := by
  rw [type_text_kept, kept_spaces conditional depth spaces rest blank, List.flatMap_append, ← type_text_kept]
  exact normalized_blank _ _ (shown_spaces spaces blank)

end BodyLine

namespace Keyword

variable (keyword : Keyword) (conditional : Bool) (rest : List Token) (words : List Text)
    (within : words ⊆ keywordTexts) (stands : keyword.Stands words (typeText conditional 0 rest))

include within stands

theorem shape : keyword.word.kind = .word ∧ keyword.word.text.AllUnits ∧ keyword.word.text ≠ [] ∧
    ∀ silent ∈ silentWords, keyword.word.isWord silent = false := by
  obtain ⟨word, member, read⟩ := stands.among
  exact keyword.word.word_of_keyword word (within member) read

theorem type_text : typeText conditional 0 (keyword.tokens ++ rest) =
    keyword.word.text ++ (keyword.gap.flatMap shown ++ typeText conditional 0 rest) := by
  obtain ⟨kind, _, _, told⟩ := keyword.shape conditional rest words within stands
  rw [Keyword.tokens, List.cons_append, type_text_kept, kept_word conditional 0 _ _ (by simp [kind]) told,
    kept_spaces conditional 0 _ _ stands.blank, List.flatMap_cons, List.flatMap_append, ← type_text_kept, shown,
    if_neg (by simp [Token.isSpace, kind])]

theorem starts : Starts (typeText conditional 0 (keyword.tokens ++ rest)) := by
  obtain ⟨_, units, filled, _⟩ := keyword.shape conditional rest words within stands
  rw [keyword.type_text conditional rest words within stands]
  exact starts_of_units _ _ filled units

-- The text of a type from a word of its clause on.
theorem normalized_text (starts : Starts (typeText conditional 0 rest)) :
    normalized (typeText conditional 0 (keyword.tokens ++ rest)) =
      keyword.word.text ++ (keyword.gapText ++ normalized (typeText conditional 0 rest)) := by
  obtain ⟨_, units, filled, _⟩ := keyword.shape conditional rest words within stands
  have solid := solid_of_units _ units
  have text := keyword.type_text conditional rest words within stands
  obtain ⟨c, more, head, white, _⟩ := starts
  have blank := shown_spaces keyword.gap stands.blank
  rw [text, gapText]
  split
  · rename_i nothing
    rw [nothing, List.flatMap_nil, List.nil_append, List.nil_append]
    exact normalized_joined _ _ solid (by rw [head]; exact white) (by rw [head]; exact List.cons_ne_nil _ _)
  · rename_i gap
    obtain ⟨first, others, spaces⟩ := List.exists_cons_of_ne_nil gap
    have firstBlank : shown first = [' '] := if_pos (stands.blank first (by simp [spaces]))
    have parted : Parted (keyword.gap.flatMap shown ++ typeText conditional 0 rest) := by
      intro d leads
      rw [spaces, List.flatMap_cons, firstBlank] at leads
      obtain rfl : ' ' = d := Option.some.inj leads
      decide
    have even := normalized_blank _ (typeText conditional 0 rest) blank
    have wordy : Text.words (keyword.gap.flatMap shown ++ typeText conditional 0 rest) ≠ [] := by
      intro nothing
      obtain ⟨tail, begins⟩ := normalized_head c more white
      rw [head, begins, ← head, normalized, nothing] at even
      exact absurd even (by simp)
    rw [normalized_parted _ _ filled solid parted, if_neg wordy, even]
    rfl

end Keyword

-- The parts of a line whose type is a relationship or an array: the name and the words of the clause, the tokens from
-- the target on, and among them the word that begins a condition.
structure Clause where
  name : List Token
  before : List Token
  main : Keyword
  link : Option Keyword
  count : Option Keyword
  target : List Token
  on : Option Token

namespace Clause

variable (clause : Clause)

def behindLink : List Token := Keyword.before clause.count clause.target
def behindMain : List Token := Keyword.before clause.link clause.behindLink
def tokens : List Token := clause.before ++ (clause.main.tokens ++ clause.behindMain)

def conditional : Bool := clause.tokens.any (·.isWord "on")
def text (tokens : List Token) : Text := typeText clause.conditional 0 tokens
def shown (tokens : List Token) : Text := normalized (clause.text tokens)

def isArray : Bool := clause.main.word.isWord "array" || clause.main.word.isWord "many"

-- What the target cannot begin with, in any case: the text is no target then, but a word that stands in front of one.
def reserved : List Text :=
  "on" :: if clause.isArray || clause.count.isSome then []
    else if clause.link.isSome then countWords else linkWords ++ countWords

-- Whether a word ends in front of a token.
def parts (token : Token) : Bool := token.isSpace || !token.text.head?.any isWordUnit

structure Stands (clause : Clause) (line : Text) : Prop where
  sides : splitAtColon? 0 (code (tokenize line)) = some (clause.name, clause.tokens)
  named : elementName clause.name ≠ []
  before : ∀ token ∈ clause.before, token.isSpace = true
  main : clause.main.Stands mainWords (clause.text clause.behindMain)
  link : ∀ keyword, clause.link = some keyword → keyword.Stands linkWords (clause.text clause.behindLink)
  count : ∀ keyword, clause.count = some keyword → keyword.Stands countWords (clause.text clause.target)
  array : clause.isArray = true → clause.count = none ∧
    clause.link.isSome = clause.main.word.isWord "array" ∧ clause.link.all (·.word.isWord "of") = true
  starts : Starts (clause.text clause.target)
  unread : ∀ word ∈ clause.reserved, afterWord? word (clause.text clause.target).asciiLower = none
  condition : ∀ on, clause.on = some on → on.isWord "on" = true ∧ ∃ front space behind,
    clause.target = front ++ space :: on :: behind ∧ space.isSpace = true ∧ behind.head?.all parts = true

-- Whether the words that make a relationship or an array are spelled as they are looked for.
def found : Bool :=
  clause.main.isSpelled mainWords && (!clause.main.isSpelled ["array"] || clause.link.all (·.isSpelled ["of"]))

-- The tokens from the first word on that is not spelled as it is looked for, or else from the target on.
def unread : List Token :=
  if clause.link.all (·.isSpelled linkWords) then
    if clause.count.all (·.isSpelled countWords) then clause.target else clause.behindLink
  else clause.behindMain

def resolution (types : TypeTable) (file : SourceFile) : Resolution :=
  if clause.main.word.text = "Composition" then
    Resolution.ofRelationship types file .composition (clause.shown clause.unread)
  else if clause.main.word.text = "Association" then
    Resolution.ofRelationship types file .association (clause.shown clause.unread)
  else Resolution.ofArray types file (clause.shown clause.target)

theorem before_starts (keyword? : Option Keyword) (words : List Text) (within : words ⊆ keywordTexts)
    (rest : List Token)
    (each : ∀ keyword, keyword? = some keyword → keyword.Stands words (clause.text rest))
    (starts : Starts (clause.text rest)) : Starts (clause.text (Keyword.before keyword? rest)) := by
  cases keyword? with
  | none => exact starts
  | some keyword => exact keyword.starts clause.conditional rest words within (each keyword rfl)

def ledBy (keyword? : Option Keyword) : Option (Text × Text) :=
  keyword?.map fun keyword => (keyword.word.text, keyword.gapText)

theorem shown_before (keyword? : Option Keyword) (words : List Text) (within : words ⊆ keywordTexts) (rest : List Token)
    (each : ∀ keyword, keyword? = some keyword → keyword.Stands words (clause.text rest))
    (starts : Starts (clause.text rest)) :
    clause.shown (Keyword.before keyword? rest) = led (ledBy keyword?) (clause.shown rest) := by
  cases keyword? with
  | none => rfl
  | some keyword => exact keyword.normalized_text clause.conditional rest words within (each keyword rfl) starts

def reading : Reading :=
  if clause.link.all (·.isSpelled linkWords) then
    if clause.count.all (·.isSpelled countWords) then
      ⟨ledBy clause.link, ledBy clause.count, clause.shown clause.target⟩
    else ⟨ledBy clause.link, none, clause.shown clause.behindLink⟩
  else ⟨none, none, clause.shown clause.behindMain⟩

theorem reading_left : clause.reading.left = clause.shown clause.unread := by
  unfold reading unread
  split
  · split <;> rfl
  · rfl

end Clause

-- White space made even, the first word is the same.
theorem Text.normalized_word (t : Text) (starts : Starts t) : ∃ word rest even, t = word ++ rest ∧
    normalized t = word ++ even ∧ t.takeWhile (!isWhite ·) = word ∧ word ≠ [] ∧ word.Solid ∧ Parted rest ∧
      Parted even := by
  obtain ⟨word, rest, split, first, solid, parted, _⟩ := cut_at_white t
  have filled : word ≠ [] := by
    obtain ⟨c, more, rfl, white, _⟩ := starts
    rw [← first, List.takeWhile_cons_of_pos (by simp [white])]
    exact List.cons_ne_nil _ _
  have even := normalized_parted word rest filled solid parted
  refine ⟨word, rest, _, split, split ▸ even, first, filled, solid, parted, ?_⟩
  split
  · simp [Parted]
  · intro c first
    rw [← Option.some.inj first]
    decide

theorem Text.starts_normalized (t : Text) (starts : Starts t) :
    Starts (normalized t) ∧ ∀ test, (normalized t).head?.any test = t.head?.any test := by
  obtain ⟨c, rest, rfl, white, other⟩ := starts
  obtain ⟨more, head⟩ := normalized_head c rest white
  exact ⟨⟨c, more, head, white, other⟩, fun test => by rw [head]; rfl⟩

theorem Text.unread_normalized (t word : Text) (starts : Starts t) (units : word.AllUnits)
    (unread : afterWord? word t = none) : afterWord? word (normalized t) = none := by
  obtain ⟨first, rest, even, split, whole, _, _, _, parted, evenParted⟩ := normalized_word t starts
  rw [whole, after_word_parted word first even units evenParted]
  rwa [split, after_word_parted word first rest units parted] at unread

namespace Keyword

variable (keyword : Keyword) (words : List Text) (behind : Text) (stands : keyword.Stands words behind)

include stands

theorem ends_shown (starts : Starts behind) : (keyword.gapText ++ normalized behind).head?.any isWordUnit = false := by
  unfold gapText
  split
  · rename_i nothing
    rw [List.nil_append, (starts_normalized behind starts).2]
    exact stands.ends nothing
  · rfl

-- Spelled otherwise, the word is none of those that are looked for in a clause.
theorem unlike (within : words ⊆ clauseWords) (other : keyword.isSpelled words = false) (sought : Text)
    (among : sought ∈ clauseWords) : keyword.word.text ≠ sought := by
  rintro rfl
  obtain ⟨word, member, read⟩ := stands.among
  have small : ∀ word ∈ clauseWords, word.asciiLower = word := by decide
  simp only [Token.isWord, Bool.and_eq_true, decide_eq_true_eq] at read
  have same := read.2
  rw [small _ among, small word (within member)] at same
  rw [isSpelled, same, List.elem_eq_true_of_mem member] at other
  contradiction

end Keyword

namespace Clause

variable (clause : Clause)

theorem leads_by (keyword? : Option Keyword) (words : List Text) (rest : List Token)
    (each : ∀ keyword, keyword? = some keyword → keyword.Stands words (clause.text rest))
    (starts : Starts (clause.text rest)) (spelled : keyword?.all (·.isSpelled words) = true) :
    Leads words (ledBy keyword?) (clause.shown rest) := by
  intro word gap found
  obtain ⟨keyword, same, pair⟩ := Option.map_eq_some_iff.mp found
  obtain ⟨rfl, rfl⟩ := Prod.mk.inj pair
  rw [same] at spelled
  exact ⟨List.mem_of_elem_eq_true spelled, keyword.gap_text, keyword.ends_shown words _ (each keyword same) starts⟩

theorem link_texts : linkWords ⊆ keywordTexts := by decide
theorem count_texts : countWords ⊆ keywordTexts := by decide
theorem main_texts : mainWords ⊆ keywordTexts := by decide

-- No word of a clause begins a text that begins with a word spelled otherwise.
theorem unread_before (keyword? : Option Keyword) (words : List Text) (within : words ⊆ keywordTexts)
    (inside : words ⊆ clauseWords) (rest : List Token)
    (each : ∀ keyword, keyword? = some keyword → keyword.Stands words (clause.text rest))
    (starts : Starts (clause.text rest)) (other : keyword?.all (·.isSpelled words) = false) (sought : Text)
    (among : sought ∈ clauseWords) : afterWord? sought (clause.shown (Keyword.before keyword? rest)) = none := by
  cases keyword? with
  | none => contradiction
  | some keyword =>
    have standing := each keyword rfl
    obtain ⟨_, units, _, _⟩ := keyword.shape clause.conditional rest words within standing
    rw [clause.shown_before (some keyword) words within rest each starts]
    exact after_word_unlike sought _ _ (clause_word_units sought among) units
      (keyword.ends_shown words _ standing starts) (keyword.unlike words _ standing inside other sought among)

section

variable {line : Text} (stands : clause.Stands line)

include stands

theorem starts_behind_link : Starts (clause.text clause.behindLink) :=
  clause.before_starts clause.count countWords count_texts _ stands.count stands.starts

theorem starts_behind_main : Starts (clause.text clause.behindMain) :=
  clause.before_starts clause.link linkWords link_texts _ stands.link (clause.starts_behind_link stands)

theorem shown_behind_link : clause.shown clause.behindLink = led (ledBy clause.count) (clause.shown clause.target) :=
  clause.shown_before clause.count countWords count_texts _ stands.count stands.starts

theorem shown_behind_main : clause.shown clause.behindMain = led (ledBy clause.link) (clause.shown clause.behindLink) :=
  clause.shown_before clause.link linkWords link_texts _ stands.link (clause.starts_behind_link stands)

theorem reading_text : clause.reading.text = clause.shown clause.behindMain := by
  rw [clause.shown_behind_main stands, reading]
  split
  · split
    · rw [clause.shown_behind_link stands]
      rfl
    · rfl
  · exact (clause.shown_behind_main stands)

theorem reading_stands (single : clause.isArray = false) : clause.reading.Stands := by
  have line (tokens : List Token) : '\n' ∉ clause.shown tokens := normalized_lacks '\n' (by decide) (by decide) _
  have reserved (reading : Reading) : reading.reserved ⊆ clauseWords := by
    rw [Reading.reserved, clauseWords]
    refine List.cons_subset_cons _ ?_
    split
    · exact List.nil_subset _
    · split
      · exact Reading.count_within
      · exact List.Subset.refl _
  have begins (tokens : List Token) (starts : Starts (clause.text tokens)) : Starts (clause.shown tokens) :=
    (starts_normalized _ starts).1
  have linkLeads := clause.leads_by clause.link linkWords _ stands.link (clause.starts_behind_link stands)
  unfold reading
  split
  · rename_i linked
    have links := linkLeads linked
    split
    · rename_i counted
      rw [clause.shown_behind_link stands] at links
      refine ⟨links, clause.leads_by clause.count countWords _ stands.count stands.starts counted,
        begins _ stands.starts, fun word member => ?_, line _⟩
      have among := reserved _ member
      apply unread_normalized _ word stands.starts (clause_word_units word among)
      apply after_word_lower
      · have small : ∀ word ∈ clauseWords, word.asciiLower = word := by decide
        exact small word among
      · apply stands.unread
        rw [Clause.reserved, single]
        simpa [Reading.reserved, ledBy] using member
    · rename_i miscounted
      refine ⟨links, leads_nothing _ _, begins _ (clause.starts_behind_link stands),
        fun word member => ?_, line _⟩
      exact clause.unread_before clause.count countWords count_texts (by decide) _ stands.count stands.starts
        (by simpa using miscounted) word (reserved _ member)
  · rename_i mislinked
    refine ⟨leads_nothing _ _, leads_nothing _ _, begins _ (clause.starts_behind_main stands), fun word member => ?_,
      line _⟩
    exact clause.unread_before clause.link linkWords link_texts (by decide) _ stands.link
      (clause.starts_behind_link stands) (by simpa using mislinked) word (reserved _ member)

theorem shown_tokens : clause.shown clause.tokens =
    clause.main.word.text ++ (clause.main.gapText ++ clause.shown clause.behindMain) := by
  rw [shown, text, tokens, type_text_spaces clause.conditional 0 clause.before _ stands.before]
  exact clause.main.normalized_text clause.conditional _ mainWords main_texts stands.main
    (clause.starts_behind_main stands)

theorem ends_main : (clause.main.gapText ++ clause.shown clause.behindMain).head?.any isWordUnit = false :=
  clause.main.ends_shown mainWords _ stands.main (clause.starts_behind_main stands)

theorem main_lower : clause.main.word.text.asciiLower ∈ mainWords.map asciiLower := by
  obtain ⟨word, member, read⟩ := stands.main.among
  simp only [Token.isWord, Bool.and_eq_true, decide_eq_true_eq] at read
  exact read.2 ▸ List.mem_map_of_mem member

-- In front of a word of letters there is white space.
theorem main_gap (keyword : Keyword) (linked : clause.link = some keyword) : clause.main.gapText = [' '] := by
  have begins : (clause.text clause.behindMain).head?.any isWordUnit = true := by
    have standing := stands.link keyword linked
    obtain ⟨_, units, filled, _⟩ := keyword.shape clause.conditional _ linkWords link_texts standing
    rw [behindMain, linked]
    have text := keyword.type_text clause.conditional _ linkWords link_texts standing
    obtain ⟨c, more, word⟩ := List.exists_cons_of_ne_nil filled
    rw [word] at text units
    change (typeText clause.conditional 0 (keyword.tokens ++ clause.behindLink)).head?.any isWordUnit = true
    rw [text]
    exact units c List.mem_cons_self
  have apart := mt stands.main.ends (by simp [begins])
  exact if_neg apart

theorem main_word (word : Text) :
    clause.main.word.isWord word = decide (clause.main.word.text.asciiLower = word.asciiLower) := by
  have kind := (clause.main.shape clause.conditional _ mainWords main_texts stands.main).1
  rw [Token.isWord, kind]
  rfl

theorem array_link (array : clause.main.word.text = "array") :
    ∃ keyword, clause.link = some keyword ∧ keyword.word.text.asciiLower = "of" ∧
      clause.behindLink = clause.target := by
  have read : clause.main.word.isWord "array" = true := by
    rw [clause.main_word stands, array]
    rfl
  obtain ⟨uncounted, linked, each⟩ := stands.array (by rw [Clause.isArray, read, Bool.true_or])
  rw [read] at linked
  obtain ⟨keyword, found⟩ := Option.isSome_iff_exists.mp linked
  rw [found] at each
  simp only [Option.all_some, Token.isWord, Bool.and_eq_true, decide_eq_true_eq] at each
  refine ⟨keyword, found, each.2, ?_⟩
  rw [behindLink, uncounted]
  rfl

theorem many_bare (many : clause.main.word.text = "many") : clause.behindMain = clause.target := by
  have read : clause.main.word.isWord "many" = true ∧ clause.main.word.isWord "array" = false := by
    rw [clause.main_word stands, clause.main_word stands, many]
    decide
  obtain ⟨uncounted, linked, _⟩ := stands.array (by rw [Clause.isArray, read.1, Bool.or_true])
  rw [read.2, Option.isSome_eq_false_iff, Option.isNone_iff_eq_none] at linked
  rw [behindMain, linked, Keyword.before, behindLink, uncounted]
  rfl

theorem shown_array (array : clause.main.word.text = "array") (keyword : Keyword)
    (linked : clause.link = some keyword) :
    clause.shown clause.tokens =
      "array" ++ ([' '] ++ (keyword.word.text ++ (keyword.gapText ++ clause.shown clause.target))) := by
  obtain ⟨_, _, _, plain⟩ := clause.array_link stands array
  rw [clause.shown_tokens stands, clause.main_gap stands keyword linked, clause.shown_behind_main stands, linked,
    plain, array]
  rfl

section

variable (types : TypeTable) (file : SourceFile)

theorem array_left (lead gap : Text) (among : lead ∈ arrayLeads) (isGap : Gap gap)
    (ends : (gap ++ clause.shown clause.target).head?.any isWordUnit = false) :
    Resolution.resolve types file (lead ++ (gap ++ clause.shown clause.target)) =
      Resolution.ofArray types file (clause.shown clause.target) := by
  have free := after_word_lower "on" _ (by decide) (stands.unread "on" List.mem_cons_self)
  exact Resolution.resolve_array_left types file lead among gap _ isGap (starts_normalized _ stands.starts).1
    (unread_normalized _ "on" stands.starts (clause_word_units "on" List.mem_cons_self) free)
    (normalized_lacks '\n' (by decide) (by decide) _) ends

theorem resolve_found (found : clause.found = true) :
    Resolution.resolve types file (clause.shown clause.tokens) = clause.resolution types file := by
  rw [Clause.found, Bool.and_eq_true] at found
  obtain ⟨spelled, second⟩ := found
  have member : clause.main.word.text ∈ mainWords := List.mem_of_elem_eq_true spelled
  have related (kind : EdgeKind) (among : (clause.main.word.text, kind) ∈ relationWords)
      (single : clause.isArray = false) : Resolution.resolve types file (clause.shown clause.tokens) =
        Resolution.ofRelationship types file kind (clause.shown clause.unread) := by
    have ends := clause.ends_main stands
    rw [← clause.reading_text stands] at ends
    rw [clause.shown_tokens stands, ← clause.reading_text stands, ← clause.reading_left]
    exact Resolution.resolve_reading types file _ kind among _ clause.main.gap_text _
        (clause.reading_stands stands single)
      ends
  have arrays := clause.main_word stands "array"
  have manies := clause.main_word stands "many"
  simp only [mainWords, List.mem_cons, List.not_mem_nil, or_false] at member
  rcases member with main | main | main | main
  · rw [main] at arrays manies related
    rw [related .composition (by decide) (by rw [Clause.isArray, arrays, manies]; decide), Clause.resolution,
        if_pos main]
  · rw [main] at arrays manies related
    rw [related .association (by decide) (by rw [Clause.isArray, arrays, manies]; decide), Clause.resolution,
      if_neg (by rw [main]; decide), if_pos main]
  · obtain ⟨keyword, linked, _, plain⟩ := clause.array_link stands main
    have ofSpelled : keyword.word.text = "of" := by
      have array : clause.main.isSpelled ["array"] = true := by
        rw [Keyword.isSpelled, main]
        rfl
      rw [array, linked] at second
      simpa [Keyword.isSpelled] using second
    have ends := keyword.ends_shown linkWords _ (stands.link keyword linked) (clause.starts_behind_link stands)
    rw [plain] at ends
    rw [clause.shown_array stands main keyword linked, ofSpelled, Clause.resolution, if_neg (by rw [main]; decide),
      if_neg (by rw [main]; decide)]
    exact clause.array_left stands types file "array of" keyword.gapText (by decide) keyword.gap_text ends
  · have ends := clause.ends_main stands
    rw [clause.many_bare stands main] at ends
    rw [clause.shown_tokens stands, clause.many_bare stands main, main, Clause.resolution,
      if_neg (by rw [main]; decide), if_neg (by rw [main]; decide)]
    exact clause.array_left stands types file "many" clause.main.gapText (by decide) clause.main.gap_text ends

-- Spelled otherwise the words make no relationship: the type is read as a name.
theorem resolve_unfound (found : clause.found = false) :
    (Resolution.resolve types file (clause.shown clause.tokens)).relation = none := by
  cases spelled : clause.main.isSpelled mainWords with
  | false =>
    have other : clause.main.word.text ∉ mainWords := by
      rw [Keyword.isSpelled, List.elem_eq_mem, decide_eq_false_iff_not] at spelled
      exact spelled
    rw [clause.shown_tokens stands]
    exact Resolution.relation_of_name types file _ _ (of_text_misspelled _ _ (clause.main_lower stands) other)
  | true =>
    rw [Clause.found, spelled, Bool.true_and, Bool.or_eq_false_iff] at found
    obtain ⟨array, other⟩ := found
    have main : clause.main.word.text = "array" := by simpa [Keyword.isSpelled] using array
    obtain ⟨keyword, linked, lower, plain⟩ := clause.array_link stands main
    rw [linked] at other
    have apart : keyword.word.text ≠ "of" := by simpa [Keyword.isSpelled] using other
    have ends := keyword.ends_shown linkWords _ (stands.link keyword linked) (clause.starts_behind_link stands)
    rw [plain] at ends
    obtain ⟨name, read⟩ := of_text_array_misspelled [' '] keyword.word.text _ (.inr rfl) lower apart ends
    rw [clause.shown_array stands main keyword linked]
    exact Resolution.relation_of_name types file _ name read

end

end

end Clause

end SchemaDiagram
