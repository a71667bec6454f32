import SchemaDiagram.Proofs.KeywordCase
import SchemaDiagram.Proofs.Seams

/-!
The words in front of an element's name. They are left out wherever they stand in front of the colon, in any case and
any number, and what is left of the name side is the name. An element that has one of them for its name is left without
one, so nothing is read of it.
-/

set_option autoImplicit false

namespace SchemaDiagram

open Scan BodyLine

-- A word that marks an element, with the blanks behind it.
structure Modifier where
  word : Text
  gap : Text

namespace Modifier

def text (modifier : Modifier) : Text := modifier.word ++ modifier.gap

structure Stands (modifier : Modifier) : Prop where
  among : modifier.word.asciiLower ∈ nameKeywords
  filled : modifier.gap ≠ []
  blank : ∀ c ∈ modifier.gap, isBlank c = true

end Modifier

-- The name of a type, and what stands in the parentheses behind it.
structure PlainType where
  name : Text
  parameters : Option Text

namespace PlainType

def text (type : PlainType) : Text := type.name ++ type.parameters.elim [] fun inner => '(' :: (inner ++ [')'])

-- A character that begins neither a remark nor a literal, ends no clause and is no bracket.
def isFlat (c : Char) : Bool := !(['/', '@', '\'', ';'].elem c) && !opens c && !closes c

structure Stands (type : PlainType) : Prop where
  filled : type.name ≠ []
  word : type.name.all isWordChar = true
  told : type.name.asciiLower ∉ silentWords
  flat : ∀ inner ∈ type.parameters, ∀ c ∈ inner, isFlat c = true

-- No parameter is a word that types are read without.
def Told (type : PlainType) : Prop :=
  ∀ inner ∈ type.parameters, ∀ token ∈ tokenize inner, token.isWord "localized" = false ∧ token.isWord "null" = false

end PlainType

def elementLine (modifiers : List Modifier) (name : Text) (type : PlainType) : Text :=
  modifiers.flatMap Modifier.text ++ (name ++ (" : " ++ type.text))

/-! The tokens of the line. -/

theorem tokens_gap (start : Nat) (gap rest : Text) (filled : gap ≠ []) (blank : ∀ c ∈ gap, isBlank c = true)
    (stops : rest.head?.any isBlank = false) :
    tokensFrom start (gap ++ rest) = ⟨.space, gap, start⟩ :: tokensFrom (start + gap.byteSize) rest := by
  obtain ⟨c, front, rfl⟩ := List.exists_cons_of_ne_nil filled
  obtain ⟨first, others⟩ := List.forall_mem_cons.mp blank
  have read := Cut.blank c (front ++ rest) first
  rw [drop_while_front isBlank front rest others stops] at read
  exact tokens_of_cut start c front rest .space read

theorem tokens_plain (start : Nat) (c : Char) (rest : Text) (plain : isPlain c = true) :
    tokensFrom start (c :: rest) = ⟨.punct, [c], start⟩ :: tokensFrom (start + Text.byteSize [c]) rest :=
  tokens_of_cut start c [] rest .punct (.plain c rest plain)

-- In front of a word no white space goes on.
theorem word_not_blank (word rest : Text) (filled : word ≠ []) (all : word.all isWordChar = true) :
    (word ++ rest).head?.any isBlank = false := by
  obtain ⟨c, word, rfl⟩ := List.exists_cons_of_ne_nil filled
  rw [List.all_cons, Bool.and_eq_true] at all
  exact (word_char_apart c all.1).1

theorem gap_ends_word (gap rest : Text) (filled : gap ≠ []) (blank : ∀ c ∈ gap, isBlank c = true) :
    (gap ++ rest).head?.any isWordChar = false := by
  obtain ⟨c, gap, rfl⟩ := List.exists_cons_of_ne_nil filled
  exact (blank_tests c (blank c List.mem_cons_self)).1

theorem name_keyword_word (word : Text) (among : word.asciiLower ∈ nameKeywords) :
    word ≠ [] ∧ word.all isWordChar = true := by
  have each : ∀ keyword ∈ nameKeywords, keyword ≠ [] ∧ keyword.all isWordChar = true := by decide
  obtain ⟨filled, all⟩ := each _ among
  refine ⟨?_, ?_⟩
  · rintro rfl
    exact filled rfl
  · rw [Text.asciiLower, List.all_map] at all
    rw [← all]
    exact congrArg word.all (funext fun c => (word_char_lower c).symm)

theorem name_keyword_iff (token : Token) (word : token.kind = .word) :
    isNameKeyword token = true ↔ token.text.asciiLower ∈ nameKeywords := by
  have small : ∀ keyword ∈ nameKeywords, keyword.asciiLower = keyword := by decide
  simp only [isNameKeyword, Token.isWord, word, decide_true, Bool.true_and, List.any_eq_true, decide_eq_true_eq]
  constructor
  · rintro ⟨keyword, member, same⟩
    rwa [same, small keyword member]
  · intro member
    exact ⟨_, member, (small _ member).symm⟩

-- A token that no name is made of: a word that marks an element, or white space.
def Token.Mute (token : Token) : Prop :=
  token.kind = .word ∧ isNameKeyword token = true ∨ token.kind = .space ∧ ∀ c ∈ token.text, isBlank c = true

theorem modifier_tokens (modifiers : List Modifier) (each : ∀ modifier ∈ modifiers, modifier.Stands) (rest : Text)
    (begins : rest.head?.any isBlank = false) (start : Nat) :
    ∃ marks stop, tokensFrom start (modifiers.flatMap Modifier.text ++ rest) = marks ++ tokensFrom stop rest ∧
      ∀ token ∈ marks, token.Mute := by
  induction modifiers generalizing start with
  | nil => exact ⟨[], start, rfl, by simp⟩
  | cons modifier modifiers ih =>
    obtain ⟨stands, others⟩ := List.forall_mem_cons.mp each
    obtain ⟨filled, letters⟩ := name_keyword_word modifier.word stands.among
    obtain ⟨marks, stop, read, mute⟩ := ih others (start + modifier.word.byteSize + modifier.gap.byteSize)
    have solid : (modifiers.flatMap Modifier.text ++ rest).head?.any isBlank = false := by
      cases modifiers with
      | nil => exact begins
      | cons second more =>
        obtain ⟨filled, letters⟩ := name_keyword_word second.word (others second List.mem_cons_self).among
        rw [List.flatMap_cons, Modifier.text, List.append_assoc, List.append_assoc]
        exact word_not_blank second.word _ filled letters
    refine ⟨⟨.word, modifier.word, start⟩ :: ⟨.space, modifier.gap, start + modifier.word.byteSize⟩ :: marks, stop,
      ?_, ?_⟩
    · have ends := gap_ends_word modifier.gap (modifiers.flatMap Modifier.text ++ rest) stands.filled stands.blank
      rw [List.flatMap_cons, Modifier.text, List.append_assoc, List.append_assoc,
        tokens_word start modifier.word _ filled letters ends,
        tokens_gap _ modifier.gap _ stands.filled stands.blank solid, read]
      rfl
    · have marked : isNameKeyword ⟨.word, modifier.word, start⟩ = true := (name_keyword_iff _ rfl).mpr stands.among
      exact List.forall_mem_cons.mpr
        ⟨.inl ⟨rfl, marked⟩, List.forall_mem_cons.mpr ⟨.inr ⟨rfl, stands.blank⟩, mute⟩⟩

-- A token that is no remark, ends no clause, and opens and closes nothing.
structure Token.Flat (token : Token) : Prop where
  remark : token.isRemark = false
  clause : token.isPunct ';' = false
  opener : token.isOpener = false
  closer : token.isCloser = false

namespace Token.Flat

theorem of_solid (token : Token) (solid : token.kind = .space ∨ token.kind = .word) : token.Flat := by
  constructor <;> rcases solid with kind | kind <;>
    simp [Token.isRemark, Token.isPunct, Token.isOpener, Token.isCloser, kind]

theorem level (token : Token) (flat : token.Flat) (depth : Nat) : token.depthAfter depth = depth := by
  rw [Token.depthAfter, flat.opener, flat.closer]
  rfl

end Token.Flat

-- The tokens of the parameters stay as they are in front of the parenthesis that closes them.
theorem parameter_tokens (inner : Text) (flat : ∀ c ∈ inner, PlainType.isFlat c = true) (start : Nat) :
    tokensFrom start (inner ++ [')']) = tokensFrom start inner ++ [⟨.punct, [')'], start + inner.byteSize⟩] ∧
      ∀ token ∈ tokensFrom start inner, token.Flat := by
  induction inner using text_induction generalizing start with
  | nil =>
    have nothing : tokensFrom start [] = [] := by rw [tokensFrom]
    have single := tokens_plain start ')' [] (by decide)
    rw [tokensFrom] at single
    exact ⟨by rw [nothing]; exact single, by simp [nothing]⟩
  | token c front rest kind cut ih =>
    obtain ⟨first, others⟩ := List.forall_mem_cons.mp flat
    simp only [PlainType.isFlat, Bool.and_eq_true, Bool.not_eq_true', List.elem_eq_mem, decide_eq_false_iff_not,
      List.mem_cons, not_or] at first
    obtain ⟨⟨⟨slash, tag, quote, semicolon, _⟩, opener⟩, closer⟩ := first
    obtain ⟨read, behind⟩ := ih (fun d member => others d (List.mem_append_right front member))
      (start + Text.byteSize (c :: front))
    have stays (test : Char → Bool) (closes : test ')' = false) :
        rest.head?.any test = false → (rest ++ [')']).head?.any test = false := by
      intro stops
      cases rest with
      | nil => exact closes
      | cons d rest => exact stops
    have again : Cut c (front ++ (rest ++ [')'])) kind (rest ++ [')']) ∧ Token.Flat ⟨kind, c :: front, start⟩ := by
      generalize whole : front ++ rest = t at cut
      cases cut with
      | blank _ _ blank =>
        have passed := drop_while_again isBlank front _ _ (by rw [whole]) (stays isBlank (by decide))
        have read := Cut.blank c (front ++ (t.dropWhile isBlank ++ [')'])) blank
        rw [passed] at read
        exact ⟨read, .of_solid _ (.inl rfl)⟩
      | word _ _ word =>
        have passed := drop_while_again isWordChar front _ _ (by rw [whole]) (stays isWordChar (by decide))
        have read := Cut.word c (front ++ (t.dropWhile isWordChar ++ [')'])) word
        rw [passed] at read
        exact ⟨read, .of_solid _ (.inr rfl)⟩
      | plain _ _ plain =>
        obtain rfl : front = [] := List.append_left_eq_self.mp whole
        refine ⟨.plain c _ plain, rfl, ?_, ?_, ?_⟩
        · simp [Token.isPunct, semicolon]
        · simp [Token.isOpener, opener]
        · simp [Token.isCloser, closer]
      | comment => exact absurd rfl slash
      | slash => exact absurd rfl slash
      | tag => exact absurd rfl tag
      | literal => exact absurd rfl quote
    have size : Text.byteSize (c :: (front ++ rest)) = Text.byteSize (c :: front) + rest.byteSize :=
      Text.byte_size_append (c :: front) rest
    refine ⟨?_, ?_⟩
    · rw [tokens_of_cut start c front rest kind cut, List.cons_append, List.append_assoc,
        tokens_of_cut start c front _ kind again.1, read, size, Nat.add_assoc]
      rfl
    · rw [tokens_of_cut start c front rest kind cut]
      exact List.forall_mem_cons.mpr ⟨again.2, behind⟩

/-! What is read of these tokens. -/

namespace BodyLine

theorem element_name_mute (marks tokens : List Token) (mute : ∀ token ∈ marks, token.Mute) :
    elementName (marks ++ tokens) = elementName tokens := by
  induction marks with
  | nil => rfl
  | cons token marks ih =>
    obtain ⟨first, others⟩ := List.forall_mem_cons.mp mute
    rw [List.cons_append, ← ih others, elementName, elementName]
    rcases first with ⟨_, keyword⟩ | ⟨_, blank⟩
    · rw [List.filter_cons_of_neg (by simp [keyword])]
    · have letterless : token.text.filter Char.isAlpha = [] := by
        rw [List.filter_eq_nil_iff]
        intro c member
        have among := blank c member
        simp only [isBlank, Bool.or_eq_true, decide_eq_true_eq] at among
        rcases among with ((rfl | rfl) | rfl) | rfl <;> decide
      rw [List.filter_cons]
      split
      · rw [List.flatMap_cons, List.filter_append, letterless, List.nil_append]
      · rfl

-- Behind what marks it, a name is read whole, or not at all where it is itself a word that marks.
theorem element_name_behind (marks : List Token) (name : Text) (space : Token) (start : Nat)
    (mute : ∀ token ∈ marks, token.Mute) (letters : ∀ c ∈ name, c.isAlpha = true) (blank : space.Mute) :
    elementName (marks ++ [⟨.word, name, start⟩, space]) = if name.asciiLower ∈ nameKeywords then [] else name := by
  have nothing : elementName [space] = [] := element_name_mute [space] [] (List.forall_mem_singleton.mpr blank)
  have told := name_keyword_iff ⟨.word, name, start⟩ rfl
  rw [element_name_mute marks _ mute]
  split
  · rename_i keyword
    exact (element_name_mute [_] [space] (List.forall_mem_singleton.mpr (.inl ⟨rfl, told.mpr keyword⟩))).trans nothing
  · rename_i other
    have seen : isNameKeyword ⟨.word, name, start⟩ = false := Bool.eq_false_iff.mpr (mt told.mp other)
    have whole : name.filter Char.isAlpha = name := List.filter_eq_self.mpr letters
    rw [elementName] at nothing ⊢
    rw [List.filter_cons_of_pos (by simp [seen]), List.flatMap_cons, List.filter_append, nothing, List.append_nil,
      whole]

theorem code_flat (tokens : List Token) (flat : ∀ token ∈ tokens, token.isRemark = false ∧ token.isPunct ';' = false) :
    code tokens = tokens := by
  rw [code, List.filter_eq_self]
  intro token member
  rw [(flat token member).1, (flat token member).2]
  rfl

theorem split_at_first (front : List Token) (colon : Token) (behind : List Token) (isColon : colon.isPunct ':' = true)
    (solid : ∀ token ∈ front, token.kind ≠ .punct) :
    splitAtColon? 0 (front ++ colon :: behind) = some (front, behind) := by
  induction front with
  | nil => rw [List.nil_append, splitAtColon?, isColon]; rfl
  | cons token front ih =>
    obtain ⟨first, others⟩ := List.forall_mem_cons.mp solid
    have level : token.depthAfter 0 = 0 := by simp [Token.depthAfter, Token.isOpener, Token.isCloser, first]
    have other : token.isPunct ':' = false := by simp [Token.isPunct, first]
    rw [List.cons_append, splitAtColon?, other, level, ih others]
    rfl

theorem next_not_null (tokens : List Token) (told : ∀ token ∈ tokens, token.isWord "null" = false) :
    nextIsNull tokens = false := by
  rw [nextIsNull]
  cases found : tokens.find? (!·.isSpace) with
  | none => rfl
  | some token => exact told token (List.mem_of_find?_eq_some found)

-- In brackets nothing ends a type.
theorem kept_inside (conditional : Bool) (depth : Nat) (tokens : List Token) (close : Token)
    (flat : ∀ token ∈ tokens, token.Flat)
    (told : ∀ token ∈ tokens, token.isWord "localized" = false ∧ token.isWord "null" = false)
    (punct : close.kind = .punct) :
    kept conditional (depth + 1) (tokens ++ [close]) = tokens ++ [close] := by
  have wordless (word : Text) : close.isWord word = false := by simp [Token.isWord, punct]
  induction tokens with
  | nil => simp [kept, wordless]
  | cons token tokens ih =>
    obtain ⟨firstFlat, others⟩ := List.forall_mem_cons.mp flat
    obtain ⟨⟨localized, null⟩, othersTold⟩ := List.forall_mem_cons.mp told
    have notNull : nextIsNull (tokens ++ [close]) = false := by
      refine next_not_null _ (List.forall_mem_append.mpr ⟨fun other member => (othersTold other member).2, ?_⟩)
      exact List.forall_mem_singleton.mpr (wordless "null")
    rw [List.cons_append, kept, localized, null, notNull, firstFlat.level, ih others othersTold]
    simp

theorem kept_opened (conditional : Bool) (start : Nat) (tokens : List Token) :
    kept conditional 0 (⟨.punct, ['('], start⟩ :: tokens) = ⟨.punct, ['('], start⟩ :: kept conditional 1 tokens := by
  simp [kept, Token.isWord, Token.isPunct, Token.depthAfter, Token.isOpener, opens]

-- Each stretch of white space is shown as one blank, which parts the same words.
theorem words_shown (tokens : List Token) (formed : ∀ token ∈ tokens, token.Formed) (front : Text) :
    Text.words (front ++ tokens.flatMap shown) = Text.words (front ++ untokenize tokens) := by
  induction tokens generalizing front with
  | nil => rfl
  | cons token tokens ih =>
    obtain ⟨first, others⟩ := List.forall_mem_cons.mp formed
    rw [List.flatMap_cons, untokenize, List.flatMap_cons, shown]
    split
    · rename_i space
      have white := first.space (by simpa [Token.isSpace] using space)
      have behind := ih others []
      have blank : ∀ c ∈ [' '], isWhite c = true := List.all_eq_true.mp (by decide)
      rw [Text.words_gap front [' '] _ (by simp) blank, Text.words_gap front token.text _ first.filled white]
      exact congrArg (Text.words front ++ ·) behind
    · rw [← List.append_assoc, ih others, List.append_assoc]
      rfl

end BodyLine

namespace PlainType

variable (type : PlainType) (stands : type.Stands)

include stands

theorem name_told (start : Nat) : ∀ silent ∈ silentWords, Token.isWord silent ⟨.word, type.name, start⟩ = false := by
  have small : ∀ silent ∈ silentWords, silent.asciiLower = silent := by decide
  intro silent member
  refine decide_eq_false fun same => stands.told ?_
  rw [small silent member] at same
  exact same ▸ member

theorem tokens (start : Nat) : ∃ behind, tokensFrom start type.text = ⟨.word, type.name, start⟩ :: behind ∧
    (∀ token ∈ behind, token.isRemark = false ∧ token.isPunct ';' = false) ∧
    (type.Told → ∀ conditional, kept conditional 0 behind = behind) := by
  cases parameters : type.parameters with
  | none =>
    have single := tokens_word start type.name [] stands.filled stands.word rfl
    rw [List.append_nil, tokensFrom] at single
    refine ⟨[], ?_, by simp, fun _ conditional => rfl⟩
    rw [text, parameters, Option.elim_none, List.append_nil, single]
  | some inner =>
    have member : inner ∈ type.parameters := parameters
    obtain ⟨read, flat⟩ := parameter_tokens inner (stands.flat inner member)
      (start + type.name.byteSize + Text.byteSize ['('])
    generalize close : (⟨.punct, [')'], _⟩ : Token) = last at read
    have punct : last.kind = .punct := by rw [← close]
    have unread : last.isRemark = false ∧ last.isPunct ';' = false := by
      rw [← close]
      exact ⟨rfl, rfl⟩
    refine ⟨⟨.punct, ['('], start + type.name.byteSize⟩ ::
      (tokensFrom (start + type.name.byteSize + Text.byteSize ['(']) inner ++ [last]), ?_, ?_, ?_⟩
    · rw [text, parameters, Option.elim_some,
        tokens_word start type.name ('(' :: _) stands.filled stands.word rfl,
        tokens_plain _ '(' _ (by decide), read]
    · refine List.forall_mem_cons.mpr ⟨⟨rfl, rfl⟩, List.forall_mem_append.mpr ⟨fun token member => ?_, ?_⟩⟩
      · exact ⟨(flat token member).remark, (flat token member).clause⟩
      · exact List.forall_mem_singleton.mpr unread
    · intro told conditional
      have inside := kept_inside conditional 0 _ last flat (fun token among => ?_) punct
      · rw [kept_opened, inside]
      · rw [tokens_from_start] at among
        obtain ⟨other, within, rfl⟩ := List.mem_map.mp among
        exact told inner member other within

theorem element_type (start : Nat) (space : Token) (blank : space.isSpace = true) :
    elementType (space :: tokensFrom start type.text) ≠ [] ∧
      (type.Told → elementType (space :: tokensFrom start type.text) = type.text.normalized) := by
  obtain ⟨behind, read, _, all⟩ := type.tokens stands start
  generalize conditional : (space :: tokensFrom start type.text).any (·.isWord "on") = on
  have shown : elementType (space :: tokensFrom start type.text) =
      Text.normalized ((kept on 0 (tokensFrom start type.text)).flatMap shown) := by
    have skipped := type_text_spaces on 0 [space] (tokensFrom start type.text) (by simpa using blank)
    rw [elementType, conditional, ← type_text_kept]
    exact skipped
  rw [shown, read, kept_word on 0 _ _ (by simp) (type.name_told stands start)]
  refine ⟨?_, fun told => ?_⟩
  · obtain ⟨c, name, same⟩ := List.exists_cons_of_ne_nil stands.filled
    have word := stands.word
    rw [same, List.all_cons, Bool.and_eq_true] at word
    obtain ⟨more, begins⟩ := Text.normalized_head c (name ++ (kept on 0 behind).flatMap BodyLine.shown)
      (word_char_not_white c word.1)
    rw [List.flatMap_cons, BodyLine.shown, if_neg (by simp [Token.isSpace]), same]
    exact begins ▸ List.cons_ne_nil c more
  · have same := words_shown _ (Token.formed start type.text) []
    rw [List.nil_append, List.nil_append, untokenize_tokens_from] at same
    rw [all told, ← read, Text.normalized, Text.normalized, same]

end PlainType

-- The name side of the line, its colon, and the type behind a blank.
theorem element_line_tokens (modifiers : List Modifier) (name : Text) (type : PlainType)
    (each : ∀ modifier ∈ modifiers, modifier.Stands) (filled : name ≠ []) (word : name.all isWordChar = true)
    (stands : type.Stands) :
    ∃ marks start stop, tokenize (elementLine modifiers name type) =
        (marks ++ [⟨.word, name, start⟩, ⟨.space, [' '], start + name.byteSize⟩]) ++
          ⟨.punct, [':'], start + name.byteSize + 1⟩ :: ⟨.space, [' '], stop⟩ :: tokensFrom (stop + 1) type.text ∧
      ∀ token ∈ marks, token.Mute := by
  obtain ⟨marks, start, front, mute⟩ := modifier_tokens modifiers each (name ++ (" : " ++ type.text))
    (word_not_blank name _ filled word) 0
  have solid : type.text.head?.any isBlank = false := word_not_blank type.name _ stands.filled stands.word
  refine ⟨marks, start, start + name.byteSize + 1 + Text.byteSize [':'], ?_, mute⟩
  rw [tokenize, elementLine, front, tokens_word start name _ filled word rfl]
  change marks ++ _ :: tokensFrom _ (' ' :: ':' :: ' ' :: type.text) = _
  rw [tokens_blank _ (':' :: _) rfl, tokens_plain _ ':' _ (by decide), tokens_blank _ type.text solid,
    List.append_assoc]
  rfl

-- No token of the line is left out of what is read, and its only colon in front of the type parts the two sides.
theorem element_line_sides (modifiers : List Modifier) (name : Text) (type : PlainType)
    (each : ∀ modifier ∈ modifiers, modifier.Stands) (filled : name ≠ []) (word : name.all isWordChar = true)
    (stands : type.Stands) :
    ∃ marks start stop, splitAtColon? 0 (code (tokenize (elementLine modifiers name type))) =
        some (marks ++ [⟨.word, name, start⟩, ⟨.space, [' '], start + name.byteSize⟩],
          ⟨.space, [' '], stop⟩ :: tokensFrom (stop + 1) type.text) ∧
      ∀ token ∈ marks, token.Mute := by
  obtain ⟨marks, start, stop, whole, mute⟩ := element_line_tokens modifiers name type each filled word stands
  obtain ⟨behind, typeTokens, seen, _⟩ := type.tokens stands (stop + 1)
  have front : ∀ token ∈ marks ++ [⟨.word, name, start⟩, ⟨.space, [' '], start + name.byteSize⟩],
      token.kind = .space ∨ token.kind = .word := by
    refine List.forall_mem_append.mpr ⟨fun token member => ?_, by simp⟩
    exact (mute token member).elim (fun word => .inr word.1) fun space => .inl space.1
  have unseen : ∀ token ∈ tokenize (elementLine modifiers name type),
      token.isRemark = false ∧ token.isPunct ';' = false := by
    rw [whole, typeTokens]
    refine List.forall_mem_append.mpr ⟨fun token member => ?_, ?_⟩
    · have flat := Token.Flat.of_solid token (front token member)
      exact ⟨flat.remark, flat.clause⟩
    · exact List.forall_mem_cons.mpr ⟨⟨rfl, rfl⟩, List.forall_mem_cons.mpr ⟨⟨rfl, rfl⟩,
        List.forall_mem_cons.mpr ⟨⟨rfl, rfl⟩, seen⟩⟩⟩
  refine ⟨marks, start, stop, ?_, mute⟩
  rw [code_flat _ unseen, whole]
  exact split_at_first _ _ _ rfl fun token member => by rcases front token member with kind | kind <;> simp [kind]

-- What the line of an element is read as, with the words that mark it in front of its name.
theorem modifiers_stripped (modifiers : List Modifier) (name : Text) (type : PlainType)
    (each : ∀ modifier ∈ modifiers, modifier.Stands) (filled : name ≠ []) (letters : ∀ c ∈ name, c.isAlpha = true)
    (stands : type.Stands) :
    (name.asciiLower ∈ nameKeywords → BodyLine.read (elementLine modifiers name type) = .skip .unusable) ∧
      (name.asciiLower ∉ nameKeywords → ∃ raw, BodyLine.read (elementLine modifiers name type) = .element name raw ∧
        (type.Told → raw = type.text.normalized)) := by
  have word : name.all isWordChar = true := by
    rw [List.all_eq_true]
    exact fun c member => alphanum_word_char c (by rw [Char.isAlphanum, letters c member, Bool.true_or])
  obtain ⟨marks, start, stop, sides, mute⟩ := element_line_sides modifiers name type each filled word stands
  have blank : ∀ c ∈ [' '], isBlank c = true := List.all_eq_true.mp (by decide)
  have named := element_name_behind marks name ⟨.space, [' '], start + name.byteSize⟩ start mute letters
    (.inr ⟨rfl, blank⟩)
  obtain ⟨typed, told⟩ := type.element_type stands (stop + 1) ⟨.space, [' '], stop⟩ rfl
  refine ⟨fun keyword => ?_, fun other => ?_⟩
  · rw [if_pos keyword] at named
    rw [read_sides _ _ _ sides, ofSides, named]
    rfl
  · rw [if_neg other] at named
    refine ⟨_, ?_, told⟩
    rw [read_of_sides _ _ _ sides (by rw [named]; exact filled) typed, named]

def decimal : PlainType := ⟨"Decimal", some "9, 2"⟩

theorem isbn_named :
    ((∀ modifier ∈ ([⟨"KEY", " "⟩, ⟨"virtual", "\t "⟩] : List Modifier), modifier.Stands) ∧ decimal.Stands) ∧
      BodyLine.read "KEY virtual\t ISBN : Decimal(9, 2)" = .element "ISBN" "Decimal(9, 2)" ∧
      BodyLine.read "KEY virtual\t element : Decimal(9, 2)" = .skip .unusable := by
  have each : ∀ modifier ∈ ([⟨"KEY", " "⟩, ⟨"virtual", "\t "⟩] : List Modifier), modifier.Stands := by
    refine List.forall_mem_cons.mpr ⟨⟨by decide, by decide, List.all_eq_true.mp (by decide)⟩, ?_⟩
    exact List.forall_mem_singleton.mpr ⟨by decide, by decide, List.all_eq_true.mp (by decide)⟩
  have stands : decimal.Stands := by
    refine ⟨by decide, by decide, by decide, fun inner member => ?_⟩
    obtain rfl := Option.some.inj member
    exact List.all_eq_true.mp (by decide)
  have told : decimal.Told := by
    intro inner member
    obtain rfl := Option.some.inj member
    decide +kernel
  obtain ⟨_, named⟩ := modifiers_stripped _ "ISBN" decimal each (by decide) (List.all_eq_true.mp (by decide)) stands
  obtain ⟨unnamed, _⟩ :=
    modifiers_stripped _ "element" decimal each (by decide) (List.all_eq_true.mp (by decide)) stands
  obtain ⟨raw, read, same⟩ := named (by decide)
  refine ⟨⟨each, stands⟩, ?_, unnamed (by decide)⟩
  rw [same told] at read
  exact read.trans (congrArg (BodyLine.element "ISBN") (by decide))

theorem element_not_named :
    ¬ ∀ (modifiers : List Modifier) (name : Text) (type : PlainType), (∀ modifier ∈ modifiers, modifier.Stands) →
      name ≠ [] → (∀ c ∈ name, c.isAlpha = true) → type.Stands → type.Told → type.text.normalized = type.text →
        BodyLine.read (elementLine modifiers name type) = .element name type.text := by
  intro always
  have stands : PlainType.Stands ⟨"String", none⟩ :=
    ⟨by decide, by decide, by decide, fun inner member => by cases member⟩
  have read := always [] "element" ⟨"String", none⟩ (by simp) (by decide) (List.all_eq_true.mp (by decide)) stands
    (fun inner member => by cases member) (by decide)
  revert read
  decide +kernel

end SchemaDiagram
