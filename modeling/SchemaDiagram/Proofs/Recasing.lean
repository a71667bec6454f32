import Mathlib.Data.List.Flatten
import SchemaDiagram.Proofs.Casing
import SchemaDiagram.Proofs.Cuts
import SchemaDiagram.Proofs.Extents
import SchemaDiagram.BodyLine

/-!
A line in another case. Where the tokens of a text end does not depend on the case of its letters, so a text whose
tokens are spelled in another case has these spellings for its tokens.
-/

set_option autoImplicit false

namespace SchemaDiagram

open Scan

theorem Text.byte_size_lower (t : Text) : t.asciiLower.byteSize = t.byteSize := by
  induction t with
  | nil => rfl
  | cons c rest ih =>
    have size := lower_keeps Char.utf8Size (by decide) c
    change c.toLower.utf8Size + Text.byteSize (Text.asciiLower rest) = _
    rw [size, ih]
    rfl

namespace Scan

theorem blank_lower (c : Char) : isBlank c.toLower = isBlank c := test_lower _ (by simp [charTests]) c
theorem word_char_lower (c : Char) : isWordChar c.toLower = isWordChar c := test_lower _ (by simp [charTests]) c
theorem value_char_lower (c : Char) : isValueChar c.toLower = isValueChar c := test_lower _ (by simp [charTests]) c
theorem opens_lower (c : Char) : opens c.toLower = opens c := test_lower _ (by simp [charTests]) c
theorem closes_lower (c : Char) : closes c.toLower = closes c := test_lower _ (by simp [charTests]) c
theorem plain_lower (c : Char) : isPlain c.toLower = isPlain c := lower_keeps isPlain (by decide) c

-- Marks, unlike letters, are what they are in any case.
def marks : Text := ['/', '*', '\n', '\r', '\'', ':', ';', '=']

theorem mark_lower (mark : Char) (among : mark ∈ marks) (c : Char) : c.toLower = mark ↔ c = mark := by
  have letters : ∀ code ∈ List.range' 65 26, (Char.ofNat code).toLower ∉ marks ∧ Char.ofNat code ∉ marks := by
    decide
  have none (code : Nat) (member : code ∈ List.range' 65 26) :
      ((Char.ofNat code).toLower = mark) = (Char.ofNat code = mark) := by
    obtain ⟨lower, upper⟩ := letters code member
    exact propext (iff_of_false (fun same => lower (same.symm ▸ among)) fun same => upper (same.symm ▸ among))
  exact iff_of_eq (lower_keeps (· = mark) none c)

theorem drop_while_lower (test : Char → Bool) (keeps : ∀ c, test c.toLower = test c) (t : Text) :
    t.asciiLower.dropWhile test = Text.asciiLower (t.dropWhile test) := by
  rw [Text.asciiLower, List.dropWhile_map]
  exact congrArg (fun test => Text.asciiLower (t.dropWhile test)) (funext keeps)

theorem after_line_lower (t : Text) : afterLine? t.asciiLower = (afterLine? t).map Text.asciiLower := by
  have ended (c : Char) : (decide (c.toLower ≠ '\n') && decide (c.toLower ≠ '\r')) =
      (decide (c ≠ '\n') && decide (c ≠ '\r')) := by
    rw [decide_eq_decide.mpr (not_congr (mark_lower '\n' (by decide) c)),
      decide_eq_decide.mpr (not_congr (mark_lower '\r' (by decide) c))]
  unfold afterLine?
  rw [drop_while_lower _ (by simpa using ended)]
  generalize t.dropWhile _ = u
  cases u with
  | nil => rfl
  | cons c u =>
    by_cases cr : c = '\r'
    · subst cr
      cases u with
      | nil => rfl
      | cons d u =>
        by_cases lf : d = '\n'
        · subst lf
          rfl
        · have lowered := mt (mark_lower '\n' (by decide) d).mp lf
          simp [Text.asciiLower, lf, lowered]
    · have lowered := mt (mark_lower '\r' (by decide) c).mp cr
      simp [Text.asciiLower, cr, lowered]

theorem after_block_lower (t : Text) : afterBlock t.asciiLower = (afterBlock t).asciiLower := by
  fun_induction afterBlock t with
  | case1 => rfl
  | case2 c => rfl
  | case3 c d rest closed =>
    obtain ⟨rfl, rfl⟩ := closed
    rfl
  | case4 c d rest unclosed ih =>
    rw [← mark_lower '*' (by decide) c, ← mark_lower '/' (by decide) d] at unclosed
    exact (if_neg unclosed).trans ih

theorem after_comment_lower (t : Text) : afterComment? t.asciiLower = (afterComment? t).map Text.asciiLower := by
  cases t with
  | nil => rfl
  | cons c rest =>
    by_cases slash : c = '/'
    · subst slash
      exact after_line_lower rest
    · by_cases star : c = '*'
      · subst star
        exact congrArg some (after_block_lower rest)
      · rw [no_comment_at (c :: rest) (by simpa using slash) (by simpa using star)]
        exact no_comment_at _ (by simpa [Text.asciiLower] using mt (mark_lower '/' (by decide) c).mp slash)
          (by simpa [Text.asciiLower] using mt (mark_lower '*' (by decide) c).mp star)

theorem after_quote_lower (t : Text) : afterQuote t.asciiLower = (afterQuote t).asciiLower := by
  have passed := drop_while_lower (· ≠ '\'') (fun c => by simp [mark_lower '\'' (by decide) c]) t
  rw [afterQuote, passed]
  exact (List.map_drop (f := Char.toLower)).symm

theorem inside_lower (t : Text) : (afterInside t.asciiLower).1 = (afterInside t).1.asciiLower := by
  induction t using inside_induction with
  | nil =>
    rw [Text.asciiLower, List.map_nil, afterInside]
    rfl
  | closing c inner closed =>
    change (afterInside (c.toLower :: Text.asciiLower inner)).1 = _
    rw [inside_closes c inner closed, inside_closes _ _ ((closes_lower c).trans closed)]
    rfl
  | group c inner closed opened within behind =>
    have group : afterGroup (Text.asciiLower inner) = (afterGroup inner).asciiLower :=
      (congrArg (List.drop 1) within).trans (List.map_drop (f := Char.toLower)).symm
    change (afterInside (c.toLower :: Text.asciiLower inner)).1 = _
    rw [inside_opens c inner closed opened,
      inside_opens _ _ ((closes_lower c).trans closed) ((opens_lower c).trans opened), group]
    exact behind
  | literal inner behind =>
    change (afterInside ('\'' :: Text.asciiLower inner)).1 = _
    rw [inside_quote '\'' inner rfl rfl rfl, inside_quote '\'' _ rfl rfl rfl, after_quote_lower]
    exact behind
  | other c inner closed opened quote behind =>
    change (afterInside (c.toLower :: Text.asciiLower inner)).1 = _
    rw [inside_other c inner closed opened quote,
      inside_other _ _ ((closes_lower c).trans closed) ((opens_lower c).trans opened)
        (mt (mark_lower '\'' (by decide) c).mp quote)]
    exact behind

theorem after_group_lower (t : Text) : afterGroup t.asciiLower = (afterGroup t).asciiLower := by
  rw [afterGroup, inside_lower]
  exact (List.map_drop (f := Char.toLower)).symm

theorem of_value_lower (t : Text) : ofValue? t.asciiLower = (ofValue? t).map Text.asciiLower := by
  cases t with
  | nil => rfl
  | cons c value =>
    change ofValue? (c.toLower :: Text.asciiLower value) = _
    rw [ofValue?, ofValue?, opens_lower, value_char_lower, after_quote_lower, after_group_lower,
      drop_while_lower isValueChar value_char_lower]
    simp only [mark_lower '\'' (by decide) c]
    split
    · rfl
    · split
      · rfl
      · split <;> rfl

theorem after_value_lower (t : Text) : afterValue? t.asciiLower = (afterValue? t).map Text.asciiLower := by
  rw [after_value_eq, after_value_eq, drop_while_lower isBlank blank_lower]
  generalize t.dropWhile isBlank = u
  cases u with
  | nil => rfl
  | cons c u =>
    by_cases colon : c = ':'
    · subst colon
      change ofValue? ((Text.asciiLower u).dropWhile isBlank) = (ofValue? (u.dropWhile isBlank)).map Text.asciiLower
      rw [drop_while_lower isBlank blank_lower, of_value_lower]
    · have lowered := mt (mark_lower ':' (by decide) c).mp colon
      simp [Text.asciiLower, ofColon?, colon, lowered]

theorem after_name_lower (t : Text) : afterName t.asciiLower = (afterName t).asciiLower := by
  rw [afterName, afterName, drop_while_lower isWordChar word_char_lower, after_value_lower]
  cases afterValue? (t.dropWhile isWordChar) <;> rfl

theorem after_tag_lower (t : Text) : afterTag t.asciiLower = (afterTag t).asciiLower := by
  cases t with
  | nil => rfl
  | cons c rest =>
    change afterTag (c.toLower :: Text.asciiLower rest) = _
    rw [afterTag, afterTag, opens_lower, after_group_lower]
    split
    · rfl
    · exact after_name_lower (c :: rest)

theorem Cut.lower {c : Char} {t rest : Text} {kind : TokenKind} (cut : Cut c t kind rest) :
    Cut c.toLower t.asciiLower kind rest.asciiLower := by
  cases cut with
  | blank _ _ blank =>
    rw [← drop_while_lower isBlank blank_lower]
    exact .blank _ _ ((blank_lower c).trans blank)
  | comment _ _ found => exact .comment _ _ (by rw [after_comment_lower, found]; rfl)
  | slash _ none => exact .slash _ (by rw [after_comment_lower, none]; rfl)
  | tag =>
    rw [← after_tag_lower]
    exact .tag _
  | literal =>
    rw [← after_quote_lower]
    exact .literal _
  | word _ _ word =>
    rw [← drop_while_lower isWordChar word_char_lower]
    exact .word _ _ ((word_char_lower c).trans word)
  | plain _ _ plain => exact .plain _ _ ((plain_lower c).trans plain)

end Scan

def Token.lower (token : Token) : Token := { token with text := token.text.asciiLower }

theorem tokens_lower (start : Nat) (t : Text) :
    tokensFrom start t.asciiLower = (tokensFrom start t).map Token.lower := by
  induction t using text_induction generalizing start with
  | nil =>
    rw [tokensFrom]
    change tokensFrom start [] = []
    rw [tokensFrom]
  | token c front rest kind cut ih =>
    have lowered := cut.lower
    rw [Text.lower_append] at lowered
    have whole : Text.asciiLower (c :: (front ++ rest)) = c.toLower :: (front.asciiLower ++ rest.asciiLower) :=
      congrArg (c.toLower :: ·) (Text.lower_append front rest)
    have size : Text.byteSize (c.toLower :: front.asciiLower) = Text.byteSize (c :: front) :=
      Text.byte_size_lower (c :: front)
    rw [whole, tokens_of_cut start _ _ _ kind lowered, tokens_of_cut start c front rest kind cut, List.map_cons,
      size, ih]
    rfl

-- Each token of a text is spelled in a case of its own.
def Token.spelled (spell : Token → Text) (token : Token) : Token := { token with text := spell token }

def respelled (spell : Token → Text) (t : Text) : Text := (tokenize t).flatMap spell

def Recases (spell : Token → Text) (t : Text) : Prop :=
  ∀ token ∈ tokenize t, (spell token).asciiLower = token.text.asciiLower

theorem respelled_lower (spell : Token → Text) (t : Text) (recases : Recases spell t) :
    (respelled spell t).asciiLower = t.asciiLower := by
  have each : (tokenize t).flatMap (fun token => (spell token).asciiLower) =
      (tokenize t).flatMap fun token => token.text.asciiLower :=
    List.flatMap_congr recases
  have whole := untokenize_tokens_from 0 t
  rw [respelled, Text.asciiLower, List.map_flatMap]
  refine each.trans ?_
  conv_rhs => rw [← whole, untokenize, Text.asciiLower, List.map_flatMap]
  rfl

theorem tokenize_respelled (spell : Token → Text) (t : Text) (recases : Recases spell t) :
    tokenize (respelled spell t) = (tokenize t).map (Token.spelled spell) := by
  have lowered : (tokenize (respelled spell t)).map Token.lower = (tokenize t).map Token.lower := by
    rw [tokenize, ← tokens_lower, respelled_lower spell t recases, tokens_lower]
    rfl
  -- The spellings are the tokens' texts, since both are as long each and together the same text.
  have texts : (tokenize (respelled spell t)).map Token.text = (tokenize t).map spell := by
    rw [List.eq_iff_flatten_eq]
    constructor
    · have whole := untokenize_tokens_from 0 (respelled spell t)
      rw [← List.flatMap_def, ← List.flatMap_def]
      exact whole
    · have lengths := congrArg (List.map fun token => token.text.length) lowered
      simp only [List.map_map] at lengths ⊢
      have left : (fun token => token.text.length) ∘ Token.lower = List.length ∘ Token.text :=
        funext fun token => Text.lower_length token.text
      rw [left] at lengths
      rw [lengths]
      apply List.map_congr_left
      intro token member
      have same := congrArg List.length (recases token member)
      rw [Text.lower_length, Text.lower_length] at same
      exact same.symm
  have kinds : (tokenize (respelled spell t)).map (fun token => (token.kind, token.start)) =
      (tokenize t).map fun token => (token.kind, token.start) := by
    have shapes := congrArg (List.map fun token => (token.kind, token.start)) lowered
    simpa [List.map_map, Function.comp_def, Token.lower] using shapes
  have rebuilt (tokens others : List Token) (shapes : tokens.map (fun token => (token.kind, token.start)) =
      others.map fun token => (token.kind, token.start)) (texts : tokens.map Token.text = others.map spell) :
      tokens = others.map (Token.spelled spell) := by
    induction tokens generalizing others with
    | nil =>
      rw [List.map_nil, eq_comm, List.map_eq_nil_iff] at texts
      rw [texts]
      rfl
    | cons token tokens ih =>
      cases others with
      | nil => contradiction
      | cons other others =>
        rw [List.map_cons, List.map_cons, List.cons.injEq] at shapes texts
        have first : token = Token.spelled spell other := by
          obtain ⟨kind, text, start⟩ := token
          simp only [Prod.mk.injEq] at shapes
          obtain ⟨⟨rfl, rfl⟩, _⟩ := shapes
          exact congrArg (Token.mk other.kind · other.start) texts.1
        rw [List.map_cons, first, ih others shapes.2 texts.2]
  exact rebuilt _ _ kinds texts

theorem tokens_distinct (start : Nat) (t : Text) : (tokensFrom start t).Nodup := by
  induction t using text_induction generalizing start with
  | nil =>
    rw [tokensFrom]
    exact .nil
  | token c front rest kind cut ih =>
    rw [tokens_of_cut start c front rest kind cut]
    refine List.nodup_cons.mpr ⟨?_, ih _⟩
    intro again
    have later := start_le_of_token _ rest _ again
    have size := c.utf8Size_pos
    rw [Text.byteSize] at later
    dsimp only at later
    omega

namespace Token

section

variable (spell : Token → Text) (token : Token) (same : (spell token).asciiLower = token.text.asciiLower)

include same

theorem head_spelled (test : Char → Bool) (keeps : ∀ c, test c.toLower = test c) :
    (spell token).head?.any test = token.text.head?.any test :=
  Text.head_any_lower _ _ same test keeps

theorem is_punct_spelled (mark : Char) (keeps : ∀ c : Char, c.toLower = mark ↔ c = mark) :
    (token.spelled spell).isPunct mark = token.isPunct mark := by
  have told (t : Text) : decide (t.head? = some mark) = t.head?.any (decide <| · = mark) := by
    cases t with
    | nil => rfl
    | cons c rest => simp
  have head := head_spelled spell token same (decide <| · = mark) fun c => decide_eq_decide.mpr (keeps c)
  rw [isPunct, isPunct, told, told]
  exact congrArg (decide (token.kind = .punct) && ·) head

theorem is_word_spelled (word : Text) : (token.spelled spell).isWord word = token.isWord word :=
  congrArg (fun text => decide (token.kind = .word) && decide (text = word.asciiLower)) same

theorem depth_spelled (depth : Nat) : (token.spelled spell).depthAfter depth = token.depthAfter depth := by
  have opener : (token.spelled spell).isOpener = token.isOpener :=
    congrArg (decide (token.kind = .punct) && ·) (head_spelled spell token same opens opens_lower)
  have closer : (token.spelled spell).isCloser = token.isCloser :=
    congrArg (decide (token.kind = .punct) && ·) (head_spelled spell token same closes closes_lower)
  rw [depthAfter, depthAfter, opener, closer]

end

theorem spelled_same (spell : Token → Text) (tokens : List Token) (same : ∀ token ∈ tokens, spell token = token.text) :
    tokens.map (spelled spell) = tokens := by
  refine (List.map_congr_left fun token member => ?_).trans (List.map_id tokens)
  rw [spelled, same token member]
  rfl

end Token

namespace BodyLine

section

variable (spell : Token → Text)

theorem code_spelled (tokens : List Token)
    (recases : ∀ token ∈ tokens, (spell token).asciiLower = token.text.asciiLower) :
    code (tokens.map (Token.spelled spell)) = (code tokens).map (Token.spelled spell) := by
  rw [code, List.filter_map, code]
  congr 1
  apply List.filter_congr
  intro token member
  have punct := token.is_punct_spelled spell (recases token member) ';' (mark_lower ';' (by decide))
  simp only [Function.comp_apply, punct]
  rfl

theorem split_spelled (depth : Nat) (tokens : List Token)
    (recases : ∀ token ∈ tokens, (spell token).asciiLower = token.text.asciiLower) :
    splitAtColon? depth (tokens.map (Token.spelled spell)) = (splitAtColon? depth tokens).map
      (Prod.map (List.map (Token.spelled spell)) (List.map (Token.spelled spell))) := by
  induction tokens generalizing depth with
  | nil => rfl
  | cons token rest ih =>
    rw [List.forall_mem_cons] at recases
    rw [List.map_cons, splitAtColon?, splitAtColon?,
      token.is_punct_spelled spell recases.1 ':' (mark_lower ':' (by decide)),
      token.depth_spelled spell recases.1, ih _ recases.2]
    split
    · rfl
    · rw [Option.map_map, Option.map_map]
      rfl

end

-- What a type shows of a token.
def shown (token : Token) : Text := if token.isSpace then [' '] else token.text

-- The tokens that a type shows.
def kept (conditional : Bool) (depth : Nat) : List Token → List Token
  | [] => []
  | token :: rest =>
    if depth = 0 && (token.isWord "default" || (!conditional && token.isPunct '=')) then []
    else if token.isWord "localized" || token.isWord "null" || (token.isWord "not" && nextIsNull rest) then
      kept conditional depth rest
    else token :: kept conditional (token.depthAfter depth) rest

theorem type_text_kept (conditional : Bool) (depth : Nat) (tokens : List Token) :
    typeText conditional depth tokens = (kept conditional depth tokens).flatMap shown := by
  fun_induction kept conditional depth tokens with
  | case1 => rfl
  | case2 depth token rest stops => rw [typeText, if_pos stops, List.flatMap_nil]
  | case3 depth token rest goes silent ih => rw [typeText, if_neg goes, if_pos silent, ih]
  | case4 depth token rest goes told ih => rw [typeText, if_neg goes, if_neg told, List.flatMap_cons, ih, shown]

theorem kept_sublist (conditional : Bool) (depth : Nat) (tokens : List Token) :
    (kept conditional depth tokens).Sublist tokens := by
  fun_induction kept conditional depth tokens with
  | case1 => exact .slnil
  | case2 depth token rest stops => exact List.nil_sublist _
  | case3 depth token rest goes silent ih => exact ih.cons token
  | case4 depth token rest goes told ih => exact ih.cons_cons token

theorem next_is_null_spelled (spell : Token → Text) (tokens : List Token)
    (recases : ∀ token ∈ tokens, (spell token).asciiLower = token.text.asciiLower) :
    nextIsNull (tokens.map (Token.spelled spell)) = nextIsNull tokens := by
  rw [nextIsNull, List.find?_map, nextIsNull]
  change ((tokens.find? (!·.isSpace)).map _).any _ = _
  cases found : tokens.find? (!·.isSpace) with
  | none => rfl
  | some token => exact token.is_word_spelled spell (recases token (List.mem_of_find?_eq_some found)) "null"

theorem kept_spelled (spell : Token → Text) (conditional : Bool) (depth : Nat) (tokens : List Token)
    (recases : ∀ token ∈ tokens, (spell token).asciiLower = token.text.asciiLower) :
    kept conditional depth (tokens.map (Token.spelled spell)) =
      (kept conditional depth tokens).map (Token.spelled spell) := by
  induction tokens generalizing depth with
  | nil => rfl
  | cons token rest ih =>
    rw [List.forall_mem_cons] at recases
    have word (word : Text) := token.is_word_spelled spell recases.1 word
    have equals := token.is_punct_spelled spell recases.1 '=' (mark_lower '=' (by decide))
    rw [List.map_cons, kept, kept, word, word, word, word, equals, next_is_null_spelled spell rest recases.2,
      token.depth_spelled spell recases.1, ih _ recases.2, ih _ recases.2]
    split
    · rfl
    · split <;> rfl

theorem conditional_spelled (spell : Token → Text) (tokens : List Token)
    (recases : ∀ token ∈ tokens, (spell token).asciiLower = token.text.asciiLower) :
    (tokens.map (Token.spelled spell)).any (·.isWord "on") = tokens.any (·.isWord "on") := by
  induction tokens with
  | nil => rfl
  | cons token rest ih =>
    rw [List.forall_mem_cons] at recases
    rw [List.map_cons, List.any_cons, List.any_cons, token.is_word_spelled spell recases.1 "on", ih recases.2]

end BodyLine

end SchemaDiagram
