import SchemaDiagram.Text.Basic

/-!
The tokens of schema text: blank runs, comments, annotations with their values, quoted literals, words,
and any other character by itself. Every scan below answers with what is left of the text, always a
suffix of it, so the lexemes of `tokenize` put together are the text.
-/

set_option autoImplicit false

namespace SchemaDiagram

namespace Scan

def isBlank (c : Char) : Bool := c = ' ' || c = '\t' || c = '\n' || c = '\r'
def isWordChar (c : Char) : Bool := isAlphanumeric c || c = '_' || c = '.' || c = '$' || c = '#'
def opens (c : Char) : Bool := c = '(' || c = '[' || c = '{'
def closes (c : Char) : Bool := c = ')' || c = ']' || c = '}'
def isValueChar (c : Char) : Bool := !isWhite c && c ≠ ';'

theorem drop_while_suffix (p : Char → Bool) (t : Text) : t.dropWhile p <:+ t :=
  List.dropWhile_suffix p

-- After a comment that ends with its line. A CR that no LF follows is no line end, and then there is
-- no comment.
def afterLine? (t : Text) : Option Text :=
  match t.dropWhile (fun c => c ≠ '\n' && c ≠ '\r') with
  | '\r' :: '\n' :: rest => some ('\r' :: '\n' :: rest)
  | '\r' :: _ => none
  | rest => some rest

theorem after_line_suffix (t rest : Text) (found : afterLine? t = some rest) : rest <:+ t := by
  have left := drop_while_suffix (fun c => c ≠ '\n' && c ≠ '\r') t
  unfold afterLine? at found
  split at found <;> simp_all

-- After a bracketed comment, which runs to the end of the text where it is never closed.
def afterBlock : Text → Text
  | [] => []
  | [_] => []
  | c :: d :: rest => if c = '*' ∧ d = '/' then rest else afterBlock (d :: rest)

theorem after_block_suffix (t : Text) : afterBlock t <:+ t := by
  fun_induction afterBlock t with
  | case1 => exact List.suffix_refl _
  | case2 c => exact List.nil_suffix
  | case3 c d rest => exact ⟨[c, d], rfl⟩
  | case4 c d rest _ ih => exact ih.trans (List.suffix_cons c _)

-- After a literal whose opening quote is gone; without a second quote it takes the whole text.
def afterQuote (t : Text) : Text := (t.dropWhile (· ≠ '\'')).drop 1

theorem after_quote_suffix (t : Text) : afterQuote t <:+ t :=
  (List.drop_suffix 1 _).trans (drop_while_suffix _ t)

-- From the inside of a group to the bracket that closes it, of whatever kind, or to the end.
def afterInside (t : Text) : { rest : Text // rest <:+ t } :=
  match t with
  | [] => ⟨[], List.suffix_refl _⟩
  | c :: inner =>
    if closes c then ⟨c :: inner, List.suffix_refl _⟩
    else if opens c then
      let group := afterInside inner
      have group_suffix := (List.drop_suffix 1 group.1).trans group.2
      have := group_suffix.length_le
      let next := afterInside (group.1.drop 1)
      ⟨next.1, (next.2.trans group_suffix).trans (List.suffix_cons c inner)⟩
    else if c = '\'' then
      have := (after_quote_suffix inner).length_le
      let next := afterInside (afterQuote inner)
      ⟨next.1, (next.2.trans (after_quote_suffix inner)).trans (List.suffix_cons c inner)⟩
    else
      let next := afterInside inner
      ⟨next.1, next.2.trans (List.suffix_cons c inner)⟩
termination_by t.length
decreasing_by
  · exact Nat.lt_succ_self _
  · exact Nat.lt_succ_of_le this
  · exact Nat.lt_succ_of_le this
  · exact Nat.lt_succ_self _

def afterGroup (t : Text) : Text := (afterInside t).1.drop 1

theorem after_group_suffix (t : Text) : afterGroup t <:+ t :=
  (List.drop_suffix 1 _).trans (afterInside t).2

def afterValue? (t : Text) : Option Text :=
  match t.dropWhile isBlank with
  | ':' :: rest =>
    match rest.dropWhile isBlank with
    | [] => none
    | c :: value =>
      if c = '\'' then some (afterQuote value)
      else if opens c then some (afterGroup value)
      else if isValueChar c then some (value.dropWhile isValueChar)
      else none
  | _ => none

theorem after_value_suffix (t rest : Text) (found : afterValue? t = some rest) : rest <:+ t := by
  unfold afterValue? at found
  split at found
  · rename_i colon eq
    have outer : colon <:+ t := (List.suffix_cons ':' colon).trans (eq ▸ drop_while_suffix isBlank t)
    split at found
    · simp at found
    · rename_i c value eq'
      have inner : value <:+ t :=
        ((List.suffix_cons c value).trans (eq' ▸ drop_while_suffix isBlank colon)).trans outer
      split at found
      · exact Option.some.inj found ▸ (after_quote_suffix value).trans inner
      · split at found
        · exact Option.some.inj found ▸ (after_group_suffix value).trans inner
        · split at found
          · exact Option.some.inj found ▸ (drop_while_suffix isValueChar value).trans inner
          · simp at found
  · simp at found

def afterName (t : Text) : Text :=
  (afterValue? (t.dropWhile isWordChar)).getD (t.dropWhile isWordChar)

theorem after_name_suffix (t : Text) : afterName t <:+ t := by
  have name := drop_while_suffix isWordChar t
  unfold afterName
  cases found : afterValue? (t.dropWhile isWordChar) with
  | none => exact name
  | some rest => exact (after_value_suffix _ _ found).trans name

def afterTag : Text → Text
  | [] => []
  | c :: rest => if opens c then afterGroup rest else afterName (c :: rest)

theorem after_tag_suffix (t : Text) : afterTag t <:+ t := by
  cases t with
  | nil => exact List.suffix_refl _
  | cons c rest =>
    rw [afterTag]
    split
    · exact (after_group_suffix rest).trans (List.suffix_cons c rest)
    · exact after_name_suffix _

end Scan

inductive TokenKind where
  | space
  | comment
  | tag
  | literal
  | word
  | punct
deriving DecidableEq, Repr

namespace Scan

def afterComment? : Text → Option Text
  | '/' :: rest => afterLine? rest
  | '*' :: rest => some (afterBlock rest)
  | _ => none

theorem after_comment_suffix (t rest : Text) (found : afterComment? t = some rest) : rest <:+ t := by
  unfold afterComment? at found
  split at found
  · exact (after_line_suffix _ _ found).trans (List.suffix_cons _ _)
  · exact Option.some.inj found ▸ (after_block_suffix _).trans (List.suffix_cons _ _)
  · simp at found

-- What a text loses in front when only `rest` is left of it.
def lexeme (t rest : Text) : Text := t.take (t.length - rest.length)

theorem lexeme_append (t rest : Text) (left : rest <:+ t) : lexeme t rest ++ rest = t := by
  obtain ⟨taken, rfl⟩ := left
  simp [lexeme]

def cut (c : Char) (t : Text) : TokenKind × Text × Text :=
  let upTo (kind : TokenKind) (rest : Text) := (kind, c :: lexeme t rest, rest)
  if isBlank c then (.space, c :: t.takeWhile isBlank, t.dropWhile isBlank)
  else if c = '/' then
    match afterComment? t with
    | some rest => upTo .comment rest
    | none => (.punct, [c], t)
  else if c = '@' then upTo .tag (afterTag t)
  else if c = '\'' then upTo .literal (afterQuote t)
  else if isWordChar c then (.word, c :: t.takeWhile isWordChar, t.dropWhile isWordChar)
  else (.punct, [c], t)

theorem cut_append (c : Char) (t : Text) : (cut c t).2.1 ++ (cut c t).2.2 = c :: t := by
  unfold cut
  split
  · simp [List.takeWhile_append_dropWhile]
  · split
    · split
      · rename_i found
        simp [lexeme_append t _ (after_comment_suffix t _ found)]
      · rfl
    · split
      · simp [lexeme_append t _ (after_tag_suffix t)]
      · split
        · simp [lexeme_append t _ (after_quote_suffix t)]
        · split
          · simp [List.takeWhile_append_dropWhile]
          · rfl

theorem cut_lexeme_ne_nil (c : Char) (t : Text) : (cut c t).2.1 ≠ [] := by
  unfold cut
  repeat' split
  all_goals simp

theorem cut_shorter (c : Char) (t : Text) : (cut c t).2.2.length < (c :: t).length := by
  have whole := congrArg List.length (cut_append c t)
  have taken := List.length_pos_iff.mpr (cut_lexeme_ne_nil c t)
  rw [List.length_append] at whole
  omega

end Scan

structure Token where
  kind : TokenKind
  text : Text
  -- Bytes before the token.
  start : Nat
deriving DecidableEq, Repr

def tokensFrom (start : Nat) : Text → List Token
  | [] => []
  | c :: t =>
    let cut := Scan.cut c t
    ⟨cut.1, cut.2.1, start⟩ :: tokensFrom (start + cut.2.1.byteSize) cut.2.2
termination_by t => t.length
decreasing_by exact Scan.cut_shorter c t

def tokenize (t : Text) : List Token := tokensFrom 0 t

def untokenize (tokens : List Token) : Text := tokens.flatMap Token.text

theorem untokenize_tokens_from (start : Nat) (t : Text) : untokenize (tokensFrom start t) = t := by
  fun_induction tokensFrom start t with
  | case1 => rfl
  | case2 start c t cut ih =>
    simp only [untokenize, List.flatMap_cons] at ih ⊢
    rw [ih]
    exact Scan.cut_append c t

namespace Token

def stop (token : Token) : Nat := token.start + token.text.byteSize

def isPunct (c : Char) (token : Token) : Bool := token.kind = .punct && token.text.head? = some c

-- Keywords are read in any mixture of cases.
def isWord (word : Text) (token : Token) : Bool :=
  token.kind = .word && Text.asciiLower token.text = Text.asciiLower word

def isSpace (token : Token) : Bool := token.kind = .space
def isLineBreak (token : Token) : Bool := token.kind = .space && token.text.elem '\n'

def isRemark (token : Token) : Bool := token.kind = .comment || token.kind = .tag

def isTrivia (token : Token) : Bool := token.isSpace || token.isRemark

def isOpener (token : Token) : Bool := token.kind = .punct && (token.text.head?.any Scan.opens)
def isCloser (token : Token) : Bool := token.kind = .punct && (token.text.head?.any Scan.closes)

def nesting (token : Token) : Int :=
  if token.isOpener then 1 else if token.isCloser then -1 else 0

-- The depth after a token. Closing brackets beyond the outermost level are passed over.
def depthAfter (depth : Nat) (token : Token) : Nat :=
  if token.isOpener then depth + 1 else if token.isCloser then depth - 1 else depth

end Token

end SchemaDiagram
