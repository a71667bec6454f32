import SchemaDiagram.Comment

/-!
What a statement of a body says: an element `name : type`, text to show as it stands, or nothing. Comments
and annotations count for nothing, and the words that mark an element are no part of its name or type.
-/

set_option autoImplicit false

namespace SchemaDiagram

inductive SkipReason where
  -- White space or lone punctuation.
  | blank
  -- Annotations and comments alone.
  | remarks
  -- No usable name or type.
  | unusable
deriving DecidableEq, Repr

inductive BodyLine where
  | element (name rawType : Text)
  | verbatim (text : Text)
  | skip (reason : SkipReason)
deriving DecidableEq, Repr

namespace BodyLine

def splitAtColon? (depth : Nat) : List Token → Option (List Token × List Token)
  | [] => none
  | token :: rest =>
    if depth = 0 && token.isPunct ':' then some ([], rest)
    else (splitAtColon? (token.depthAfter depth) rest).map fun parts => (token :: parts.1, parts.2)

def nameKeywords : List Text := ["key", "virtual", "masked", "element"]

def isNameKeyword (token : Token) : Bool := nameKeywords.any (token.isWord ·)

-- The ASCII letters of the name side, its keywords left out.
def elementName (tokens : List Token) : Text :=
  ((tokens.filter (!isNameKeyword ·)).flatMap Token.text).filter Char.isAlpha

def nextIsNull (tokens : List Token) : Bool :=
  (tokens.find? (!·.isSpace)).any (·.isWord "null")

-- The type side up to a default or a calculated value, without the words that say nothing of the type.
-- In a clause with a condition an equals sign belongs to the type.
def typeText (conditional : Bool) (depth : Nat) : List Token → Text
  | [] => []
  | token :: rest =>
    if depth = 0 && (token.isWord "default" || (!conditional && token.isPunct '=')) then []
    else if token.isWord "localized" || token.isWord "null" || (token.isWord "not" && nextIsNull rest) then
      typeText conditional depth rest
    else
      (if token.isSpace then [' '] else token.text) ++
        typeText conditional (token.depthAfter depth) rest

def elementType (tokens : List Token) : Text :=
  Text.normalized (typeText (tokens.any (·.isWord "on")) 0 tokens)

def relates : List Token → Bool
  | [] => false
  | word :: rest =>
    word.isWord "composition" || word.isWord "association" || word.isWord "many" ||
      (word.isWord "array" && rest.head?.any (·.isWord "of")) || relates rest

def isFiller (token : Token) : Bool :=
  token.isSpace || ['{', '}', ',', '(', ')'].any (token.isPunct ·)

def code (tokens : List Token) : List Token := tokens.filter fun t => !t.isRemark && !t.isPunct ';'

def ofColonless (statement : Text) (remarked : Bool) (code : List Token) : BodyLine :=
  if remarked || relates (code.filter (·.kind = .word)) then .skip .unusable
  else if code.all isFiller then .skip .blank
  else .verbatim statement.trimEnd

def ofSides (name type : List Token) : BodyLine :=
  if (elementName name).isEmpty || (elementType type).isEmpty then .skip .unusable
  else .element (elementName name) (elementType type)

def ofTokens (statement : Text) (tokens : List Token) : BodyLine :=
  let remarked := tokens.any Token.isRemark
  let code := code tokens
  if code.all Token.isSpace then .skip (if remarked then .remarks else .blank)
  else
    match splitAtColon? 0 code with
    | none => ofColonless statement remarked code
    | some (name, type) => ofSides name type

def read (statement : Text) : BodyLine := ofTokens statement (tokenize statement)

end BodyLine

end SchemaDiagram
