import SchemaDiagram.Token

/-!
The statements of a body. A semicolon outside brackets ends a statement. So does the end of a line, unless
a bracket is open, or the statement has its colon and the next line does not start another element.
-/

set_option autoImplicit false

namespace SchemaDiagram

namespace Statement

-- Whether the tokens after a line break go on with the element before it: up to three words in front
-- of a colon start an element of their own.
def carriesOn (words : Nat) : List Token → Bool
  | [] => 0 < words
  | token :: rest =>
    if token.isTrivia then carriesOn words rest
    else if token.kind = .word && words < 3 then carriesOn (words + 1) rest
    else !token.isPunct ':'

def finish (statement : Text) (others : List Text) : List Text :=
  if statement.isBlank then others else statement :: others

-- The statements from `statement` on, which is read up to here; `typed` says that it has its colon and
-- `depth` how many brackets are open.
def collect (statement : Text) (typed : Bool) (depth : Nat) : List Token → List Text
  | [] => finish statement []
  | token :: rest =>
    if depth = 0 && token.isPunct ';' then finish statement (collect [] false depth rest)
    else if token.isLineBreak then
      if 0 < depth || (typed && carriesOn 0 rest) then collect (statement ++ [' ']) typed depth rest
      else finish statement (collect (Text.afterLast '\n' token.text) false depth rest)
    else
      collect (statement ++ token.text) (typed || (depth = 0 && token.isPunct ':'))
        (token.depthAfter depth) rest

end Statement

-- Statements keep the indentation of their first line and lose their semicolon.
def statements (body : Text) : List Text := Statement.collect [] false 0 (tokenize body)

end SchemaDiagram
