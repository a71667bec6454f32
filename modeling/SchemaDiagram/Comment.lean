import SchemaDiagram.Token

/-!
Text without comments. Line breaks inside a comment stay, so that the text keeps its lines; for the text
of a single element annotations go as well, each leaving a blank.
-/

set_option autoImplicit false

namespace SchemaDiagram

def Token.withoutComment (token : Token) : Text :=
  if token.kind = .comment then token.text.filter (· = '\n') else token.text

def withoutComments (t : Text) : Text := (tokenize t).flatMap Token.withoutComment

def Token.withoutRemark (token : Token) : Text :=
  match token.kind with
  | .tag => [' ']
  | .comment => []
  | _ => token.text

def withoutRemarks (t : Text) : Text := (tokenize t).flatMap Token.withoutRemark

def hasTag (t : Text) : Bool := (tokenize t).any (·.kind = .tag)
def hasComment (t : Text) : Bool := (tokenize t).any (·.kind = .comment)

end SchemaDiagram
