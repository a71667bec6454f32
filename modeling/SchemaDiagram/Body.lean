import SchemaDiagram.Token

/-! The body of a declaration: what stands between its first brace and the brace that closes it. -/

set_option autoImplicit false

namespace SchemaDiagram

structure Body where
  -- Bytes before the body.
  start : Nat
  text : Text
deriving DecidableEq, Repr

namespace Body

def stop (body : Body) : Nat := body.start + body.text.byteSize

-- The tokens in front of the brace that closes the body, inside of which `depth` braces are open.
def inside? (depth : Nat) : List Token → Option (List Token)
  | [] => none
  | token :: rest =>
    if token.isPunct '{' then (inside? (depth + 1) rest).map (token :: ·)
    else if token.isPunct '}' then
      match depth with
      | 0 => some []
      | depth + 1 => (inside? depth rest).map (token :: ·)
    else (inside? depth rest).map (token :: ·)

def ofTokens? (tokens : List Token) : Option Body :=
  match tokens.dropWhile (!·.isPunct '{') with
  | [] => none
  | opening :: rest => (inside? 0 rest).map fun inside => ⟨opening.stop, untokenize inside⟩

def ofText? (t : Text) : Option Body := ofTokens? (tokenize t)

end Body

end SchemaDiagram
