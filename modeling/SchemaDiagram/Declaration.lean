import SchemaDiagram.Body
import SchemaDiagram.Comment

/-!
The declarations of a schema file. A header is `entity` or `type` and a name where a clause may start. A
declaration runs from its header to the brace that closes its body, to a semicolon outside braces, or to
the next header, whichever comes first; headers inside of it declare nothing of their own. Views and
enumerations are dropped, as they have no elements to show.
-/

set_option autoImplicit false

namespace SchemaDiagram

inductive DeclarationKind where
  | entity
  | typeAlias
deriving DecidableEq, Repr

namespace DeclarationKind

def keyword : DeclarationKind → Text
  | entity => "entity"
  | typeAlias => "type"

def ofKeyword? (word : Text) : Option DeclarationKind :=
  [entity, typeAlias].find? (·.keyword = word)

end DeclarationKind

structure Header where
  kind : DeclarationKind
  name : Text
  -- Bytes before the keyword.
  start : Nat
  lead : List Token
  rest : List Token
deriving DecidableEq, Repr

namespace Header

-- A header needs white space between the keyword and the name. Of a dotted name the last segment
-- counts.
def ofKeyword? (keyword : Token) (rest : List Token) : Option Header :=
  match DeclarationKind.ofKeyword? keyword.text.asciiLower with
  | none => none
  | some kind =>
    let gap := rest.takeWhile Token.isSpace
    match rest.dropWhile Token.isSpace with
    | [] => none
    | name :: after =>
      if gap.isEmpty || name.kind ≠ .word then none
      else some ⟨kind, Text.afterLast '.' name.text, keyword.start, keyword :: gap ++ [name], after⟩

-- The headers among tokens; `boundary` says that a clause may start with the next one.
def collect (boundary : Bool) : List Token → List Header
  | [] => []
  | token :: rest =>
    match token.kind with
    | .space => collect (boundary || token.isLineBreak) rest
    | .comment | .tag => collect boundary rest
    | .punct => collect (token.isPunct ';' || token.isPunct '}') rest
    | .literal => collect false rest
    | .word =>
      if boundary && token.isWord "define" then collect boundary rest
      else
        match if boundary then ofKeyword? token rest else none with
        | none => collect false rest
        | some header => header :: collect false rest

def ofText (t : Text) : List Header := collect true (tokenize t)

end Header

inductive Ending where
  | brace
  | semicolon
  | header
  | endOfText
deriving DecidableEq, Repr

structure Declaration where
  kind : DeclarationKind
  name : Text
  start : Nat
  lead : List Token
  rest : List Token
  ending : Ending
deriving DecidableEq, Repr

namespace Declaration

def goesOn (token : Token) (more : List Token × Ending) : List Token × Ending :=
  (token :: more.1, more.2)

-- The tokens of a declaration after its name; `limit` is where the next header starts, and `depth` how
-- many braces are open.
def extent (limit : Option Nat) (depth : Nat) : List Token → List Token × Ending
  | [] => ([], .endOfText)
  | token :: rest =>
    if depth = 0 && limit.any (· ≤ token.start) then ([], .header)
    else if token.isPunct '{' then goesOn token (extent limit (depth + 1) rest)
    else if token.isPunct '}' && 0 < depth then
      if depth = 1 then ([token], .brace) else goesOn token (extent limit (depth - 1) rest)
    else if token.isPunct ';' && depth = 0 then ([token], .semicolon)
    else goesOn token (extent limit depth rest)

-- The name of a declaration may be the keyword of the next header, and then belongs to that.
def ofHeader (header : Header) (limit : Option Nat) : Declaration :=
  let (rest, ending) := extent limit 0 header.rest
  let lead := header.lead.takeWhile fun token => !limit.any (· ≤ token.start)
  ⟨header.kind, header.name, header.start, lead, rest, ending⟩

def tokens (declaration : Declaration) : List Token := declaration.lead ++ declaration.rest

def text (declaration : Declaration) : Text := untokenize declaration.tokens

def stop (declaration : Declaration) : Nat := declaration.start + declaration.text.byteSize

-- Headers that start before `consumed` stand inside an earlier declaration.
def ofHeaders (consumed : Nat) : List Header → List Declaration
  | [] => []
  | header :: others =>
    if header.start < consumed then ofHeaders consumed others
    else
      let declaration := ofHeader header (others.head?.map Header.start)
      declaration :: ofHeaders declaration.stop others

def ofText (t : Text) : List Declaration := ofHeaders 0 (Header.ofText t)

end Declaration

structure Fragment where
  kind : DeclarationKind
  name : Text
  text : Text
deriving DecidableEq, Repr

namespace Fragment

def ofDeclaration (declaration : Declaration) : Fragment :=
  ⟨declaration.kind, declaration.name, declaration.text.trim⟩

def body? (fragment : Fragment) : Option Text := (Body.ofText? fragment.text).map Body.text

def head (fragment : Fragment) : Text := fragment.text.takeWhile (· ≠ '{')

-- The letter that keywords are compared by: the long s and the Kelvin sign have ASCII letters as their
-- other case.
def foldCase (c : Char) : Char :=
  if c = '\u017F' then 's' else if c = '\u212A' then 'k' else c.toLower

-- Whether a text goes on as the start of a query does: `as`, perhaps a parenthesis, and the word
-- `projection` or `select`.
def startsQuery (t : Text) : Bool :=
  match Text.after? "as" t with
  | none => false
  | some rest =>
    let gap := rest.dropWhile isWhite
    let query := ((Text.after? "(" gap).getD gap).dropWhile isWhite
    (Text.afterWord? "projection" query).isSome || (Text.afterWord? "select" query).isSome

def isView (fragment : Fragment) : Bool :=
  let head := fragment.head.map foldCase
  Text.anyWordStart startsQuery false head || Text.hasWord "enum" head

end Fragment

def fragments (source : Text) : List Fragment :=
  ((Declaration.ofText (withoutComments source)).map Fragment.ofDeclaration).filter (!·.isView)

def declaredNames (source : Text) : List Text := (Header.ofText (withoutComments source)).map Header.name

end SchemaDiagram
