import SchemaDiagram.Edge

/-!
The forms that the type of an element is written in: a relationship clause with its target, an array with
its element type, an inline structure, or a name. A condition at the end counts for none of them.
-/

set_option autoImplicit false

namespace SchemaDiagram

inductive TypeClause where
  | relationship (kind : EdgeKind) (target : Text)
  | array (element : Text)
  | struct
  | name (text : Text)
deriving DecidableEq, Repr

namespace TypeClause

-- Whether a condition takes up the rest of a text, which then holds no line break after its `on`.
def isCondition (t : Text) : Bool := (Text.afterWord? "on" t).any (!·.elem '\n')

def withoutCondition : Text → Text
  | [] => []
  | c :: rest =>
    if isWhite c && isCondition (rest.dropWhile isWhite) then [] else c :: withoutCondition rest

-- The text without its parenthesized stretches, each up to the next closing parenthesis.
def withoutParameters : Text → Text
  | [] => []
  | c :: rest =>
    if c = '(' && rest.elem ')' then withoutParameters ((rest.dropWhile (· ≠ ')')).drop 1)
    else c :: withoutParameters rest
termination_by t => t.length
decreasing_by
  · have := ((List.drop_suffix 1 _).trans (List.dropWhile_suffix (l := rest) (· ≠ ')'))).length_le
    exact Nat.lt_succ_of_le this
  · exact Nat.lt_succ_self _

def afterBrackets (t : Text) : Text :=
  match t.dropWhile isWhite with
  | '[' :: rest =>
    match rest.dropWhile (· ≠ ']') with
    | [] => t
    | _ :: after => after
  | _ => t

def afterOneOf (words : List Text) (t : Text) : Text :=
  match words.findSome? (Text.afterWord? · t) with
  | none => t
  | some rest => rest.dropWhile isWhite

def target (t : Text) : Text :=
  afterOneOf ["one", "many"] (afterOneOf ["of", "to"] ((afterBrackets t).dropWhile isWhite))

def afterArray? (t : Text) : Option Text :=
  match Text.after? "array" t with
  | some rest =>
    if rest.head?.any isWhite then Text.afterWord? "of" (rest.dropWhile isWhite) else none
  | none => Text.afterWord? "many" t

def onOneLine (t : Text) : Option Text := if t.elem '\n' then none else some t.trim

def relationship? (t : Text) : Option TypeClause :=
  match Text.afterWord? "Composition" t, Text.afterWord? "Association" t with
  | some rest, _ => (onOneLine (target rest)).map (relationship .composition)
  | none, some rest => (onOneLine (target rest)).map (relationship .association)
  | none, none => none

def array? (t : Text) : Option TypeClause :=
  match afterArray? t with
  | none => none
  | some rest => (onOneLine (rest.dropWhile isWhite)).map array

def ofText (raw : Text) : TypeClause :=
  let t := (withoutCondition raw.trim).trim
  match relationship? t with
  | some clause => clause
  | none =>
    match array? t with
    | some clause => clause
    | none => if t.head? = some '{' then struct else name t

end TypeClause

end SchemaDiagram
