import SchemaDiagram.Binary64

/-! Single values, as files and the environment give them for settings. -/

set_option autoImplicit false

namespace SchemaDiagram

inductive Scalar where
  | flag (value : Bool)
  | integer (value : Int)
  | decimal (value : Binary64)
  | text (value : Text)
deriving DecidableEq, Repr

namespace Scalar

def flagText (value : Bool) : Text := if value then "true" else "false"

def integerText (value : Int) : Text := (toString value).toList

def asText : Scalar → Text
  | flag value => flagText value
  | integer value => integerText value
  | decimal value => value.text
  | text value => value

end Scalar

end SchemaDiagram
