import SchemaDiagram.Text.Basic

/-! The names of types that need no declaration, and the labels they are shown with. -/

set_option autoImplicit false

namespace SchemaDiagram

def primitiveLabels : List (Text × Text) := [
  ("UUID", "UUID"), ("Boolean", "Boolean"), ("Integer", "Integer"), ("Int16", "Int16"),
  ("Int32", "Int32"), ("Int64", "Int64"), ("UInt8", "UInt8"), ("Integer64", "Int64"),
  ("Decimal", "Decimal"), ("DecimalFloat", "Decimal"), ("Double", "Double"), ("Date", "Date"),
  ("Time", "Time"), ("DateTime", "DateTime"), ("Timestamp", "Timestamp"), ("String", "String"),
  ("LargeString", "LargeString"), ("Binary", "Binary"), ("LargeBinary", "LargeBinary"),
  ("Vector", "Vector"), ("Map", "Map")]

-- Types of the common model, shown by their own names.
def commonTypes : List Text := ["Currency", "Country", "Language", "Timezone", "User"]

structure TypeTable where
  project : List (Text × Text) := []
deriving Repr

namespace TypeTable

-- Primitive types may be written with the built-in namespace in front.
def primitive? (name : Text) : Option Text :=
  primitiveLabels.lookup ((Text.after? "cds." name).getD name)

-- What a project says of a name goes before the common model.
def project? (types : TypeTable) (name : Text) : Option Text :=
  match types.project.lookup name with
  | some label => some label
  | none => commonTypes.find? (· = name)

def lookup? (types : TypeTable) (name : Text) : Option Text :=
  match primitive? name with
  | some label => some label
  | none => types.project? name

end TypeTable

end SchemaDiagram
