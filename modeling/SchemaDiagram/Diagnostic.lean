import SchemaDiagram.Edge
import SchemaDiagram.Path
import SchemaDiagram.Worklist

/-! Findings of a run. None of them stops it. -/

set_option autoImplicit false

namespace SchemaDiagram

inductive DiagnosticCode where
  | unreadableSource
  | unparsableLine
  | unresolvedType
  | orphanRelationship
deriving DecidableEq, Repr

inductive Severity where
  | info
  | warning
deriving DecidableEq, Repr

namespace Severity

def name : Severity → Text
  | info => "info"
  | warning => "warning"

end Severity

namespace DiagnosticCode

def number : DiagnosticCode → Text
  | unreadableSource => "W001"
  | unparsableLine => "W002"
  | orphanRelationship => "W003"
  | unresolvedType => "I001"

def severity : DiagnosticCode → Severity
  | unresolvedType => .info
  | unreadableSource | unparsableLine | orphanRelationship => .warning

end DiagnosticCode

structure Diagnostic where
  code : DiagnosticCode
  -- The entity that was being rendered.
  entity : Option Text
  message : Text
deriving DecidableEq, Repr

namespace Diagnostic

def line (diagnostic : Diagnostic) : Text :=
  diagnostic.code.severity.name ++ '[' :: diagnostic.code.number ++ "] ".toList ++
    (match diagnostic.entity with
      | none => []
      | some entity => entity ++ ": ".toList) ++ diagnostic.message

def isWarning (diagnostic : Diagnostic) : Bool := diagnostic.code.severity = .warning

def quoted (t : Text) : Text := '\'' :: t ++ ['\'']

def decimal (n : Nat) : Text := Nat.toDigits 10 n

def unreadable (path : Path) : Diagnostic :=
  ⟨.unreadableSource, none, "cannot read ".toList ++ path.text ++ ", rendering empty diagram".toList⟩

def unusable (owner statement : Text) : Diagnostic :=
  ⟨.unparsableLine, some owner, "skipped unusable line ".toList ++ quoted statement.trim⟩

def unknownType (owner name label : Text) : Diagnostic :=
  ⟨.unresolvedType, some owner, "type ".toList ++ quoted label ++ " of ".toList ++ quoted name ++
    " is not a known type".toList⟩

def notFound (reference : Reference) (candidates : Nat) : Diagnostic :=
  ⟨.unresolvedType, none, quoted (reference.qualifier ++ '.' :: reference.name) ++ " not found in ".toList ++
    decimal candidates ++ " candidate file(s)".toList⟩

def orphan (edge : Edge) : Diagnostic :=
  ⟨.orphanRelationship, some edge.owner, "dropped edge to unrendered ".toList ++ quoted edge.target⟩

end Diagnostic

end SchemaDiagram
