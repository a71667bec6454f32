import SchemaDiagram.Path
import SchemaDiagram.TypeTable

/-! What a user chooses about a diagram and about the files that it is drawn from. -/

set_option autoImplicit false

namespace SchemaDiagram

inductive Convention where
  | plain
  | schema
deriving DecidableEq, Repr

namespace Convention

def name : Convention → Text
  | plain => "plain"
  | schema => "schema"

def ending : Convention → Text
  | plain => ".cds"
  | schema => "schema.cds"

def admits (convention : Convention) (fileName : Text) : Bool :=
  Text.endsWith convention.ending fileName

end Convention

structure Settings where
  convention : Convention := .plain
  -- Where candidates for references are; without it, next to the input.
  searchDir : Option Path := none
  look : Text := "neo"
  layout : Text := "elk"
  theme : Text := "dark"
  title : Bool := true
  projectTypes : List (Text × Text) := []
deriving DecidableEq, Repr

namespace Settings

def types (settings : Settings) : TypeTable := ⟨settings.projectTypes⟩

def searchDirFor (settings : Settings) (input : Path) : Path :=
  match settings.searchDir with
  | some dir => dir
  | none => (input.parent?.filter (!·.text.isEmpty)).getD ⟨['.']⟩

end Settings

end SchemaDiagram
