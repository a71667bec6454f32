import SchemaDiagram.Declaration
import SchemaDiagram.Namespace
import SchemaDiagram.Path

/-! A schema file as the place that declarations and names are read in. -/

set_option autoImplicit false

namespace SchemaDiagram

structure SourceFile where
  path : Option Path
  text : Text
  qualifier : Option Text
  declared : List Text
  fragments : List Fragment
deriving Repr

namespace SourceFile

def ofText (path : Option Path) (text : Text) : SourceFile :=
  ⟨path, text, Namespace.ofSource? text, declaredNames text, SchemaDiagram.fragments text⟩

def declares (file : SourceFile) (name : Text) : Bool := file.declared.elem name

def fragment? (file : SourceFile) (name : Text) : Option Fragment :=
  file.fragments.find? (·.name = name)

theorem fragment_found (file : SourceFile) (name : Text) (fragment : Fragment)
    (found : file.fragment? name = some fragment) : fragment ∈ file.fragments ∧ fragment.name = name := by
  have named := List.find?_some found
  exact ⟨List.mem_of_find?_eq_some found, of_decide_eq_true named⟩

end SourceFile

end SchemaDiagram
