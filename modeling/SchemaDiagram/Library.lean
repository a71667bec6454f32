import SchemaDiagram.Resolution

/-! The files in which declarations for qualified references are looked for. -/

set_option autoImplicit false

namespace SchemaDiagram

structure Library where
  files : List SourceFile
  -- How many candidates there are, readable or not.
  candidates : Nat
deriving Repr

namespace Library

def answer? (reference : Reference) (file : SourceFile) : Option (SourceFile × Fragment) :=
  if file.qualifier.any (Namespace.accepts · reference.qualifier) then
    (file.fragment? reference.name).map (file, ·)
  else none

-- The first file that answers wins; one of the right namespace without the name does not end the
-- search.
def find? (library : Library) (reference : Reference) : Option (SourceFile × Fragment) :=
  library.files.findSome? (answer? reference)

def fragments (library : Library) : List (SourceFile × Fragment) :=
  library.files.flatMap fun file => file.fragments.map (file, ·)

theorem origin_of_find (library : Library) (reference : Reference) (origin : SourceFile)
    (fragment : Fragment) (found : library.find? reference = some (origin, fragment)) :
    origin ∈ library.files ∧ origin.qualifier.any (Namespace.accepts · reference.qualifier) = true ∧
      origin.fragment? reference.name = some fragment := by
  obtain ⟨file, member, answer⟩ := List.exists_of_findSome?_eq_some found
  unfold answer? at answer
  split at answer
  · rename_i accepted
    obtain ⟨declared, first, same⟩ := Option.map_eq_some_iff.mp answer
    cases same
    exact ⟨member, accepted, first⟩
  · contradiction

theorem mem_fragments_of_find (library : Library) (reference : Reference) (file : SourceFile)
    (fragment : Fragment) (found : library.find? reference = some (file, fragment)) :
    (file, fragment) ∈ library.fragments ∧ fragment.name = reference.name := by
  obtain ⟨member, _, first⟩ := origin_of_find library reference file fragment found
  obtain ⟨inside, named⟩ := file.fragment_found reference.name fragment first
  exact ⟨List.mem_flatMap.mpr ⟨file, member, List.mem_map.mpr ⟨fragment, inside, rfl⟩⟩, named⟩

end Library

end SchemaDiagram
