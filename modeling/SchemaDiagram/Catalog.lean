import SchemaDiagram.Entity

/-! Rendered entities with their blocks, in the order of rendering, one for each name. -/

set_option autoImplicit false

namespace SchemaDiagram

structure Catalog where
  entries : List (Entity × Text) := []
deriving Repr

namespace Catalog

def find? (catalog : Catalog) (name : Text) : Option (Entity × Text) :=
  catalog.entries.find? (·.1.name = name)

def contains (catalog : Catalog) (name : Text) : Bool := (catalog.find? name).isSome

def text? (catalog : Catalog) (name : Text) : Option Text := (catalog.find? name).map Prod.snd

-- The first entity of a name stays.
def insert (catalog : Catalog) (entity : Entity) (text : Text) : Catalog :=
  if catalog.contains entity.name then catalog else ⟨catalog.entries ++ [(entity, text)]⟩

def entities (catalog : Catalog) : List Entity := catalog.entries.map Prod.fst

theorem contains_insert (catalog : Catalog) (entity : Entity) (text name : Text) :
    (catalog.insert entity text).contains name = (catalog.contains name || entity.name = name) := by
  unfold insert
  split
  · rename_i known
    by_cases same : entity.name = name
    · simp [same ▸ known]
    · simp [same]
  · simp [contains, find?, List.find?_append, List.find?_singleton]
    split <;> simp_all

end Catalog

end SchemaDiagram
