import SchemaDiagram.Settings.Address

/-! Layers of settings. Each layer is laid over those before it. -/

set_option autoImplicit false

namespace SchemaDiagram

abbrev Layer := List (Text × Setting)

namespace Layer

-- The layer of a document, which as a whole stands for no date or time.
def ofToml? (origin : Text) (entries : Toml.Entries) : Option Layer :=
  if entries.head?.any (·.1 = Setting.momentName) then none else Setting.ofEntries? origin entries

def laidOn (old : Setting) (layer : Layer) : Setting :=
  layer.foldl (fun old (address, new) => Address.put new (Address.ofText (Text.lower address)) old) old

def merge (layers : List Layer) : Setting := layers.foldl laidOn .empty

end Layer

end SchemaDiagram
