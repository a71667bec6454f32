import SchemaDiagram.Settings.Basic
import SchemaDiagram.Toml.Printer

/-! Settings as a TOML document, one table for each group of them. -/

set_option autoImplicit false

namespace SchemaDiagram

namespace Settings

def toToml (settings : Settings) : Text :=
  "[source]\n".toList ++ Toml.entry "convention" (Toml.string settings.convention.name) ++
    (match settings.searchDir with
      | none => []
      | some dir => Toml.entry "search_dir" (Toml.string dir.text)) ++
    "\n[render]\n".toList ++ Toml.entry "look" (Toml.string settings.look) ++
    Toml.entry "layout" (Toml.string settings.layout) ++ Toml.entry "theme" (Toml.string settings.theme) ++
    Toml.entry "title" (Scalar.flagText settings.title) ++
    "\n[types.project]\n".toList ++
    settings.projectTypes.flatMap fun (name, label) => Toml.entry (Toml.key name) (Toml.string label)

end Settings

end SchemaDiagram
