import SchemaDiagram.Edge
import SchemaDiagram.Entity
import SchemaDiagram.Settings.Basic

/-! The document of a diagram: a fenced block with front matter, class blocks and edges. -/

set_option autoImplicit false

namespace SchemaDiagram

namespace Document

def fenceOpen : Text := "```mermaid\n"
def fenceClose : Text := "```\n"

def option (name value : Text) : Text := name ++ ": ".toList ++ value ++ ['\n']

def header (settings : Settings) (title : Option Text) : Text :=
  fenceOpen ++ "---\n".toList ++
    (match title with
      | none => []
      | some title => option "title" title) ++
    "config:\n".toList ++ option "  look" settings.look ++ option "  layout" settings.layout ++
    option "  theme" settings.theme ++ "---\nclassDiagram\n".toList

def stem (fileName : Text) : Text := (Text.before? ".cds" fileName).getD fileName

def titleFor (input : Path) : Option Text := (input.fileName?.map stem).filter (!·.isEmpty)

def nameFor (input : Path) : Text := stem (input.fileName?.getD []) ++ ".md".toList

def edgeLine (edge : Edge) : Text := ' ' :: ' ' :: edge.line ++ ['\n']

def assemble (settings : Settings) (title : Option Text) (blocks : List Text) (edges : List Edge) : Text :=
  header settings title ++ blocks.flatten ++ edges.flatMap edgeLine ++ fenceClose

end Document

end SchemaDiagram
