import SchemaDiagram.Document
import SchemaDiagram.Run

/-!
The outcome of a run, and the files that a run is made over. Edges to names that were never rendered are
left out of the report, each with a finding.
-/

set_option autoImplicit false

namespace SchemaDiagram

structure Source where
  list : Path → List Path
  read : Path → Option Text

namespace Source

def library (source : Source) (candidates : List Path) : Library :=
  ⟨candidates.filterMap fun path => (source.read path).map (SourceFile.ofText (some path)),
    candidates.length⟩

end Source

structure Report where
  document : Text
  entities : List Entity
  edges : List Edge
  diagnostics : List Diagnostic
deriving Repr

namespace Report

def entity? (report : Report) (name : Text) : Option Entity := report.entities.find? (·.name = name)

def edge? (report : Report) (owner target : Text) : Option Edge :=
  report.edges.find? (Edge.joins owner target)

def ofRun (settings : Settings) (title : Option Text) (run : Run) : Report :=
  let rendered (edge : Edge) : Bool := run.catalog.contains edge.target
  let edges := run.registry.edges.filter rendered
  { document := Document.assemble settings title (run.catalog.entries.map Prod.snd) edges
    entities := run.catalog.entities
    edges
    diagnostics := run.diagnostics ++ (run.registry.edges.filter (!rendered ·)).map Diagnostic.orphan }

def ofInput (source : Source) (settings : Settings) (path : Option Path) (text : Text)
    (candidates : List Path) (title : Option Text) (start : Run) : Report :=
  ofRun settings title
    (Run.ofFile settings.types (source.library candidates) (SourceFile.ofText path text) start)

def ofText (source : Source) (settings : Settings) (text : Text) (candidates : List Path)
    (title : Option Text) : Report :=
  ofInput source settings none text candidates title {}

-- An input that cannot be read counts as empty.
def ofFile (source : Source) (settings : Settings) (input : Path) : Report :=
  let candidates := source.list (settings.searchDirFor input)
  let title := if settings.title then Document.titleFor input else none
  match source.read input with
  | some text => ofInput source settings (some input) text candidates title {}
  | none =>
    ofInput source settings (some input) [] candidates title
      { diagnostics := [Diagnostic.unreadable input] }

def ofDirectory (source : Source) (settings : Settings) (dir : Path) : List (Path × Report) :=
  (source.list dir).map fun path => (path, ofFile source settings path)

end Report

end SchemaDiagram
