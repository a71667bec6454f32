import SchemaDiagram.Proofs.Input
import SchemaDiagram.Proofs.Mirror

/-!
Where the files lie makes no difference to a report but for the places that its entities name. With these left
out, runs over the same texts are the same, whatever the files are called.
-/

set_option autoImplicit false

namespace SchemaDiagram

def SourceFile.unplaced (file : SourceFile) : SourceFile := { file with path := none }

def Entity.unplaced (entity : Entity) : Entity := { entity with source := none }

def Library.unplaced (library : Library) : Library := ⟨library.files.map SourceFile.unplaced, library.candidates⟩

def Rendering.unplaced (rendering : Rendering) : Rendering :=
  { rendering with entity := rendering.entity.unplaced }

def Catalog.unplaced (catalog : Catalog) : Catalog :=
  ⟨catalog.entries.map fun entry => (entry.1.unplaced, entry.2)⟩

def Run.unplaced (run : Run) : Run := { run with catalog := run.catalog.unplaced }

theorem Entity.names_unplaced (entities : List Entity) :
    (entities.map unplaced).map Entity.name = entities.map Entity.name := by
  rw [List.map_map]
  rfl

theorem Catalog.contains_unplaced (catalog : Catalog) (name : Text) :
    catalog.unplaced.contains name = catalog.contains name :=
  contains_viewed (fun entry => (entry.1.unplaced, entry.2)) (fun _ => rfl) catalog name

namespace Run

variable (types : TypeTable) (library : Library)

theorem add_unplaced (run : Run) (rendering : Rendering) :
    (run.add rendering).unplaced = run.unplaced.add rendering.unplaced := by
  have inserted := run.catalog.insert_viewed (fun entry => (entry.1.unplaced, entry.2)) (fun _ => rfl) rendering.entity
    rendering.entity.block
  exact congrArg (fun catalog => ({ run.add rendering with catalog } : Run)) inserted

theorem unplaced_mirrors (file : SourceFile) :
    Mirrors types library library.unplaced file unplaced SourceFile.unplaced id := by
  constructor
  · exact fun _ => rfl
  · exact fun _ _ => rfl
  · exact fun run name => run.catalog.contains_unplaced name
  · exact fun _ _ => rfl
  · exact library.find_viewed SourceFile.unplaced id (fun _ => rfl) (fun _ => rfl) (fun _ => (List.map_id _).symm)
      library.candidates
  · exact fun origin fragment _ _ run => add_unplaced run (fragment.render types origin)
  · exact fun _ => rfl
  · exact (List.map_id _).symm

theorem of_file_unplaced (file : SourceFile) (start : Run) :
    (ofFile types library file start).unplaced = ofFile types library.unplaced file.unplaced start.unplaced :=
  of_file_mirrored types library library.unplaced file unplaced SourceFile.unplaced id
    (unplaced_mirrors types library file) start

end Run

namespace Report

def unplaced (report : Report) : Report := { report with entities := report.entities.map Entity.unplaced }

theorem of_run_unplaced (settings : Settings) (title : Option Text) (run : Run) :
    (ofRun settings title run).unplaced = ofRun settings title run.unplaced := by
  have blocks : run.unplaced.catalog.entries.map Prod.snd = run.catalog.entries.map Prod.snd := by
    simp [Run.unplaced, Catalog.unplaced, Function.comp_def]
  have entities : run.unplaced.catalog.entities = run.catalog.entities.map Entity.unplaced := by
    simp [Run.unplaced, Catalog.unplaced, Catalog.entities, Function.comp_def]
  have known (name : Text) : run.unplaced.catalog.contains name = run.catalog.contains name :=
    run.catalog.contains_unplaced name
  simp only [ofRun, unplaced, blocks, entities, known]
  rfl

end Report

-- What a library holds but for where it lies depends only on what is read for each candidate.
theorem Source.library_unplaced (a b : Source) (names : List Text) (here there : Text → Path)
    (same : ∀ name ∈ names, a.read (here name) = b.read (there name)) :
    (a.library (names.map here)).unplaced = (b.library (names.map there)).unplaced := by
  have texts (source : Source) (place : Text → Path) :
      (source.library (names.map place)).unplaced =
        ⟨names.filterMap fun name => (source.read (place name)).map (SourceFile.ofText none), names.length⟩ := by
    simp only [library, Library.unplaced, List.filterMap_map, List.map_filterMap, List.length_map,
      Function.comp_apply, Option.map_map]
    rfl
  rw [texts, texts, List.filterMap_congr fun name member => by rw [same name member]]

-- Reports on a file over sources that read the same of it, and the same of what they look in for references.
theorem Input.report_unplaced (a b : Source) (settings : Settings) (dir path : Path)
    (given : a.read path = b.read path)
    (same : (a.library (a.list dir)).unplaced = (b.library (b.list (settings.searchDirFor path))).unplaced) :
    ((Input.file path).report a { settings with searchDir := some dir }).unplaced =
      ((Input.file path).report b settings).unplaced := by
  have content : (Input.file path).sourceFile a = (Input.file path).sourceFile b := by
    rw [sourceFile, sourceFile, Input.content, Input.content, given]
  have start : (Input.file path).start a = (Input.file path).start b := by
    rw [Input.start, Input.start, given]
  have runs : ((Input.file path).run a { settings with searchDir := some dir }).unplaced =
      ((Input.file path).run b settings).unplaced := by
    rw [run, run, Run.of_file_unplaced, Run.of_file_unplaced, content, start]
    exact congrArg (Run.ofFile settings.types · _ _) same
  rw [report_of_run, report_of_run, Report.of_run_unplaced, Report.of_run_unplaced, runs]
  rfl

end SchemaDiagram
