import SchemaDiagram.Proofs.Input
import SchemaDiagram.Proofs.LineEnds.Statement
import SchemaDiagram.Proofs.Mirror

/-!
Runs over files with CRs and over the same files without them go side by side. They differ by nothing but the CRs in
text that is shown as it stands.
-/

set_option autoImplicit false

namespace SchemaDiagram

open Text

def Library.withoutReturns (library : Library) : Library :=
  ⟨library.files.map SourceFile.withoutReturns, library.candidates⟩

namespace Catalog

-- A block is stored with its entity, and has to be printed again where the entity lost its CRs.
def bareEntry (entry : Entity × Text) : Entity × Text := (entry.1.bare, entry.1.bare.block)

def bare (catalog : Catalog) : Catalog := ⟨catalog.entries.map bareEntry⟩

theorem contains_bare (catalog : Catalog) (name : Text) : catalog.bare.contains name = catalog.contains name :=
  contains_viewed bareEntry (fun _ => rfl) catalog name

theorem entities_bare (catalog : Catalog) : catalog.bare.entities = catalog.entities.map Entity.bare := by
  rw [entities, entities, bare, List.map_map, List.map_map]
  rfl

end Catalog

namespace Run

def bare (run : Run) : Run :=
  { run with catalog := run.catalog.bare, diagnostics := run.diagnostics.map Diagnostic.bare }

theorem add_bare (run : Run) (rendering : Rendering) : (run.add rendering).bare = run.bare.add rendering.bare := by
  have inserted := run.catalog.insert_viewed Catalog.bareEntry (fun _ => rfl) rendering.entity rendering.entity.block
  have findings : (run.diagnostics ++ rendering.findings).map Diagnostic.bare =
      run.diagnostics.map Diagnostic.bare ++ rendering.findings.map Diagnostic.bare := List.map_append
  rw [bare, add, add, findings]
  exact congrArg (fun catalog => (⟨catalog, _, _, _⟩ : Run)) inserted

theorem report_bare (run : Run) (finding : Diagnostic) (code : finding.code ≠ .unparsableLine) :
    (run.report finding).bare = run.bare.report finding := by
  have same : finding.bare = finding := if_neg code
  rw [bare, report, report, List.map_append, List.map_singleton, same]
  rfl

variable (types : TypeTable) (library : Library) (file : SourceFile)
  (paired : ∀ origin, origin = file ∨ origin ∈ library.files → ∀ fragment ∈ origin.fragments,
    pairedReturns fragment.text = true)

include paired

theorem bare_mirrors :
    Mirrors types library library.withoutReturns file bare SourceFile.withoutReturns Fragment.withoutReturns := by
  constructor
  · exact fun _ => rfl
  · exact fun _ _ => rfl
  · exact fun run name => run.catalog.contains_bare name
  · exact fun run reference => report_bare run _ fun code => by cases code
  · exact library.find_viewed SourceFile.withoutReturns Fragment.withoutReturns (fun _ => rfl) (fun _ => rfl)
      (fun _ => rfl) library.candidates
  · intro origin fragment place declared run
    rw [add_bare, fragment.render_bare types origin (paired origin place fragment declared)]
  · exact fun _ => rfl
  · rfl

theorem of_file_bare (start : Run) :
    (ofFile types library file start).bare =
      ofFile types library.withoutReturns file.withoutReturns start.bare :=
  of_file_mirrored types library library.withoutReturns file bare SourceFile.withoutReturns Fragment.withoutReturns
    (bare_mirrors types library file paired) start

end Run

/-! The files that a run is made over. -/

namespace Source

def withoutReturns (source : Source) : Source :=
  { source with read := fun path => (source.read path).map Text.withoutReturns }

-- In no file an LF stands apart from the CR in front of it.
def Paired (source : Source) : Prop := ∀ path text, source.read path = some text → pairedReturns text = true

theorem library_without_returns (source : Source) (paired : source.Paired) (candidates : List Path) :
    source.withoutReturns.library candidates = (source.library candidates).withoutReturns := by
  rw [library, library, Library.withoutReturns, List.map_filterMap]
  congr 1
  apply List.filterMap_congr
  intro path _
  change ((source.read path).map Text.withoutReturns).map (SourceFile.ofText (some path)) = _
  cases found : source.read path with
  | none => rfl
  | some text =>
    rw [Option.map_some, Option.map_some, Option.map_some, Option.map_some,
      SourceFile.of_text_without_returns (some path) text (paired path text found)]

end Source

namespace Input

def withoutReturns : Input → Input
  | file path => file path
  | text given candidates title => text given.withoutReturns candidates title

variable (source : Source) (settings : Settings) (input : Input) (files : source.Paired)
  (given : pairedReturns (input.content source) = true)

theorem content_without_returns :
    input.withoutReturns.content source.withoutReturns = (input.content source).withoutReturns := by
  cases input with
  | text given candidates title => rfl
  | file path =>
    change ((source.read path).map Text.withoutReturns).getD [] = ((source.read path).getD []).withoutReturns
    cases source.read path <;> rfl

include files given

theorem run_bare :
    (input.run source settings).bare = input.withoutReturns.run source.withoutReturns settings := by
  have file : input.withoutReturns.sourceFile source.withoutReturns = (input.sourceFile source).withoutReturns := by
    rw [sourceFile, sourceFile, content_without_returns]
    cases input <;> exact SourceFile.of_text_without_returns _ _ given
  have others : input.withoutReturns.library source.withoutReturns settings =
      (input.library source settings).withoutReturns := by
    cases input <;> exact source.library_without_returns files _
  have start : input.withoutReturns.start source.withoutReturns = (input.start source).bare := by
    cases input with
    | text given candidates title => rfl
    | file path =>
      change (if ((source.read path).map Text.withoutReturns).isSome then _ else _) = _
      rw [Option.isSome_map]
      simp only [Input.start]
      split <;> rfl
  have each (origin : SourceFile) (place : origin = input.sourceFile source ∨
      origin ∈ (input.library source settings).files) :
      ∀ fragment ∈ origin.fragments, pairedReturns fragment.text = true := by
    rcases place with rfl | candidate
    · exact (fragments_without_returns _ given).2
    · obtain ⟨path, text, read, rfl⟩ := library_file source settings input origin candidate
      exact (fragments_without_returns text (files path text read)).2
  rw [run, run, Run.of_file_bare settings.types (input.library source settings) (input.sourceFile source) each, file,
    others, start]

theorem report_bare :
    let report := input.report source settings
    let other := input.withoutReturns.report source.withoutReturns settings
    other.entities = report.entities.map Entity.bare ∧ other.edges = report.edges ∧
      other.diagnostics = report.diagnostics.map Diagnostic.bare := by
  have orphans (edges : List Edge) :
      (edges.map Diagnostic.orphan).map Diagnostic.bare = edges.map Diagnostic.orphan := by
    rw [List.map_map]
    rfl
  have known (name : Text) : (input.run source settings).bare.catalog.contains name =
      (input.run source settings).catalog.contains name := Catalog.contains_bare _ name
  simp only [report_of_run, ← run_bare source settings input files given, Report.ofRun, known, List.map_append, orphans]
  exact ⟨Catalog.entities_bare _, rfl, rfl⟩

end Input

end SchemaDiagram
