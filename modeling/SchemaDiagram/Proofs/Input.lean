import SchemaDiagram.Proofs.Ledger
import SchemaDiagram.Report

/-!
What a report is made on: a file of the source, or a text with the candidates for its references. An entity
of the report is traced back to the file that it was read from.
-/

set_option autoImplicit false

namespace SchemaDiagram

inductive Input where
  | file (path : Path)
  | text (given : Text) (candidates : List Path) (title : Option Text)

namespace Input

def path? : Input → Option Path
  | file path => some path
  | text _ _ _ => none

-- A file that cannot be read counts as empty.
def content (source : Source) : Input → Text
  | file path => (source.read path).getD []
  | text given _ _ => given

def candidates (source : Source) (settings : Settings) : Input → List Path
  | file path => source.list (settings.searchDirFor path)
  | text _ candidates _ => candidates

def title? (settings : Settings) : Input → Option Text
  | file path => if settings.title then Document.titleFor path else none
  | text _ _ title => title

def report (source : Source) (settings : Settings) : Input → Report
  | file path => Report.ofFile source settings path
  | text given candidates title => Report.ofText source settings given candidates title

variable (source : Source) (settings : Settings) (input : Input)

def start : Run :=
  match input with
  | file path => if (source.read path).isSome then {} else { diagnostics := [Diagnostic.unreadable path] }
  | text _ _ _ => {}

def sourceFile : SourceFile := SourceFile.ofText input.path? (input.content source)

def library : Library := source.library (input.candidates source settings)

def run : Run :=
  Run.ofFile settings.types (input.library source settings) (input.sourceFile source) (input.start source)

theorem report_of_run :
    input.report source settings =
      Report.ofRun settings (input.title? settings) (input.run source settings) := by
  cases input with
  | file path =>
    cases readable : source.read path <;>
      simp [report, Report.ofFile, readable, Report.ofInput, run, title?, library, candidates, sourceFile,
        path?, content, start]
  | text given candidates title => rfl

-- The file that was read under a path; the input goes before what the source holds.
def fileOf? (origin : Option Path) : Option SourceFile :=
  if origin = input.path? then some (input.sourceFile source)
  else origin.bind fun path => (source.read path).map (SourceFile.ofText (some path))

-- The first declaration of an entity's name in the file that the entity names as its own.
def fragmentOf? (entity : Entity) : Option (SourceFile × Fragment) :=
  (input.fileOf? source entity.source).bind fun file => (file.fragment? entity.name).map (file, ·)

-- What that declaration tells in that file.
def told {α : Type} (tell : SourceFile → Fragment → List α) (entity : Entity) : List α :=
  match input.fragmentOf? source entity with
  | some (origin, fragment) => tell origin fragment
  | none => []

def requests : Entity → List Reference :=
  input.told source fun origin fragment => fragment.elements.filterMap (Element.request? settings.types origin)

def declaredEdges : Entity → List Edge :=
  input.told source fun origin fragment =>
    fragment.elements.filterMap (Element.edge? settings.types origin fragment.name)

theorem start_ledger :
    Run.Ledger settings.types (input.library source settings) (input.sourceFile source) [] [] [] []
      (input.start source) := by
  apply Run.ledger_start
  all_goals
    cases input with
    | file path => simp only [start]; split <;> rfl
    | text given candidates title => rfl

theorem run_ledger :
    ∃ visits rendered,
      Run.Course settings.types (input.library source settings) (input.sourceFile source)
        (input.sourceFile source).fragments (input.start source) visits (input.run source settings) ∧
      Run.Ledger settings.types (input.library source settings) (input.sourceFile source)
        (input.sourceFile source).fragments visits rendered [] (input.run source settings) := by
  obtain ⟨visits, course⟩ := Run.render_each_course settings.types (input.library source settings)
    (input.sourceFile source) (input.sourceFile source).fragments (input.start source)
  obtain ⟨rendered, ledger⟩ := Run.course_ledger _ _ _ [] [] [] (input.start source) _ [] visits _ course
    (by simp) (input.start_ledger source settings)
  have same : input.run source settings = _ :=
    (Run.settled_rounds _ _ _ _ visits rendered _ ledger).2
  rw [same]
  exact ⟨visits, rendered, course, ledger⟩

theorem library_file (origin : SourceFile) (member : origin ∈ (input.library source settings).files) :
    ∃ path text, source.read path = some text ∧ origin = SourceFile.ofText (some path) text := by
  obtain ⟨path, _, readable⟩ := List.mem_filterMap.mp member
  obtain ⟨text, read, same⟩ := Option.map_eq_some_iff.mp readable
  exact ⟨path, text, read, same.symm⟩

-- A candidate that is the input under its own path holds the text that was read as the input.
theorem file_of_candidate (origin : SourceFile) (member : origin ∈ (input.library source settings).files) :
    input.fileOf? source origin.path = some origin := by
  obtain ⟨path, text, read, rfl⟩ := library_file source settings input origin member
  change input.fileOf? source (some path) = some (SourceFile.ofText (some path) text)
  by_cases same : some path = input.path?
  · rw [fileOf?, if_pos same]
    cases input with
    | file given =>
      cases same
      simp [sourceFile, path?, content, read]
    | text given candidates title => contradiction
  · rw [fileOf?, if_neg same]
    simp [read]

theorem fragment_of_render (file : SourceFile) (fragment : Fragment)
    (located : input.fileOf? source file.path = some file)
    (first : file.fragment? fragment.name = some fragment) :
    input.fragmentOf? source (fragment.render settings.types file).entity = some (file, fragment) := by
  change ((input.fileOf? source file.path).bind fun file => (file.fragment? fragment.name).map (file, ·)) = _
  rw [located, Option.bind_some, first, Option.map_some]

theorem fragment_of_emitted (seen : List Fragment) (rendered : List Rendering)
    (emitted : Run.Emitted settings.types (input.library source settings) (input.sourceFile source) seen rendered)
    (rendering : Rendering) (member : rendering ∈ rendered) :
    ∃ file fragment, input.fragmentOf? source rendering.entity = some (file, fragment) ∧
      rendering = fragment.render settings.types file := by
  obtain ⟨origin, fragment, rfl, first, place⟩ := Run.emitted_origin _ _ _ seen rendered emitted rendering member
  refine ⟨origin, fragment, ?_, rfl⟩
  apply fragment_of_render source settings input origin fragment _ first
  rcases place with rfl | candidate
  · exact if_pos rfl
  · exact file_of_candidate source settings input origin candidate

theorem told_by_entities {α : Type} (tell : SourceFile → Fragment → List α) (items : Rendering → List α)
    (tells : ∀ origin fragment, items (fragment.render settings.types origin) = tell origin fragment)
    (seen : List Fragment) (rendered part : List Rendering)
    (emitted : Run.Emitted settings.types (input.library source settings) (input.sourceFile source) seen rendered)
    (inside : part ⊆ rendered) :
    (part.map Rendering.entity).flatMap (input.told source tell) = part.flatMap items := by
  rw [List.flatMap_map]
  apply List.flatMap_congr
  intro rendering member
  obtain ⟨origin, fragment, located, rfl⟩ :=
    fragment_of_emitted source settings input seen rendered emitted rendering (inside member)
  rw [told, located, tells]

theorem requests_of_entities (seen : List Fragment) (rendered part : List Rendering)
    (emitted : Run.Emitted settings.types (input.library source settings) (input.sourceFile source) seen rendered)
    (inside : part ⊆ rendered) :
    (part.map Rendering.entity).flatMap (input.requests source settings) = part.flatMap Rendering.requests := by
  apply told_by_entities source settings input _ _ _ seen rendered part emitted inside
  intro origin fragment
  exact fragment.requests_of_elements settings.types origin

theorem report_entities (visits : List Visit) (rendered : List Rendering)
    (ledger : Run.Ledger settings.types (input.library source settings) (input.sourceFile source)
      (input.sourceFile source).fragments visits rendered [] (input.run source settings)) :
    (input.report source settings).entities = rendered.map Rendering.entity := by
  rw [report_of_run, Report.ofRun, Catalog.entities, ledger.catalog]
  simp [Rendering.entry, Function.comp_def]

end Input

end SchemaDiagram
