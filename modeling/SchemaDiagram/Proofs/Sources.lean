import SchemaDiagram.Proofs.Holding
import SchemaDiagram.Proofs.Placement

/-!
The same files in memory and on a disk. Reports on a file below the working directory are the same over both.
For a file that lies in the working directory itself the memory has to be asked for the empty path: by the dot,
as a search without a directory of its own asks, it lists nothing.
-/

set_option autoImplicit false

namespace SchemaDiagram

-- A report takes from its source the input, the candidates, and what is read under them.
theorem Input.report_congr (a b : Source) (settings : Settings) (input : Path)
    (given : a.read input = b.read input)
    (listed : a.list (settings.searchDirFor input) = b.list (settings.searchDirFor input))
    (read : ∀ path ∈ a.list (settings.searchDirFor input), a.read path = b.read path) :
    (Input.file input).report a settings = (Input.file input).report b settings := by
  have content : (Input.file input).content a = (Input.file input).content b := by
    rw [Input.content, Input.content, given]
  have start : (Input.file input).start a = (Input.file input).start b := by
    rw [Input.start, Input.start, given]
  have library : (Input.file input).library a settings = (Input.file input).library b settings := by
    rw [Input.library, Input.library, Input.candidates, Input.candidates, Source.library, Source.library, ← listed,
      List.filterMap_congr fun path member => by rw [read path member]]
  rw [Input.report_of_run, Input.report_of_run, Input.run, Input.run, Input.sourceFile, Input.sourceFile, content,
    start, library]

namespace Settings

variable (settings : Settings) (unset : settings.searchDir = none)

include unset

theorem search_dir_above (init : List Text) (last : Text) (named : ∀ name ∈ init ++ [last], Path.IsName name)
    (filled : init ≠ []) : settings.searchDirFor (Path.ofNames (init ++ [last])) = Path.ofNames init := by
  have spelled : (Path.ofNames init).text.isEmpty = false := by
    simpa using Path.text_of_names init (Path.init_named init last named) filled
  rw [searchDirFor, unset, Path.parent_of_names init last named]
  simp only [Option.filter_some, spelled]
  rfl

theorem search_dir_alone (path : Path) (normal : path.Normal) (alone : path.components.length = 1) :
    settings.searchDirFor path = ⟨['.']⟩ := by
  obtain ⟨init, last, split, spelled, named⟩ := path.normal_names normal
  have lone : init = [] := by simpa [split] using alone
  rw [spelled, searchDirFor, unset, Path.parent_of_names init last named, lone]
  rfl

end Settings

section

variable (convention : Convention) (disk : Disk) (files : List (Path × Text))
  (distinct : (files.map Prod.fst).Nodup) (normal : ∀ file ∈ files, file.1.Normal) (held : disk.Holds files)

include distinct normal held

theorem read_alike (file : Path × Text) (member : file ∈ files) :
    (MemorySource.ofFiles convention files).read file.1 = disk.read file.1 := by
  rw [MemorySource.read_of_files convention files distinct normal file member,
    disk.read_of_held files held normal file member]

-- Asked for the directory as its paths spell it, the memory lists the names that the disk has there.
theorem list_as_named (dir : List Text) (named : ∀ name ∈ dir, Path.IsName name) :
    (MemorySource.ofFiles convention files).list (Path.ofNames dir) =
      ((disk.fileNames (disk.here ++ dir)).filter convention.admits).map fun name => Path.ofNames (dir ++ [name]) := by
  have separate := MemorySource.components_distinct files distinct normal
  have paths : ∀ path ∈ files.map Prod.fst, path.Normal := by simpa using fun path text => normal (path, text)
  rw [MemorySource.of_distinct_files convention files distinct normal,
    MemorySource.list_of_names ⟨files, convention⟩ dir named paths,
    disk.sorted_held_names files held dir convention.admits separate]

theorem list_alike (file : Path × Text) (member : file ∈ files) (init : List Text) (last : Text)
    (split : file.1.components = init ++ [last]) (below : init ≠ []) :
    (MemorySource.ofFiles convention files).list (Path.ofNames init) =
      disk.list convention (Path.ofNames init) := by
  have named := (normal file member).named
  rw [split] at named
  rw [disk.list_beside files held normal convention file member init last split below,
    list_as_named convention disk files distinct normal held init (Path.init_named init last named)]

theorem reports_alike (settings : Settings) (unset : settings.searchDir = none) (file : Path × Text)
    (member : file ∈ files) (below : 1 < file.1.components.length) :
    (Input.file file.1).report (MemorySource.ofFiles convention files).source settings =
      (Input.file file.1).report (disk.source convention) settings := by
  obtain ⟨init, last, split, spelled, named⟩ := file.1.normal_names (normal file member)
  have filled : init ≠ [] := by
    rintro rfl
    rw [split] at below
    exact absurd below (Nat.lt_irrefl 1)
  have dir : settings.searchDirFor file.1 = Path.ofNames init := by
    rw [spelled]
    exact settings.search_dir_above unset init last named filled
  apply Input.report_congr
  · exact read_alike convention disk files distinct normal held file member
  · rw [dir]
    exact list_alike convention disk files distinct normal held file member init last split filled
  · intro path listed
    obtain ⟨other, inside, rfl⟩ := MemorySource.file_of_listed convention files distinct normal _ path listed
    exact read_alike convention disk files distinct normal held other inside

-- Over the disk a file beside the input is named with the dot in front, so its place alone differs.
theorem reports_alike_but_places (settings : Settings) (unset : settings.searchDir = none) (file : Path × Text)
    (member : file ∈ files) (alone : file.1.components.length = 1) :
    ((Input.file file.1).report (MemorySource.ofFiles convention files).source
        { settings with searchDir := some ⟨[]⟩ }).unplaced =
      ((Input.file file.1).report (disk.source convention) settings).unplaced := by
  have dir := settings.search_dir_alone unset file.1 (normal file member) alone
  have listed := list_as_named convention disk files distinct normal held [] (by simp)
  apply Input.report_unplaced
  · exact read_alike convention disk files distinct normal held file member
  · rw [dir]
    -- The candidates are spelled with and without the dot, but have the same names in the same order.
    change (Source.library _ ((MemorySource.ofFiles convention files).list (Path.ofNames []))).unplaced =
      (Source.library _ (disk.list convention ⟨['.']⟩)).unplaced
    rw [listed, disk.list_here convention held.tree, List.append_nil]
    apply Source.library_unplaced
    intro name inside
    have known := (disk.mem_held_names files held [] name).mp (by simpa using (List.mem_filter.mp inside).1)
    obtain ⟨other, among, place⟩ := (mem_names_in [] _ name).mp known
    obtain ⟨found, there, rfl⟩ := List.mem_map.mp among
    have plain : found.1 = Path.ofNames [name] := (normal found there).spelled.trans (congrArg Path.ofNames place)
    calc (MemorySource.ofFiles convention files).read (Path.ofNames [name])
        = some found.2 := plain ▸ MemorySource.read_of_files convention files distinct normal found there
      _ = disk.read (Path.join ⟨['.']⟩ ⟨name⟩) := (disk.read_dotted files held normal found there name place).symm

end

-- Where no directory is set, a search in the working directory goes by the dot, and only the disk answers to it.
theorem sources_agree (convention : Convention) (settings : Settings) (disk : Disk) (files : List (Path × Text))
    (distinct : (files.map Prod.fst).Nodup) (normal : ∀ file ∈ files, file.1.Normal) (held : disk.Holds files)
    (unset : settings.searchDir = none) (file : Path × Text) (member : file ∈ files) :
    let memory := (MemorySource.ofFiles convention files).source
    let folder := disk.source convention
    (1 < file.1.components.length → Report.ofFile memory settings file.1 = Report.ofFile folder settings file.1) ∧
      (file.1.components.length = 1 →
        memory.list (settings.searchDirFor file.1) = [] ∧
          (Report.ofFile memory { settings with searchDir := some ⟨[]⟩ } file.1).unplaced =
            (Report.ofFile folder settings file.1).unplaced) := by
  intro memory folder
  refine ⟨reports_alike convention disk files distinct normal held settings unset file member, ?_⟩
  intro alone
  refine ⟨?_, reports_alike_but_places convention disk files distinct normal held settings unset file member alone⟩
  rw [settings.search_dir_alone unset file.1 (normal file member) alone]
  exact MemorySource.nothing_listed_here convention files distinct normal

-- The same two files in the working directory and in a directory below.
def twiceOver : List (Path × Text) :=
  [(⟨"a.cds"⟩, "entity A{x:q.B;}"), (⟨"b.cds"⟩, "namespace q;entity B{}"),
    (⟨"d/a.cds"⟩, "entity A{x:q.B;}"), (⟨"d/b.cds"⟩, "namespace q;entity B{}")]

def twiceOverDisk : Disk :=
  ⟨([['d']], .dir) :: twiceOver.map fun file => (file.1.components, .file (Disk.encode file.2)), []⟩

theorem twice_over_normal : ∀ file ∈ twiceOver, file.1.Normal := by decide +kernel

theorem twice_over_held : twiceOverDisk.Holds twiceOver where
  tree := {
    distinct := by decide +kernel
    rooted := by
      rintro entry (_ | ⟨_, member⟩)
      · exact ⟨by decide, rfl⟩
      · obtain ⟨file, inside, rfl⟩ := List.mem_map.mp member
        have filled := (twice_over_normal file inside).filled
        have dirs : ∀ file ∈ twiceOver, file.1.components.dropLast = [] ∨ file.1.components.dropLast = [['d']] := by
          decide +kernel
        refine ⟨filled, ?_⟩
        rcases dirs file inside with above | above
        · exact above ▸ rfl
        · exact above ▸ rfl
    short := by decide +kernel
    here := rfl }
  exactly := by
    intro location content
    simp [twiceOverDisk]
  sound := by decide +kernel

theorem twice_over_agreed :
    Report.ofFile (MemorySource.ofFiles .plain twiceOver).source {} ⟨"d/a.cds"⟩ =
        Report.ofFile (twiceOverDisk.source .plain) {} ⟨"d/a.cds"⟩ ∧
      (MemorySource.ofFiles .plain twiceOver).list ⟨"."⟩ = [] ∧
      (Report.ofFile (MemorySource.ofFiles .plain twiceOver).source { searchDir := some ⟨[]⟩ } ⟨"a.cds"⟩).unplaced =
        (Report.ofFile (twiceOverDisk.source .plain) {} ⟨"a.cds"⟩).unplaced := by
  have agree := sources_agree .plain {} twiceOverDisk twiceOver (by decide +kernel) twice_over_normal
    twice_over_held rfl
  have below := agree (⟨"d/a.cds"⟩, "entity A{x:q.B;}") (by decide +kernel)
  have here := agree (⟨"a.cds"⟩, "entity A{x:q.B;}") (by decide +kernel)
  exact ⟨below.1 (by decide +kernel), here.2 (by decide +kernel)⟩

-- Over the disk the file in the working directory finds what it refers to beside it.
theorem found_beside :
    ['B'] ∈ (Report.ofFile (twiceOverDisk.source .plain) {} ⟨"a.cds"⟩).entities.map Entity.name := by
  have distinct : (twiceOver.map Prod.fst).Nodup := by decide +kernel
  have alike := reports_alike_but_places .plain twiceOverDisk twiceOver distinct twice_over_normal twice_over_held {}
    rfl (⟨"a.cds"⟩, "entity A{x:q.B;}") (by decide +kernel) (by decide +kernel)
  let memory := (MemorySource.ofFiles .plain twiceOver).source
  let settings : Settings := { searchDir := some ⟨[]⟩ }
  let listing : Source := ⟨fun _ => [⟨"a.cds"⟩, ⟨"b.cds"⟩], memory.read⟩
  have listed : memory.list ⟨[]⟩ = [⟨"a.cds"⟩, ⟨"b.cds"⟩] :=
    List.mergeSort_of_pairwise (by decide +kernel)
  have same : (Input.file ⟨"a.cds"⟩).report memory settings = (Input.file ⟨"a.cds"⟩).report listing settings :=
    Input.report_congr memory listing settings _ rfl listed fun _ _ => rfl
  have names : (Report.ofFile (twiceOverDisk.source .plain) {} ⟨"a.cds"⟩).entities.map Entity.name =
      ((Input.file ⟨"a.cds"⟩).report listing settings).entities.map Entity.name := by
    have entities := congrArg (fun report => report.entities.map Entity.name) alike
    rw [← same]
    exact (Entity.names_unplaced _).symm.trans (entities.symm.trans (Entity.names_unplaced _))
  rw [names]
  decide +kernel

theorem working_directory_disagrees :
    ¬ ∀ (convention : Convention) (settings : Settings) (disk : Disk) (files : List (Path × Text)),
      (files.map Prod.fst).Nodup → (∀ file ∈ files, file.1.Normal) → disk.Holds files → settings.searchDir = none →
        ∀ file ∈ files,
          let memory := Report.ofFile (MemorySource.ofFiles convention files).source settings file.1
          let folder := Report.ofFile (disk.source convention) settings file.1
          memory.document = folder.document ∧ memory.edges = folder.edges ∧
            memory.entities.map Entity.unplaced = folder.entities.map Entity.unplaced := by
  intro always
  have agreed := (always .plain {} twiceOverDisk twiceOver (by decide +kernel) twice_over_normal twice_over_held rfl
    (⟨"a.cds"⟩, "entity A{x:q.B;}") (by decide +kernel)).2.2
  have absent : ['B'] ∉
      (Report.ofFile (MemorySource.ofFiles .plain twiceOver).source {} ⟨"a.cds"⟩).entities.map Entity.name := by
    decide +kernel
  apply absent
  rw [← Entity.names_unplaced, agreed, Entity.names_unplaced]
  exact found_beside

end SchemaDiagram
