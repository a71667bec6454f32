import SchemaDiagram.MemorySource
import SchemaDiagram.Proofs.Tree

/-!
Files held in memory under distinct paths that are spelled by names. Each is read under its path, and a directory
lists the names that the paths have in it.
-/

set_option autoImplicit false

namespace SchemaDiagram

namespace Path

theorem normal_names (path : Path) (normal : path.Normal) :
    ∃ init last, path.components = init ++ [last] ∧ path = ofNames (init ++ [last]) ∧
      ∀ name ∈ init ++ [last], IsName name := by
  obtain ⟨init, last, split⟩ := (List.eq_nil_or_concat path.components).resolve_left normal.filled
  rw [List.concat_eq_append] at split
  have spelled := normal.spelled
  have named := normal.named
  rw [split] at spelled named
  exact ⟨init, last, split, spelled, named⟩

theorem normal_unique (a b : Path) (first : a.Normal) (second : b.Normal) (same : a.components = b.components) :
    a = b := by
  rw [first.spelled, second.spelled, same]

end Path

-- The names of the files of a directory among files by path.
def namesIn (dir : Location) (paths : List Path) : List Text :=
  paths.filterMap fun path => Disk.nameIn? dir path.components

namespace MemorySource

variable (convention : Convention) (files : List (Path × Text)) (distinct : (files.map Prod.fst).Nodup)
  (normal : ∀ file ∈ files, file.1.Normal)

include distinct normal

theorem components_distinct : (files.map fun file => file.1.components).Nodup := by
  have paths := List.inj_on_of_nodup_map distinct
  apply List.Nodup.map_on _ (List.Nodup.of_map _ distinct)
  intro a first b second same
  exact paths first second (Path.normal_unique a.1 b.1 (normal a first) (normal b second) same)

theorem of_distinct_files : ofFiles convention files = ⟨files, convention⟩ := by
  -- The induction is on the files still to come; none of them replaces one that is there.
  have added (later before : List (Path × Text)) (all : before ++ later = files) :
      later.foldl (fun memory file => memory.insert file.1 file.2) (⟨before, convention⟩ : MemorySource) =
        ⟨files, convention⟩ := by
    induction later generalizing before with
    | nil => rw [List.foldl_nil, ← all, List.append_nil]
    | cons file rest ih =>
      have separate := components_distinct files distinct normal
      rw [← all, List.map_append, List.map_cons, List.nodup_middle, List.nodup_cons] at separate
      have fresh : before.any (·.1.same file.1) = false := by
        rw [List.any_eq_false]
        intro other member same
        apply separate.1
        rw [← of_decide_eq_true same]
        exact List.mem_append_left _ (List.mem_map_of_mem member)
      rw [List.foldl_cons, insert, fresh, if_neg Bool.false_ne_true]
      exact ih (before ++ [file]) (by simpa using all)
  exact added files [] (List.nil_append files)

theorem read_of_files (file : Path × Text) (member : file ∈ files) :
    (ofFiles convention files).read file.1 = some file.2 := by
  have found := find_of_distinct (fun file => file.1.components) files (components_distinct files distinct normal)
    file member
  rw [of_distinct_files convention files distinct normal]
  exact congrArg (Option.map Prod.snd) found

theorem file_of_listed (dir path : Path) (listed : path ∈ (ofFiles convention files).list dir) :
    ∃ file ∈ files, file.1 = path := by
  rw [of_distinct_files convention files distinct normal, list, List.mem_mergeSort, List.mem_filter] at listed
  exact List.mem_map.mp listed.1

-- No path spells the directory of its file as a dot.
theorem nothing_listed_here : (ofFiles convention files).list ⟨['.']⟩ = [] := by
  have unlisted : (files.map Prod.fst).filter ((⟨files, convention⟩ : MemorySource).isListed ⟨['.']⟩) = [] := by
    rw [List.filter_eq_nil_iff]
    intro path member
    obtain ⟨file, inside, rfl⟩ := List.mem_map.mp member
    obtain ⟨init, last, -, spelled, named⟩ := file.1.normal_names (normal file inside)
    have others := Path.init_named init last named
    have apart : (Path.ofNames init).same ⟨['.']⟩ = false := by
      rw [Path.same, Path.components_of_names init others, decide_eq_false_iff_not]
      rintro rfl
      exact (others ['.'] List.mem_cons_self).2.2.1 rfl
    rw [isListed, spelled, Path.parent_of_names init last named, Option.getD_some, apart]
    exact Bool.false_ne_true
  rw [of_distinct_files convention files distinct normal, list, unlisted, List.mergeSort_nil]

end MemorySource

theorem named_in (dir : Location) (paths : List Path) (normal : ∀ path ∈ paths, path.Normal) (name : Text)
    (member : name ∈ namesIn dir paths) : ∀ component ∈ dir ++ [name], Path.IsName component := by
  obtain ⟨path, inside, found⟩ := List.mem_filterMap.mp member
  rw [← (Disk.name_in_iff dir path.components name).mp found]
  exact (normal path inside).named

theorem mem_names_in (dir : Location) (paths : List Path) (name : Text) :
    name ∈ namesIn dir paths ↔ ∃ path ∈ paths, path.components = dir ++ [name] := by
  simp only [namesIn, List.mem_filterMap, Disk.name_in_iff]

theorem names_in_nodup (dir : Location) (paths : List Path) (distinct : (paths.map Path.components).Nodup) :
    (namesIn dir paths).Nodup := by
  rw [namesIn, List.Nodup, List.pairwise_filterMap]
  apply (List.pairwise_map.mp distinct).imp
  intro a b apart name first other second same
  apply apart
  rw [(Disk.name_in_iff dir _ name).mp first, (Disk.name_in_iff dir _ other).mp second, same]

namespace MemorySource

variable (memory : MemorySource) (dir : Location)

theorem listed_in (named : ∀ name ∈ dir, Path.IsName name) (path : Path) (normal : path.Normal) :
    memory.isListed (Path.ofNames dir) path = (Disk.nameIn? dir path.components).any memory.convention.admits := by
  obtain ⟨init, last, split, spelled, names⟩ := path.normal_names normal
  have others := Path.init_named init last names
  have place : (Path.ofNames init).same (Path.ofNames dir) = decide (init = dir) := by
    rw [Path.same, Path.components_of_names init others, Path.components_of_names dir named]
  rw [isListed, split, spelled, Path.parent_of_names init last names, Path.file_name_of_names init last names,
    Option.getD_some, place, Disk.nameIn?, List.dropLast_concat, List.getLast?_concat]
  by_cases same : init = dir
  · simp [same]
  · simp [same]

theorem listed_paths (named : ∀ name ∈ dir, Path.IsName name) (paths : List Path)
    (normal : ∀ path ∈ paths, path.Normal) :
    paths.filter (memory.isListed (Path.ofNames dir)) =
      ((namesIn dir paths).filter memory.convention.admits).map fun name => Path.ofNames (dir ++ [name]) := by
  induction paths with
  | nil => rfl
  | cons path rest ih =>
    have told := memory.listed_in dir named path (normal path List.mem_cons_self)
    have others := ih fun other member => normal other (List.mem_cons_of_mem path member)
    rw [namesIn] at others ⊢
    rw [List.filter_cons, told, List.filterMap_cons]
    cases found : Disk.nameIn? dir path.components with
    | none => simpa [found] using others
    | some name =>
      have spelled := (normal path List.mem_cons_self).spelled
      rw [(Disk.name_in_iff dir path.components name).mp found] at spelled
      cases admitted : memory.convention.admits name with
      | true => simp [admitted, others, ← spelled]
      | false => simp [admitted, others]

theorem list_of_names (named : ∀ name ∈ dir, Path.IsName name)
    (normal : ∀ path ∈ memory.files.map Prod.fst, path.Normal) :
    memory.list (Path.ofNames dir) =
      (((namesIn dir (memory.files.map Prod.fst)).filter memory.convention.admits).mergeSort
        fun a b => !Path.textBefore b a).map fun name => Path.ofNames (dir ++ [name]) := by
  rw [list, memory.listed_paths dir named _ normal]
  symm
  apply List.map_mergeSort
  intro a first b second
  rw [Path.siblings_in_order]
  · exact named_in dir _ normal a (List.mem_filter.mp first).1
  · exact named_in dir _ normal b (List.mem_filter.mp second).1

end MemorySource

end SchemaDiagram
