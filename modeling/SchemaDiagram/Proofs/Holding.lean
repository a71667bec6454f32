import SchemaDiagram.Proofs.Memory

/-!
A disk that holds given files below its working directory and no others there. It reads the same of each as
was given, and lists the same names in the same order.
-/

set_option autoImplicit false

namespace SchemaDiagram

namespace Disk

-- A tree whose files below the working directory are the given ones, each of which can be asked for.
structure Holds (disk : Disk) (files : List (Path × Text)) : Prop where
  tree : disk.Tree
  exactly : ∀ (location : Location) (content : ByteArray),
    (disk.here ++ location, Node.file content) ∈ disk.entries ↔
      ∃ file ∈ files, file.1.components = location ∧ encode file.2 = content
  sound : ∀ file ∈ files, flaw? file.1 = none

variable (disk : Disk) (files : List (Path × Text)) (held : disk.Holds files)
  (normal : ∀ file ∈ files, file.1.Normal)

include held

theorem node_of_held (file : Path × Text) (member : file ∈ files) :
    disk.node? (disk.here ++ file.1.components) = some (.file (encode file.2)) :=
  disk.node_of_entry held.tree _ _ ((held.exactly _ _).mpr ⟨file, member, rfl, rfl⟩)

theorem mem_held_names (dir : Location) (name : Text) :
    name ∈ disk.fileNames (disk.here ++ dir) ↔ name ∈ namesIn dir (files.map Prod.fst) := by
  rw [disk.mem_file_names, mem_names_in, List.append_assoc]
  constructor
  · rintro ⟨content, entry⟩
    obtain ⟨file, member, place, -⟩ := (held.exactly _ content).mp entry
    exact ⟨file.1, List.mem_map_of_mem member, place⟩
  · rintro ⟨path, member, place⟩
    obtain ⟨file, inside, rfl⟩ := List.mem_map.mp member
    exact ⟨_, (held.exactly _ _).mpr ⟨file, inside, place, rfl⟩⟩

-- Both have the same names, each once and in order.
theorem sorted_held_names (dir : Location) (admits : Text → Bool)
    (distinct : (files.map fun file => file.1.components).Nodup) :
    ((namesIn dir (files.map Prod.fst)).filter admits).mergeSort (fun a b => !Path.textBefore b a) =
      (disk.fileNames (disk.here ++ dir)).filter admits := by
  have known : (namesIn dir (files.map Prod.fst)).Nodup :=
    names_in_nodup dir _ (by simpa [Function.comp_def] using distinct)
  have listed := disk.file_names_nodup held.tree (disk.here ++ dir)
  have shuffled : ((namesIn dir (files.map Prod.fst)).filter admits).Perm
      ((disk.fileNames (disk.here ++ dir)).filter admits) := by
    rw [List.perm_ext_iff_of_nodup (known.filter admits) (listed.filter admits)]
    intro name
    rw [List.mem_filter, List.mem_filter, disk.mem_held_names files held dir name]
  apply List.Perm.eq_of_pairwise (fun a b _ _ first second => le_antisymm first second)
    (Path.sorted_by_text _) ((disk.file_names_sorted (disk.here ++ dir)).filter admits)
  exact (List.mergeSort_perm _ _).trans shuffled

include normal

theorem read_of_held (file : Path × Text) (member : file ∈ files) : disk.read file.1 = some file.2 := by
  obtain ⟨init, last, split, spelled, named⟩ := file.1.normal_names (normal file member)
  have there := disk.node_of_held files held file member
  have sound := held.sound file member
  rw [spelled] at sound
  rw [split] at there
  have found := disk.find_file held.tree init last (encode file.2) named sound there
  rw [← spelled] at found
  rw [read, content?, found, Option.bind_some, as_text_encode]

theorem read_dotted (file : Path × Text) (member : file ∈ files) (name : Text)
    (place : file.1.components = [name]) : disk.read (Path.join ⟨['.']⟩ ⟨name⟩) = some file.2 := by
  have there := disk.node_of_held files held file member
  have sound := held.sound file member
  have named := (normal file member).named
  rw [(normal file member).spelled, place, Path.of_name] at sound
  rw [place] at named there
  have found := disk.find_dotted held.tree name _ (named name List.mem_cons_self) sound there
  rw [read, content?, found, Option.bind_some, as_text_encode]

-- The directory above a file holds the names beside it.
theorem list_beside (convention : Convention) (file : Path × Text) (member : file ∈ files) (init : List Text)
    (last : Text) (split : file.1.components = init ++ [last]) (below : init ≠ []) :
    disk.list convention (Path.ofNames init) =
      ((disk.fileNames (disk.here ++ init)).filter convention.admits).map fun name =>
        Path.ofNames (init ++ [name]) := by
  have spelled := (normal file member).spelled
  have named := (normal file member).named
  have there := disk.node_of_held files held file member
  have sound := held.sound file member
  rw [split] at spelled named there
  rw [spelled] at sound
  rw [← List.append_assoc] at there
  have dir := disk.dir_above held.tree [last] (disk.here ++ init) _ (List.cons_ne_nil _ _) there
  have above := sound_above init last named below sound
  have names := Path.init_named init last named
  have found : disk.find? (Path.ofNames init) = some (disk.here ++ init, .dir) := by
    obtain ⟨before, parent, rfl⟩ := (List.eq_nil_or_concat init).resolve_left below
    rw [List.concat_eq_append] at *
    exact disk.find_dir held.tree before parent names above dir
  rw [list, found]
  apply List.map_congr_left
  intro name inside
  have known := (disk.mem_held_names files held init name).mp (List.mem_filter.mp inside).1
  exact Path.join_of_names init name (named_in init _ (by simpa using fun path text => normal (path, text)) name known)
    below

end Disk

theorem Disk.list_here (disk : Disk) (convention : Convention) (tree : disk.Tree) :
    disk.list convention ⟨['.']⟩ =
      ((disk.fileNames disk.here).filter convention.admits).map fun name => Path.join ⟨['.']⟩ ⟨name⟩ := by
  rw [list, disk.find_here tree]

end SchemaDiagram
