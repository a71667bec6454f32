import Mathlib.Data.List.Induction
import SchemaDiagram.Disk
import SchemaDiagram.Proofs.Firsts
import SchemaDiagram.Proofs.NormalPath

/-!
A disk as a tree of directories. A path of names leads from the working directory to what stands there, and
to read a file by its path or to list a directory is to look it up among the entries.
-/

set_option autoImplicit false

namespace SchemaDiagram

namespace Disk

structure Tree (disk : Disk) : Prop where
  distinct : (disk.entries.map Prod.fst).Nodup
  rooted : ∀ entry ∈ disk.entries, entry.1 ≠ [] ∧ disk.node? entry.1.dropLast = some .dir
  short : ∀ entry ∈ disk.entries, ∀ name ∈ entry.1, Text.byteSize name ≤ nameLimit
  here : disk.node? disk.here = some .dir

variable (disk : Disk)

theorem node_of_entry (tree : disk.Tree) (location : Location) (node : Node)
    (member : (location, node) ∈ disk.entries) : disk.node? location = some node := by
  have filled := (tree.rooted (location, node) member).1
  have found := find_of_distinct Prod.fst disk.entries tree.distinct (location, node) member
  rw [node?, if_neg (by simpa using filled)]
  simp only at found
  rw [found, Option.map_some]

theorem entry_of_node (location : Location) (node : Node) (filled : location ≠ [])
    (there : disk.node? location = some node) : (location, node) ∈ disk.entries := by
  rw [node?, if_neg (by simpa using filled)] at there
  obtain ⟨entry, found, rfl⟩ := Option.map_eq_some_iff.mp there
  have same : entry.1 = location := by simpa using List.find?_some found
  rw [← same]
  exact List.mem_of_find?_eq_some found

-- What stands on the way to an entry is a directory. The induction goes up from the entry.
theorem dir_above (tree : disk.Tree) (rest : List Text) (before : Location) (node : Node) (below : rest ≠ [])
    (there : disk.node? (before ++ rest) = some node) : disk.node? before = some .dir := by
  induction rest using List.reverseRecOn generalizing node with
  | nil => contradiction
  | append_singleton init last ih =>
    have entry := disk.entry_of_node _ node (by simp) there
    have parent := (tree.rooted _ entry).2
    rw [← List.append_assoc, List.dropLast_concat] at parent
    by_cases direct : init = []
    · rwa [direct, List.append_nil] at parent
    · exact ih .dir direct parent

theorem names_short (tree : disk.Tree) (location : Location) (node : Node)
    (there : disk.node? location = some node) : ∀ name ∈ location, Text.byteSize name ≤ nameLimit := by
  intro name member
  have filled : location ≠ [] := List.ne_nil_of_mem member
  exact tree.short _ (disk.entry_of_node location node filled there) name member

theorem walk_step (links : Nat) (dir : Location) (name : Text) (rest : List Text) (named : Path.IsName name)
    (short : Text.byteSize name ≤ nameLimit) (there : disk.node? (dir ++ [name]) = some .dir) :
    disk.walk false links dir (name :: rest) = disk.walk false links (dir ++ [name]) rest := by
  rw [walk]
  simp [named.1, named.2.2.1, named.2.2.2, Nat.not_lt.mpr short, there]

theorem walk_file (links : Nat) (dir : Location) (name : Text) (content : ByteArray) (named : Path.IsName name)
    (short : Text.byteSize name ≤ nameLimit) (there : disk.node? (dir ++ [name]) = some (.file content)) :
    disk.walk false links dir [name] = .ok (.taken (dir ++ [name])) := by
  rw [walk]
  simp [named.1, named.2.2.1, named.2.2.2, Nat.not_lt.mpr short, there]

theorem walk_dirs (tree : disk.Tree) (links : Nat) (names rest : List Text) (dir : Location)
    (named : ∀ name ∈ names, Path.IsName name) (there : disk.node? (dir ++ names) = some .dir) :
    disk.walk false links dir (names ++ rest) = disk.walk false links (dir ++ names) rest := by
  induction names generalizing dir with
  | nil => rw [List.append_nil, List.nil_append]
  | cons name others ih =>
    have split : dir ++ name :: others = dir ++ [name] ++ others := by simp
    rw [split] at there ⊢
    have first : disk.node? (dir ++ [name]) = some .dir := by
      by_cases last : others = []
      · rwa [last, List.append_nil] at there
      · exact disk.dir_above tree others (dir ++ [name]) .dir last there
    have short := disk.names_short tree _ _ first name (by simp)
    rw [List.cons_append, disk.walk_step links dir name _ (named name List.mem_cons_self) short first,
      ih (dir ++ [name]) (fun other member => named other (List.mem_cons_of_mem name member)) there]

theorem sound_iff (path : Path) :
    flaw? path = none ↔ path.text ≠ [] ∧ '\x00' ∉ path.text ∧ Text.byteSize path.text ≤ pathLimit := by
  unfold flaw?
  split
  · simp_all
  · split
    · simp_all
    · split
      · simp_all
      · simp_all

-- What a call can be asked for, it can be asked for of the directory above.
theorem sound_above (init : List Text) (last : Text) (named : ∀ name ∈ init ++ [last], Path.IsName name)
    (filled : init ≠ []) (sound : flaw? (Path.ofNames (init ++ [last])) = none) :
    flaw? (Path.ofNames init) = none := by
  have others := Path.init_named init last named
  have spelled : (Path.ofNames (init ++ [last])).text = (Path.ofNames init).text ++ '/' :: last :=
    Text.intercalate_concat '/' init filled last
  rw [sound_iff, spelled] at sound
  obtain ⟨-, clean, fits⟩ := sound
  rw [List.mem_append, not_or] at clean
  rw [Text.byte_size_append] at fits
  exact (sound_iff _).mpr ⟨Path.text_of_names init others filled, clean.1, by omega⟩

theorem steps_of_names (init : List Text) (last : Text) (named : ∀ name ∈ init ++ [last], Path.IsName name) :
    steps (Path.ofNames (init ++ [last])) = init ++ [last] := by
  rw [steps, Path.fields_of_names _ named (by simp), if_neg (Path.last_not_slash init last named), List.append_nil,
    List.filter_eq_self]
  intro name member
  simpa using (named name member).1

theorem place_of_names (init : List Text) (last : Text) (named : ∀ name ∈ init ++ [last], Path.IsName name)
    (sound : flaw? (Path.ofNames (init ++ [last])) = none) :
    disk.place false (Path.ofNames (init ++ [last])) = disk.walk false linkLimit disk.here (init ++ [last]) := by
  rw [place, sound, steps_of_names init last named, startOf, Path.relative_of_names _ named]
  rfl

theorem find_file (tree : disk.Tree) (init : List Text) (last : Text) (content : ByteArray)
    (named : ∀ name ∈ init ++ [last], Path.IsName name)
    (sound : flaw? (Path.ofNames (init ++ [last])) = none)
    (there : disk.node? (disk.here ++ (init ++ [last])) = some (.file content)) :
    disk.find? (Path.ofNames (init ++ [last])) = some (disk.here ++ (init ++ [last]), .file content) := by
  rw [← List.append_assoc] at there ⊢
  have parent := disk.dir_above tree [last] (disk.here ++ init) _ (List.cons_ne_nil _ _) there
  have short := disk.names_short tree _ _ there last (by simp)
  rw [find?, disk.place_of_names init last named sound,
    disk.walk_dirs tree linkLimit init [last] disk.here (Path.init_named init last named) parent,
    disk.walk_file linkLimit _ last content (Path.last_named init last named) short there]
  simp only [there, Option.map_some]

theorem find_dir (tree : disk.Tree) (init : List Text) (last : Text)
    (named : ∀ name ∈ init ++ [last], Path.IsName name)
    (sound : flaw? (Path.ofNames (init ++ [last])) = none)
    (there : disk.node? (disk.here ++ (init ++ [last])) = some .dir) :
    disk.find? (Path.ofNames (init ++ [last])) = some (disk.here ++ (init ++ [last]), .dir) := by
  have walked := disk.walk_dirs tree linkLimit (init ++ [last]) [] disk.here named there
  rw [List.append_nil] at walked
  rw [find?, disk.place_of_names init last named sound, walked, walk]
  simp only [there, Option.map_some]

theorem walk_dot (links : Nat) (dir : Location) : disk.walk false links dir [['.']] = .ok (.taken dir) := by
  rw [walk, if_neg (by decide), if_pos (by decide), walk]

theorem find_here (tree : disk.Tree) : disk.find? ⟨['.']⟩ = some (disk.here, .dir) := by
  have placed : disk.place false ⟨['.']⟩ = disk.walk false linkLimit disk.here [['.']] := rfl
  rw [find?, placed, disk.walk_dot]
  simp only [tree.here, Option.map_some]

theorem steps_dotted (name : Text) (named : Path.IsName name) : steps ⟨'.' :: '/' :: name⟩ = [['.'], name] := by
  have fields : Text.fields (· = '/') ('.' :: '/' :: name) = [['.'], name] := by
    have rest := Text.fields_undivided '/' name named.2.1
    simpa [rest] using Text.fields_append '/' ['.'] name (by decide)
  have ending : ('.' :: '/' :: name).getLast? = name.getLast? := List.getLast?_append_of_ne_nil ['.', '/'] named.1
  have slash : ('.' :: '/' :: name).getLast? ≠ some '/' := by
    rw [ending]
    exact fun last => named.2.1 (List.mem_of_getLast? last)
  rw [steps, fields, if_neg slash]
  simp [named.1]

theorem sound_dotted (name : Text) (short : Text.byteSize name ≤ nameLimit) (sound : flaw? ⟨name⟩ = none) :
    flaw? ⟨'.' :: '/' :: name⟩ = none := by
  have clean := ((sound_iff _).mp sound).2.1
  have longer : Text.byteSize ('.' :: '/' :: name) = 1 + (1 + Text.byteSize name) := rfl
  simp only [nameLimit] at short
  rw [sound_iff, pathLimit, longer]
  exact ⟨by simp, by simpa using clean, by omega⟩

-- A name in the working directory leads to the same place with the dot before it.
theorem find_dotted (tree : disk.Tree) (name : Text) (content : ByteArray) (named : Path.IsName name)
    (sound : flaw? ⟨name⟩ = none) (there : disk.node? (disk.here ++ [name]) = some (.file content)) :
    disk.find? (Path.join ⟨['.']⟩ ⟨name⟩) = some (disk.here ++ [name], .file content) := by
  have short := disk.names_short tree _ _ there name (by simp)
  have placed : disk.place false ⟨'.' :: '/' :: name⟩ = disk.walk false linkLimit disk.here [['.'], name] := by
    rw [place, sound_dotted name short sound, steps_dotted name named]
    rfl
  have dot : disk.walk false linkLimit disk.here [['.'], name] = disk.walk false linkLimit disk.here [name] := by
    rw [walk]
    simp
  rw [Path.join_here name named, find?, placed, dot, disk.walk_file linkLimit _ name content named short there]
  simp only [there, Option.map_some]

theorem as_text_encode (text : Text) : asText? (encode text) = some text := by
  rw [asText?, encode, String.fromUTF8?, String.toUTF8_eq_toByteArray, dif_pos (String.ofList text).isValidUTF8,
    Option.map_some]
  exact congrArg some String.toList_ofList

theorem name_in_iff (dir location : Location) (name : Text) :
    nameIn? dir location = some name ↔ location = dir ++ [name] := by
  unfold nameIn?
  constructor
  · intro found
    split at found
    · rename_i same
      rw [← same]
      exact (List.dropLast_append_getLast? name found).symm
    · contradiction
  · rintro rfl
    simp

theorem mem_file_names (dir : Location) (name : Text) :
    name ∈ disk.fileNames dir ↔ ∃ content, (dir ++ [name], Node.file content) ∈ disk.entries := by
  rw [fileNames, List.mem_mergeSort, List.mem_filterMap]
  constructor
  · rintro ⟨⟨location, node⟩, member, found⟩
    cases node with
    | file content =>
      rw [(name_in_iff dir location name).mp found] at member
      exact ⟨content, member⟩
    | link target => contradiction
    | dir => contradiction
  · rintro ⟨content, member⟩
    exact ⟨_, member, (name_in_iff dir _ name).mpr rfl⟩

theorem file_names_nodup (tree : disk.Tree) (dir : Location) : (disk.fileNames dir).Nodup := by
  rw [fileNames, (List.mergeSort_perm _ _).nodup_iff, List.Nodup, List.pairwise_filterMap]
  apply (List.pairwise_map.mp tree.distinct).imp
  rintro ⟨here, node⟩ ⟨there, following⟩ apart name first other second same
  apply apart
  cases node with
  | file content =>
    cases following with
    | file text =>
      rw [(name_in_iff dir here name).mp first, (name_in_iff dir there other).mp second, same]
    | link target => contradiction
    | dir => contradiction
  | link target => contradiction
  | dir => contradiction

theorem file_names_sorted (dir : Location) : (disk.fileNames dir).Pairwise (· ≤ ·) :=
  Path.sorted_by_text _

end Disk

end SchemaDiagram
