import SchemaDiagram.Proofs.Sources
import SchemaDiagram.Proofs.Ways

/-!
Disks that differ in documents alone. Schema files are told from documents by the ends of their names, and a document is
no directory and no link, so that such disks list the same schema files and read them alike.
-/

set_option autoImplicit false

namespace SchemaDiagram

theorem Convention.admitted_ending (convention : Convention) (name : Text) (admitted : convention.admits name = true) :
    ∃ stem, name = stem ++ ".cds".toList := by
  obtain ⟨front, spelled⟩ := (Text.ends_with_iff _ _).mp admitted
  cases convention with
  | plain => exact ⟨front, spelled⟩
  | schema => exact ⟨front ++ "schema".toList, by rw [spelled, List.append_assoc]; rfl⟩

namespace Disk

def isDocument (location : Location) : Bool := location.getLast?.any (Text.endsWith ".md")

-- A tree of directories whose names have no slashes in them.
structure Proper (disk : Disk) : Prop extends disk.Tree where
  slashless : ∀ entry ∈ disk.entries, ∀ name ∈ entry.1, '/' ∉ name

structure Alike (a b : Disk) : Prop where
  here : a.here = b.here
  nodes : ∀ location, a.node? location = b.node? location ∨
    isDocument location = true ∧ a.Writable location ∧ b.Writable location

theorem Alike.refl (disk : Disk) : disk.Alike disk := ⟨rfl, fun _ => .inl rfl⟩

variable {a b : Disk} (alike : a.Alike b)

include alike

theorem Alike.symm : b.Alike a where
  here := alike.here.symm
  nodes location := (alike.nodes location).imp Eq.symm fun ⟨document, first, second⟩ => ⟨document, second, first⟩

theorem Alike.same_node (location : Location) (other : isDocument location = false) :
    a.node? location = b.node? location := by
  rcases alike.nodes location with same | ⟨document, -⟩
  · exact same
  · rw [other] at document
    contradiction

theorem Alike.keeps (location : Location) (node : Node) (there : a.node? location = some node)
    (noFile : ∀ content, node ≠ .file content) : b.node? location = some node := by
  rcases alike.nodes location with same | ⟨-, writable, -⟩
  · rw [← same, there]
  · rcases writable with free | ⟨content, file⟩
    · rw [there] at free
      contradiction
    · rw [there] at file
      exact absurd (Option.some.inj file) (noFile content)

theorem Alike.writable (location : Location) (writable : a.Writable location) : b.Writable location := by
  rcases alike.nodes location with same | ⟨-, -, there⟩
  · rwa [Writable, ← same]
  · exact there

theorem Alike.find_dir (path : Path) (last : Location) (found : a.find? path = some (last, .dir)) :
    b.find? path = some (last, .dir) := by
  obtain ⟨sound, there, left, passes⟩ := a.passes_of_find path last found
  have kept := passes.kept b alike.keeps
  have start : a.startOf path = b.startOf path := by rw [startOf, startOf, alike.here]
  rw [start] at kept
  exact b.find_of_passes path left last sound (alike.keeps last .dir there (by simp)) kept

-- A document that is written makes no difference.
theorem Alike.put (location : Location) (document : isDocument location = true) (writable : b.Writable location)
    (content : ByteArray) : a.Alike (b.put location (.file content)) where
  here := alike.here.trans (b.here_put location _).symm
  nodes other := by
    have filled : location ≠ [] := by
      rintro rfl
      contradiction
    have put := b.node_put location (.file content) filled other
    by_cases same : other = location
    · rw [if_pos same] at put
      rw [same] at put ⊢
      exact .inr ⟨document, alike.symm.writable location writable, .inr ⟨content, put⟩⟩
    · rw [if_neg same] at put
      rw [Writable, Writable, put]
      exact alike.nodes other

omit alike

-- What a directory lists under a name.
theorem mem_admitted (proper : a.Proper) (convention : Convention) (dir : Location) (name : Text) :
    name ∈ (a.fileNames dir).filter convention.admits ↔
      convention.admits name = true ∧ ∃ content, a.node? (dir ++ [name]) = some (.file content) := by
  rw [List.mem_filter, a.mem_file_names, and_comm]
  apply and_congr_right
  intro _
  apply exists_congr
  intro content
  exact ⟨a.node_of_entry proper.toTree _ _, a.entry_of_node _ _ (by simp)⟩

theorem admitted_named (proper : a.Proper) (convention : Convention) (dir : Location) (name : Text)
    (member : name ∈ (a.fileNames dir).filter convention.admits) :
    Path.IsName name ∧ isDocument (dir ++ [name]) = false := by
  obtain ⟨admitted, content, there⟩ := (mem_admitted proper convention dir name).mp member
  obtain ⟨stem, spelled⟩ := convention.admitted_ending name admitted
  have entry := a.entry_of_node _ _ (by simp) there
  have long : 4 ≤ name.length := by simp [spelled]
  refine ⟨⟨?_, proper.slashless _ entry name (by simp), ?_, ?_⟩, ?_⟩
  · rintro rfl
    contradiction
  · rintro rfl
    contradiction
  · rintro rfl
    contradiction
  · rw [Bool.eq_false_iff, isDocument, List.getLast?_concat, Option.any_some]
    intro document
    obtain ⟨front, ends⟩ := (Text.ends_with_iff _ _).mp document
    have last := congrArg List.getLast? (spelled.symm.trans ends)
    simp at last

include alike

theorem Alike.admitted (first : a.Proper) (second : b.Proper) (convention : Convention) (dir : Location) :
    (a.fileNames dir).filter convention.admits = (b.fileNames dir).filter convention.admits := by
  have shuffled : ((a.fileNames dir).filter convention.admits).Perm ((b.fileNames dir).filter convention.admits) := by
    rw [List.perm_ext_iff_of_nodup ((a.file_names_nodup first.toTree dir).filter _)
      ((b.file_names_nodup second.toTree dir).filter _)]
    intro name
    constructor
    · intro member
      have other := (admitted_named first convention dir name member).2
      rwa [mem_admitted second, ← alike.same_node _ other, ← mem_admitted first]
    · intro member
      have other := (admitted_named second convention dir name member).2
      rwa [mem_admitted first, alike.same_node _ other, ← mem_admitted second]
  exact shuffled.eq_of_pairwise (fun _ _ _ _ before after => le_antisymm before after)
    ((a.file_names_sorted dir).filter _) ((b.file_names_sorted dir).filter _)

theorem Alike.list (first : a.Proper) (second : b.Proper) (convention : Convention) (dir : Path) :
    a.list convention dir = b.list convention dir := by
  have listed (disk : Disk) (last : Location) (found : disk.find? dir = some (last, .dir)) :
      disk.list convention dir = ((disk.fileNames last).filter convention.admits).map fun name => dir.join ⟨name⟩ := by
    rw [Disk.list, found]
  have unlisted (disk : Disk) (lost : ∀ last, disk.find? dir ≠ some (last, .dir)) : disk.list convention dir = [] := by
    unfold Disk.list
    split
    · rename_i last found
      exact absurd found (lost last)
    · rfl
  by_cases there : ∃ last, a.find? dir = some (last, .dir)
  · obtain ⟨last, found⟩ := there
    rw [listed a last found, listed b last (alike.find_dir dir last found), alike.admitted first second]
  · have lost (last : Location) : a.find? dir ≠ some (last, .dir) := fun found => there ⟨last, found⟩
    rw [unlisted a lost, unlisted b fun last found => lost last (alike.symm.find_dir dir last found)]

theorem Alike.read (proper : a.Proper) (convention : Convention) (dir input : Path)
    (listed : input ∈ a.list convention dir) : a.read input = b.read input := by
  unfold Disk.list at listed
  split at listed
  · rename_i last found
    obtain ⟨name, member, rfl⟩ := List.mem_map.mp listed
    obtain ⟨named, other⟩ := admitted_named proper convention last name member
    obtain ⟨-, content, there⟩ := (mem_admitted proper convention last name).mp member
    have itself := dir.shortens_itself (a.filled_of_find dir last found)
    have same : a.find? (dir.join ⟨name⟩) = b.find? (dir.join ⟨name⟩) := by
      apply Option.ext
      intro entry
      rw [a.find_joined dir dir last found itself name named content there,
        b.find_joined dir dir last (alike.find_dir dir last found) itself name named content
          ((alike.same_node _ other).symm.trans there)]
    rw [Disk.read, Disk.read, content?, content?, same]
  · contradiction

theorem Alike.report (first : a.Proper) (second : b.Proper) (settings : Settings) (dir input : Path)
    (listed : input ∈ a.list settings.convention dir) :
    Report.ofFile (a.source settings.convention) settings input =
      Report.ofFile (b.source settings.convention) settings input :=
  Input.report_congr (a.source settings.convention) (b.source settings.convention) settings input
    (alike.read first settings.convention dir input listed) (alike.list first second settings.convention _)
    fun path member => alike.read first settings.convention _ path member

end Disk

end SchemaDiagram
