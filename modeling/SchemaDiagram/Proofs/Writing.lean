import SchemaDiagram.Proofs.Tree

/-!
What was written under a path is read back under it. Writing changes the disk at one place, which was free or held a
file, so that a way through the disk that led there before leads there still.
-/

set_option autoImplicit false

namespace SchemaDiagram

theorem Except.bind_ok_iff {ε α β : Type} (start : Except ε α) (next : α → Except ε β) (result : β) :
    (start >>= next) = .ok result ↔ ∃ value, start = .ok value ∧ next value = .ok result := by
  cases start with
  | error error =>
    constructor
    · intro failed
      cases failed
    · rintro ⟨value, failed, -⟩
      cases failed
  | ok value =>
    constructor
    · intro rest
      exact ⟨value, rfl, rest⟩
    · rintro ⟨other, same, rest⟩
      cases same
      exact rest

def Place.location : Place → Location
  | .taken location => location
  | .free location => location

namespace Disk

variable (disk : Disk)

theorem node_put (location : Location) (node : Node) (filled : location ≠ []) (other : Location) :
    (disk.put location node).node? other = if other = location then some node else disk.node? other := by
  by_cases root : other = []
  · rw [root, if_neg (Ne.symm filled)]
    rfl
  · have there (disk : Disk) : disk.node? other = (disk.entries.find? (·.1 = other)).map Prod.snd := by
      rw [node?, if_neg (by simpa using root)]
    rw [there, there, put]
    split
    · rename_i known
      let change (entry : Location × Node) := if entry.1 = location then (location, node) else entry
      have kept : ((fun entry : Location × Node => decide (entry.1 = other)) ∘ change) =
          fun entry => decide (entry.1 = other) := by
        funext entry
        by_cases same : entry.1 = location <;> simp [change, same]
      change ((disk.entries.map change).find? (·.1 = other)).map Prod.snd = _
      rw [List.find?_map, kept]
      by_cases same : other = location
      · obtain ⟨entry, found⟩ := Option.isSome_iff_exists.mp known
        have here : entry.1 = location := by simpa using List.find?_some found
        rw [if_pos same, same, found]
        simp [change, here]
      · rw [if_neg same]
        cases found : disk.entries.find? (·.1 = other) with
        | none => rfl
        | some entry =>
          have here : entry.1 = other := by simpa using List.find?_some found
          simp [change, here, same]
    · rename_i unknown
      have absent : disk.entries.find? (·.1 = location) = none := Option.not_isSome_iff_eq_none.mp unknown
      rw [List.find?_append]
      by_cases same : other = location
      · rw [if_pos same, same, absent]
        simp
      · rw [if_neg same]
        simp [Ne.symm same]

-- Where a file can be written: where nothing is, or a file.
def Writable (location : Location) : Prop :=
  disk.node? location = none ∨ ∃ content, disk.node? location = some (.file content)

theorem walk_named (making : Bool) (links : Nat) (dir : Location) (name : Text) (rest : List Text)
    (onward : ¬ (making && decide (rest = [[]])) = true) (dot : ¬ (name.isEmpty || decide (name = ['.'])) = true)
    (dots : name ≠ ['.', '.']) (short : ¬ nameLimit < name.byteSize) :
    disk.walk making links dir (name :: rest) =
      match disk.node? (dir ++ [name]) with
      | none => if rest.isEmpty then .ok (.free (dir ++ [name])) else .error .notFound
      | some .dir => disk.walk making links (dir ++ [name]) rest
      | some (.file _) => if rest.isEmpty then .ok (.taken (dir ++ [name])) else .error .notADirectory
      | some (.link target) =>
        match links with
        | 0 => .error .tooManyLinks
        | links + 1 => disk.walk making links (if target.isAbsolute then [] else dir) (steps target ++ rest) := by
  rw [walk, if_neg onward, if_neg dot, if_neg dots]
  exact if_neg short

-- The way to a place at which a file is put then. What is passed on it is directories and links, which stay.
theorem walk_put (making : Bool) (links : Nat) (dir : Location) (names : List Text) (place : Place)
    (content : ByteArray) (filled : place.location ≠ []) (writable : disk.Writable place.location)
    (walked : disk.walk making links dir names = .ok place) :
    (disk.put place.location (.file content)).walk false links dir names = .ok (.taken place.location) := by
  have node := disk.node_put place.location (.file content) filled
  have passed (other : Location) (found : Node) (there : disk.node? other = some found)
      (noFile : ∀ content, found ≠ .file content) :
      (disk.put place.location (.file content)).node? other = some found := by
    rw [node, if_neg, there]
    rintro rfl
    rcases writable with free | ⟨old, file⟩
    · rw [there] at free
      contradiction
    · rw [there] at file
      exact noFile old (Option.some.inj file)
  fun_induction walk disk making links dir names with
  | case1 links dir =>
    cases walked
    rw [walk]
    rfl
  | case2 => contradiction
  | case3 links dir name rest _ blank ih =>
    rw [walk, if_neg (by simp), if_pos blank]
    exact ih walked
  | case4 links dir rest _ blank ih =>
    rw [walk, if_neg (by simp), if_neg blank, if_pos rfl]
    exact ih walked
  | case5 => contradiction
  | case6 links dir name rest _ blank dots short nothing last =>
    cases walked
    have here := (node (dir ++ [name])).trans (if_pos rfl)
    rw [walk_named _ false links dir name rest (by simp) blank dots short, here]
    exact if_pos last
  | case7 => contradiction
  | case8 links dir name rest _ blank dots short there ih =>
    rw [walk_named _ false links dir name rest (by simp) blank dots short, passed _ _ there (by simp)]
    exact ih walked
  | case9 links dir name rest _ blank dots short old there last =>
    cases walked
    have here := (node (dir ++ [name])).trans (if_pos rfl)
    rw [walk_named _ false links dir name rest (by simp) blank dots short, here]
    exact if_pos last
  | case10 => contradiction
  | case11 => contradiction
  | case12 dir name rest _ blank dots short target there links ih =>
    rw [walk_named _ false (links + 1) dir name rest (by simp) blank dots short, passed _ _ there (by simp)]
    exact ih walked

theorem walk_free (making : Bool) (links : Nat) (dir : Location) (names : List Text) (location : Location)
    (walked : disk.walk making links dir names = .ok (.free location)) :
    location ≠ [] ∧ disk.node? location = none := by
  fun_induction walk disk making links dir names with
  | case1 => cases walked
  | case2 => cases walked
  | case3 _ _ _ _ _ _ ih => exact ih walked
  | case4 _ _ _ _ _ ih => exact ih walked
  | case5 => cases walked
  | case6 links dir name rest _ _ _ _ nothing =>
    cases walked
    exact ⟨by simp, nothing⟩
  | case7 => cases walked
  | case8 _ _ _ _ _ _ _ _ _ ih => exact ih walked
  | case9 => cases walked
  | case10 => cases walked
  | case11 => cases walked
  | case12 _ _ _ _ _ _ _ _ _ _ ih => exact ih walked

theorem place_sound (making : Bool) (path : Path) (place : Place) (led : disk.place making path = .ok place) :
    flaw? path = none ∧ disk.walk making linkLimit (disk.startOf path) (steps path) = .ok place := by
  unfold Disk.place at led
  cases sound : flaw? path with
  | some error =>
    rw [sound] at led
    cases led
  | none =>
    rw [sound] at led
    exact ⟨rfl, led⟩

theorem here_put (location : Location) (node : Node) : (disk.put location node).here = disk.here := by
  unfold put
  split <;> rfl

theorem start_put (location : Location) (node : Node) (path : Path) :
    (disk.put location node).startOf path = disk.startOf path := by
  rw [startOf, here_put, startOf]

-- What can be opened for writing is free or a file.
theorem open_place (path : Path) (location : Location) (opened : disk.openForWriting path = .ok location) :
    ∃ place, disk.place true path = .ok place ∧ place.location = location ∧ location ≠ [] ∧
      disk.Writable location := by
  obtain ⟨place, led, opened⟩ := (Except.bind_ok_iff _ _ _).mp opened
  refine ⟨place, led, ?_⟩
  cases place with
  | free there =>
    cases opened
    have free := disk.walk_free _ _ _ _ location (disk.place_sound true path _ led).2
    exact ⟨rfl, free.1, .inl free.2⟩
  | taken there =>
    dsimp only at opened
    split at opened
    · rename_i content file
      cases opened
      refine ⟨rfl, ?_, .inr ⟨content, file⟩⟩
      rintro rfl
      cases file
    · cases opened

theorem find_written (path : Path) (text : Text) (written : Disk) (saved : disk.write path text = .ok written) :
    ∃ location, written.find? path = some (location, .file (encode text)) := by
  obtain ⟨location, opened, put⟩ := (Except.bind_ok_iff _ _ _).mp saved
  cases put
  obtain ⟨place, led, rfl, filled, writable⟩ := disk.open_place path location opened
  obtain ⟨sound, walked⟩ := disk.place_sound true path place led
  have back : (disk.put place.location (.file (encode text))).place false path = .ok (.taken place.location) := by
    rw [Disk.place, sound]
    change (disk.put place.location (.file (encode text))).walk false linkLimit _ _ = _
    rw [start_put]
    exact disk.walk_put true _ _ _ place (encode text) filled writable walked
  have there : (disk.put place.location (.file (encode text))).node? place.location = some (.file (encode text)) :=
    (disk.node_put place.location _ filled place.location).trans (if_pos rfl)
  refine ⟨place.location, ?_⟩
  rw [find?, back]
  change ((disk.put place.location (.file (encode text))).node? place.location).map _ = _
  rw [there, Option.map_some]

theorem is_file_of_find (path : Path) (location : Location) (content : ByteArray)
    (found : disk.find? path = some (location, .file content)) : disk.isFile path = true := by
  rw [isFile, found]

theorem read_of_find (path : Path) (location : Location) (text : Text)
    (found : disk.find? path = some (location, .file (encode text))) : disk.read path = some text := by
  rw [read, content?, found]
  exact as_text_encode text

-- Names that lead on from where paths start to nothing, or to a file at once.
theorem find_missing (path : Path) (name : Text) (rest : List Text) (way : steps path = name :: rest)
    (dot : ¬ (name.isEmpty || decide (name = ['.'])) = true) (dots : name ≠ ['.', '.'])
    (short : ¬ nameLimit < name.byteSize) (absent : disk.node? (disk.startOf path ++ [name]) = none) :
    disk.find? path = none := by
  rw [find?, Disk.place]
  cases flaw? path with
  | some error => rfl
  | none =>
    dsimp only
    rw [way, walk_named disk false _ _ name rest (by simp) dot dots short, absent]
    cases rest <;> rfl

theorem find_first (path : Path) (name : Text) (content : ByteArray) (sound : flaw? path = none)
    (way : steps path = [name]) (dot : ¬ (name.isEmpty || decide (name = ['.'])) = true) (dots : name ≠ ['.', '.'])
    (short : ¬ nameLimit < name.byteSize) (there : disk.node? (disk.startOf path ++ [name]) = some (.file content)) :
    disk.find? path = some (disk.startOf path ++ [name], .file content) := by
  rw [find?, Disk.place, sound]
  dsimp only
  rw [way, walk_named disk false _ _ name [] (by simp) dot dots short, there]
  change (disk.node? (disk.startOf path ++ [name])).map _ = _
  rw [there, Option.map_some]

end Disk

end SchemaDiagram
