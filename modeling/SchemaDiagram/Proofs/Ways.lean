import SchemaDiagram.Proofs.Spelling
import SchemaDiagram.Proofs.Writing

/-!
Ways through a disk. A way to a directory passes directories and links and nothing else, so that it leads to the same
place on every disk that has these, whatever is asked for there.
-/

set_option autoImplicit false

namespace SchemaDiagram

namespace Disk

-- Names that lead on to a directory, and the links that can be followed before them and behind them.
inductive Passes (disk : Disk) : Nat → Location → List Text → Nat → Location → Prop where
  | done (links : Nat) (dir : Location) : Passes disk links dir [] links dir
  | blank (links left : Nat) (dir last : Location) (name : Text) (rest : List Text) (unnamed : Path.names name = false)
      (onward : Passes disk links dir rest left last) : Passes disk links dir (name :: rest) left last
  | up (links left : Nat) (dir last : Location) (rest : List Text)
      (onward : Passes disk links dir.dropLast rest left last) :
      Passes disk links dir (['.', '.'] :: rest) left last
  | enter (links left : Nat) (dir last : Location) (name : Text) (rest : List Text) (named : Path.names name = true)
      (ahead : name ≠ ['.', '.']) (short : Text.byteSize name ≤ nameLimit)
      (there : disk.node? (dir ++ [name]) = some .dir) (onward : Passes disk links (dir ++ [name]) rest left last) :
      Passes disk links dir (name :: rest) left last
  | follow (links left : Nat) (dir last : Location) (name : Text) (rest : List Text) (target : Path)
      (named : Path.names name = true) (ahead : name ≠ ['.', '.']) (short : Text.byteSize name ≤ nameLimit)
      (there : disk.node? (dir ++ [name]) = some (.link target))
      (onward : Passes disk links (if target.isAbsolute then [] else dir) (steps target ++ rest) left last) :
      Passes disk (links + 1) dir (name :: rest) left last

namespace Passes

variable {disk : Disk} {links left : Nat} {dir last : Location} {names : List Text}

theorem kept (passes : disk.Passes links dir names left last) (other : Disk)
    (keeps : ∀ location node, disk.node? location = some node → (∀ content, node ≠ .file content) →
      other.node? location = some node) : other.Passes links dir names left last := by
  induction passes with
  | done links dir => exact .done links dir
  | blank _ _ _ _ name rest unnamed _ ih => exact .blank _ _ _ _ name rest unnamed ih
  | up _ _ _ _ rest _ ih => exact .up _ _ _ _ rest ih
  | enter _ _ _ _ name rest named ahead short there _ ih =>
    exact .enter _ _ _ _ name rest named ahead short (keeps _ _ there (by simp)) ih
  | follow _ _ _ _ name rest target named ahead short there _ ih =>
    exact .follow _ _ _ _ name rest target named ahead short (keeps _ _ there (by simp)) ih

theorem skip (front : List Text) (unnamed : front.filter Path.names = [])
    (passes : disk.Passes links dir names left last) : disk.Passes links dir (front ++ names) left last := by
  induction front with
  | nil => exact passes
  | cons name others ih =>
    have each := List.filter_eq_nil_iff.mp unnamed
    refine .blank _ _ _ _ name _ (by simpa using each name List.mem_cons_self) (ih ?_)
    exact List.filter_eq_nil_iff.mpr fun other member => each other (List.mem_cons_of_mem name member)

-- Only the names count that name something.
theorem respelled (passes : disk.Passes links dir names left last) (other : List Text)
    (same : other.filter Path.names = names.filter Path.names) : disk.Passes links dir other left last := by
  induction passes generalizing other with
  | done links dir => simpa using (Passes.done links dir).skip other same
  | blank _ _ _ _ name rest unnamed _ ih =>
    exact ih other (by rw [same, List.filter_cons_of_neg (by simp [unnamed])])
  | up _ _ _ _ rest _ ih =>
    rw [List.filter_cons_of_pos (by decide), List.filter_eq_cons_iff] at same
    obtain ⟨front, more, rfl, unnamed, -, behind⟩ := same
    exact skip front (List.filter_eq_nil_iff.mpr unnamed) (.up _ _ _ _ more (ih more behind))
  | enter _ _ _ _ name rest named ahead short there _ ih =>
    rw [List.filter_cons_of_pos named, List.filter_eq_cons_iff] at same
    obtain ⟨front, more, rfl, unnamed, -, behind⟩ := same
    exact skip front (List.filter_eq_nil_iff.mpr unnamed)
      (.enter _ _ _ _ name more named ahead short there (ih more behind))
  | follow _ _ _ _ name rest target named ahead short there _ ih =>
    rw [List.filter_cons_of_pos named, List.filter_eq_cons_iff] at same
    obtain ⟨front, more, rfl, unnamed, -, behind⟩ := same
    have further := ih (steps target ++ more) (by rw [List.filter_append, List.filter_append, behind])
    exact skip front (List.filter_eq_nil_iff.mpr unnamed)
      (.follow _ _ _ _ name more target named ahead short there further)

theorem parted (front rest : List Text) (passes : disk.Passes links dir (front ++ rest) left last) :
    ∃ middle between, disk.Passes links dir front middle between ∧ disk.Passes middle between rest left last := by
  generalize whole : front ++ rest = names at passes
  induction passes generalizing front with
  | done links dir =>
    obtain ⟨rfl, rfl⟩ := List.append_eq_nil_iff.mp whole
    exact ⟨_, _, .done links dir, .done links dir⟩
  | blank _ _ _ _ name others unnamed onward ih =>
    rcases List.append_eq_cons_iff.mp whole with ⟨rfl, rfl⟩ | ⟨more, rfl, rfl⟩
    · exact ⟨_, _, .done _ _, .blank _ _ _ _ name others unnamed onward⟩
    · obtain ⟨middle, between, before, behind⟩ := ih more rfl
      exact ⟨middle, between, .blank _ _ _ _ name more unnamed before, behind⟩
  | up _ _ _ _ others onward ih =>
    rcases List.append_eq_cons_iff.mp whole with ⟨rfl, rfl⟩ | ⟨more, rfl, rfl⟩
    · exact ⟨_, _, .done _ _, .up _ _ _ _ others onward⟩
    · obtain ⟨middle, between, before, behind⟩ := ih more rfl
      exact ⟨middle, between, .up _ _ _ _ more before, behind⟩
  | enter _ _ _ _ name others named ahead short there onward ih =>
    rcases List.append_eq_cons_iff.mp whole with ⟨rfl, rfl⟩ | ⟨more, rfl, rfl⟩
    · exact ⟨_, _, .done _ _, .enter _ _ _ _ name others named ahead short there onward⟩
    · obtain ⟨middle, between, before, behind⟩ := ih more rfl
      exact ⟨middle, between, .enter _ _ _ _ name more named ahead short there before, behind⟩
  | follow _ _ _ _ name others target named ahead short there onward ih =>
    rcases List.append_eq_cons_iff.mp whole with ⟨rfl, rfl⟩ | ⟨more, rfl, rfl⟩
    · exact ⟨_, _, .done _ _, .follow _ _ _ _ name others target named ahead short there onward⟩
    · obtain ⟨middle, between, before, behind⟩ := ih (steps target ++ more) (List.append_assoc _ _ _)
      exact ⟨middle, between, .follow _ _ _ _ name more target named ahead short there before, behind⟩

-- Where a way leads on, whatever comes behind it. A file is made by a name without a slash.
theorem walked (passes : disk.Passes links dir names left last) (making : Bool) (rest : List Text)
    (made : making = true → rest ≠ [] ∧ rest ≠ [[]]) :
    disk.walk making links dir (names ++ rest) = disk.walk making left last rest := by
  have onward (front : List Text) : ¬ (making && decide (front ++ rest = [[]])) = true := by
    rw [Bool.and_eq_true, decide_eq_true_iff]
    rintro ⟨makes, slash⟩
    obtain ⟨filled, slashless⟩ := made makes
    rcases List.append_eq_singleton_iff.mp slash with ⟨-, alone⟩ | ⟨-, nothing⟩
    · exact slashless alone
    · exact filled nothing
  have seen (name : Text) (named : Path.names name = true) : ¬ (name.isEmpty || decide (name = ['.'])) = true := by
    simpa [Path.names] using named
  induction passes with
  | done => rfl
  | blank links left dir last name others unnamed _ ih =>
    have skipped : (name.isEmpty || decide (name = ['.'])) = true := by
      simpa [Path.names, or_iff_not_imp_left] using unnamed
    rw [List.cons_append, walk, if_neg (onward others), if_pos skipped]
    exact ih
  | up links left dir last others _ ih =>
    rw [List.cons_append, walk, if_neg (onward others), if_neg (by decide), if_pos rfl]
    exact ih
  | enter links left dir last name others named ahead short there _ ih =>
    rw [List.cons_append, walk_named _ making links dir name _ (onward others) (seen name named) ahead
      (Nat.not_lt.mpr short), there]
    exact ih
  | follow links left dir last name others target named ahead short there _ ih =>
    rw [List.cons_append, walk_named _ making (links + 1) dir name _ (onward others) (seen name named) ahead
      (Nat.not_lt.mpr short), there]
    rw [List.append_assoc] at ih
    exact ih

end Passes

variable (disk : Disk)

theorem passes_of_walk (making : Bool) (links : Nat) (dir : Location) (names : List Text) (last : Location)
    (there : disk.node? last = some .dir) (walked : disk.walk making links dir names = .ok (.taken last)) :
    ∃ left, disk.Passes links dir names left last := by
  fun_induction walk disk making links dir names with
  | case1 links =>
    cases walked
    exact ⟨links, .done links _⟩
  | case2 => cases walked
  | case3 links dir name rest _ blank ih =>
    obtain ⟨left, passes⟩ := ih walked
    have unnamed : Path.names name = false := by simpa [Path.names, or_iff_not_imp_left] using blank
    exact ⟨left, .blank _ _ _ _ name rest unnamed passes⟩
  | case4 links dir rest _ blank ih =>
    obtain ⟨left, passes⟩ := ih walked
    exact ⟨left, .up _ _ _ _ rest passes⟩
  | case5 => cases walked
  | case6 => cases walked
  | case7 => cases walked
  | case8 links dir name rest _ blank dots short there ih =>
    obtain ⟨left, passes⟩ := ih walked
    exact ⟨left, .enter _ _ _ _ name rest (by simpa [Path.names] using blank) dots (Nat.not_lt.mp short) there passes⟩
  | case9 links dir name rest _ _ _ _ content file =>
    cases walked
    rw [file] at there
    cases there
  | case10 => cases walked
  | case11 => cases walked
  | case12 dir name rest _ blank dots short target there links ih =>
    obtain ⟨left, passes⟩ := ih walked
    exact ⟨left, .follow _ _ _ _ name rest target (by simpa [Path.names] using blank) dots (Nat.not_lt.mp short) there
      passes⟩

theorem passes_of_find (path : Path) (last : Location) (found : disk.find? path = some (last, .dir)) :
    flaw? path = none ∧ disk.node? last = some .dir ∧
      ∃ left, disk.Passes linkLimit (disk.startOf path) (steps path) left last := by
  unfold find? at found
  split at found
  · rename_i location led
    obtain ⟨sound, walked⟩ := disk.place_sound false path _ led
    obtain ⟨node, there, same⟩ := Option.map_eq_some_iff.mp found
    cases same
    exact ⟨sound, there, disk.passes_of_walk false linkLimit _ _ last there walked⟩
  · contradiction

theorem filled_of_find (path : Path) (last : Location) (found : disk.find? path = some (last, .dir)) : path.text ≠ [] :=
  ((sound_iff path).mp (disk.passes_of_find path last found).1).1

theorem find_of_passes (path : Path) (left : Nat) (last : Location) (sound : flaw? path = none)
    (there : disk.node? last = some .dir)
    (passes : disk.Passes linkLimit (disk.startOf path) (steps path) left last) :
    disk.find? path = some (last, .dir) := by
  have walked := passes.walked false [] (by simp)
  rw [List.append_nil, walk] at walked
  rw [find?, place, sound]
  simp only [walked, there, Option.map_some]

theorem start_of_lead (a b : Path) (same : a.lead = b.lead) : disk.startOf a = disk.startOf b := by
  have absolute (path : Path) : path.isAbsolute = decide (path.lead = ['/']) := by
    rcases path.lead_cases with ⟨lead, rest, text⟩ | ⟨lead, text | ⟨rest, text⟩⟩ | ⟨lead, other⟩
    · simp [lead, Path.isAbsolute, text]
    · simp [lead, Path.isAbsolute, text]
    · simp [lead, Path.isAbsolute, text]
    · rw [lead, Path.isAbsolute, decide_eq_false (by decide : ([] : Text) ≠ ['/']), decide_eq_false_iff_not]
      intro slash
      obtain ⟨rest, text⟩ := List.head?_eq_some_iff.mp slash
      exact (other rest).1 text
  rw [startOf, startOf, absolute a, absolute b, same]

theorem inner_of_filled (path : Path) :
    ((Text.fields (· = '/') path.text).filter (!·.isEmpty)).filter Path.names = path.inner := by
  rw [List.filter_filter, ← path.inner_of_fields]
  apply List.filter_congr
  intro name _
  cases name <;> simp [Path.names]

theorem inner_of_steps (path : Path) : (steps path).filter Path.names = path.inner := by
  have slash : (if path.text.getLast? = some '/' then [([] : Text)] else []).filter Path.names = [] := by
    split <;> rfl
  rw [steps, List.filter_append, slash, List.append_nil, inner_of_filled]

section

variable (base : Path) (filled : base.text ≠ []) (name : Text) (named : Path.IsName name)

include filled named

theorem steps_joined :
    ∃ front, steps (base.join ⟨name⟩) = front ++ [name] ∧ front.filter Path.names = base.inner := by
  obtain ⟨trunk, joined, -⟩ := base.join_text filled name named
  have ending : (trunk ++ '/' :: name).getLast? = name.getLast? := by
    rw [List.append_cons]
    exact List.getLast?_append_of_ne_nil _ named.1
  have slashless : name.getLast? ≠ some '/' := fun slash => named.2.1 (List.mem_of_getLast? slash)
  have shown : [name].filter (!·.isEmpty) = [name] := by simp [named.1]
  have seen : [name].filter Path.names = [name] := Path.names_of_names [name] (by simpa using named)
  have split : steps (base.join ⟨name⟩) = (Text.fields (· = '/') trunk).filter (!·.isEmpty) ++ [name] := by
    rw [steps, joined, ending, if_neg slashless, List.append_nil, Text.fields_joined,
      Text.fields_undivided '/' name named.2.1, List.filter_append, shown]
  refine ⟨_, split, ?_⟩
  have inner := inner_of_steps (base.join ⟨name⟩)
  rw [split, base.join_inner filled name named, List.filter_append, seen] at inner
  exact List.append_cancel_right inner

end

-- A shorter spelling of a directory leads to the names in it as well.
theorem walk_joined (dir short : Path) (left : Nat) (last : Location)
    (passes : disk.Passes linkLimit (disk.startOf dir) (steps dir) left last) (shortens : short.Shortens dir)
    (name : Text) (named : Path.IsName name) (making : Bool) :
    disk.walk making linkLimit (disk.startOf (short.join ⟨name⟩)) (steps (short.join ⟨name⟩)) =
      disk.walk making left last [name] := by
  obtain ⟨front, split, inner⟩ := steps_joined short shortens.filled name named
  have start : disk.startOf (short.join ⟨name⟩) = disk.startOf dir :=
    disk.start_of_lead _ _ ((short.join_lead shortens.filled name named).trans shortens.lead)
  have respelled := passes.respelled front (by rw [inner, shortens.inner, inner_of_steps])
  rw [start, split]
  exact respelled.walked making [name] fun _ => ⟨List.cons_ne_nil _ _, by simpa using named.1⟩

-- The place of a location in a directory.
def spot (location : Location) : Place := if (disk.node? location).isSome then .taken location else .free location

theorem spot_location (location : Location) : (disk.spot location).location = location := by
  unfold spot
  split <;> rfl

theorem walk_single (making : Bool) (links : Nat) (dir : Location) (name : Text) (named : Path.IsName name)
    (writable : disk.Writable (dir ++ [name])) :
    disk.walk making links dir [name] =
      if nameLimit < Text.byteSize name then .error .nameTooLong else .ok (disk.spot (dir ++ [name])) := by
  have dot : ¬ (name.isEmpty || decide (name = ['.'])) = true := by simp [named.1, named.2.2.1]
  split
  · rename_i long
    rw [walk, if_neg (by simp), if_neg dot, if_neg named.2.2.2]
    exact if_pos long
  · rename_i short
    rw [walk_named disk making links dir name [] (by simp) dot named.2.2.2 short, spot]
    rcases writable with free | ⟨content, file⟩
    · rw [free]
      rfl
    · rw [file]
      rfl

-- What a path and a name have to be for a call to get to the name.
def Reachable (path : Path) (name : Text) : Prop := flaw? path = none ∧ Text.byteSize name ≤ nameLimit

-- What can be asked for in a directory, it can be asked for by a shorter spelling of the directory.
theorem reachable_shorter (dir short : Path) (filled : dir.text ≠ []) (shortens : short.Shortens dir) (name : Text)
    (named : Path.IsName name) (reachable : Reachable (dir.join ⟨name⟩) name) : Reachable (short.join ⟨name⟩) name := by
  have spelled (base : Path) (some : base.text ≠ []) :
      (base.join ⟨name⟩).text = base.text ++ name ∨ (base.join ⟨name⟩).text = base.text ++ '/' :: name := by
    obtain ⟨trunk, joined, same | slash⟩ := base.join_text some name named
    · exact .inr (by rw [joined, same])
    · exact .inl (by rw [joined, slash, List.append_assoc, List.singleton_append])
  obtain ⟨rest, whole⟩ := shortens.front
  cases rest with
  | nil =>
    rw [List.append_nil] at whole
    rwa [show short = dir from congrArg Path.mk whole]
  | cons c rest =>
    obtain ⟨sound, small⟩ := reachable
    refine ⟨?_, small⟩
    rw [sound_iff] at sound ⊢
    obtain ⟨-, clean, fits⟩ := sound
    have parts : '\x00' ∉ short.text ∧ '\x00' ∉ name ∧
        Text.byteSize short.text + 1 + Text.byteSize name ≤ pathLimit := by
      have size := c.utf8Size_pos
      rcases spelled dir filled with joined | joined
      · rw [joined, ← whole] at clean fits
        simp only [Text.byte_size_append, Text.byteSize, List.mem_append, not_or] at clean fits
        exact ⟨clean.1.1, clean.2, by omega⟩
      · rw [joined, ← whole] at clean fits
        simp only [Text.byte_size_append, Text.byteSize, List.mem_append, List.mem_cons, not_or] at clean fits
        exact ⟨clean.1.1, clean.2.2, by omega⟩
    have slash : Text.byteSize ('/' :: name) = 1 + Text.byteSize name := rfl
    rcases spelled short shortens.filled with joined | joined
    · rw [joined, Text.byte_size_append]
      exact ⟨by simp [named.1], by simp [parts.1, parts.2.1], by omega⟩
    · rw [joined, Text.byte_size_append, slash]
      exact ⟨by simp, by simp [parts.1, parts.2.1], by omega⟩

section

variable (dir short : Path) (last : Location) (found : disk.find? dir = some (last, .dir))
  (shortens : short.Shortens dir) (name : Text) (named : Path.IsName name)

include found shortens named

theorem place_joined (writable : disk.Writable (last ++ [name])) (making : Bool) (place : Place) :
    disk.place making (short.join ⟨name⟩) = .ok place ↔
      Reachable (short.join ⟨name⟩) name ∧ place = disk.spot (last ++ [name]) := by
  obtain ⟨-, -, left, passes⟩ := disk.passes_of_find dir last found
  have walked := disk.walk_joined dir short left last passes shortens name named making
  rw [disk.walk_single making left last name named writable] at walked
  unfold Disk.place Reachable
  cases flaw? (short.join ⟨name⟩) with
  | some error => simp
  | none =>
    simp only [walked, true_and]
    by_cases long : nameLimit < Text.byteSize name
    · simp [long]
    · simp [long, Nat.not_lt.mp long, eq_comm]

theorem open_joined (writable : disk.Writable (last ++ [name])) (location : Location) :
    disk.openForWriting (short.join ⟨name⟩) = .ok location ↔
      Reachable (short.join ⟨name⟩) name ∧ location = last ++ [name] := by
  have placed := disk.place_joined dir short last found shortens name named writable true
  constructor
  · intro opened
    obtain ⟨place, led, rfl, -⟩ := disk.open_place _ _ opened
    obtain ⟨reachable, rfl⟩ := (placed place).mp led
    exact ⟨reachable, disk.spot_location _⟩
  · rintro ⟨reachable, rfl⟩
    refine (Except.bind_ok_iff _ _ _).mpr ⟨_, (placed _).mpr ⟨reachable, rfl⟩, ?_⟩
    rcases writable with free | ⟨content, file⟩
    · simp only [spot, free]
      rfl
    · simp only [spot, file, Option.isSome_some, if_true]
      rfl

theorem find_joined (content : ByteArray) (file : disk.node? (last ++ [name]) = some (.file content))
    (entry : Location × Node) :
    disk.find? (short.join ⟨name⟩) = some entry ↔
      Reachable (short.join ⟨name⟩) name ∧ entry = (last ++ [name], .file content) := by
  have placed := disk.place_joined dir short last found shortens name named (.inr ⟨content, file⟩) false
  have there : disk.spot (last ++ [name]) = .taken (last ++ [name]) := by
    rw [spot, file]
    rfl
  rw [there] at placed
  rw [find?]
  constructor
  · intro led
    split at led
    · rename_i location leads
      obtain ⟨reachable, same⟩ := (placed _).mp leads
      cases same
      rw [file, Option.map_some] at led
      exact ⟨reachable, (Option.some.inj led).symm⟩
    · contradiction
  · rintro ⟨reachable, rfl⟩
    rw [(placed _).mpr ⟨reachable, rfl⟩]
    simp only [file, Option.map_some]

end

theorem Passes.single (links left : Nat) (dir last : Location) (name : Text)
    (passes : disk.Passes links dir [name] left last) (named : Path.names name = true) (ahead : name ≠ ['.', '.']) :
    Text.byteSize name ≤ nameLimit ∧ (disk.node? (dir ++ [name])).isSome = true := by
  cases passes with
  | blank _ _ _ _ _ _ unnamed =>
    rw [named] at unnamed
    contradiction
  | up => contradiction
  | enter _ _ _ _ _ _ _ _ short there => exact ⟨short, by rw [there, Option.isSome_some]⟩
  | follow _ _ _ _ _ _ target _ _ short there => exact ⟨short, by rw [there, Option.isSome_some]⟩

theorem make_dir_there (path : Path) (last : Location) (found : disk.find? path = some (last, .dir)) :
    disk.makeDir path = .error .taken := by
  obtain ⟨sound, -, left, passes⟩ := disk.passes_of_find path last found
  have respelled := passes.respelled ((Text.fields (· = '/') path.text).filter (!·.isEmpty))
    (by rw [inner_of_filled, inner_of_steps])
  have filled : ∀ name ∈ (Text.fields (· = '/') path.text).filter (!·.isEmpty), name ≠ [] := by simp
  have walked := respelled.walked false [] (by simp)
  rw [makeDir, sound]
  generalize (Text.fields (· = '/') path.text).filter (!·.isEmpty) = names at filled respelled walked
  rcases List.eq_nil_or_concat names with rfl | ⟨init, name, rfl⟩
  · rfl
  · rw [List.concat_eq_append] at *
    rw [List.append_nil, walk] at walked
    simp only [List.getLast?_append, List.getLast?_singleton, List.dropLast_concat, walked]
    change (if (decide (name = ['.']) || decide (name = ['.', '.'])) = true then _ else _) = _
    by_cases special : (decide (name = ['.']) || decide (name = ['.', '.'])) = true
    · rw [if_pos special]
      rfl
    · have plain : name ≠ ['.'] ∧ name ≠ ['.', '.'] := by simpa using special
      have named : Path.names name = true := by simp [Path.names, filled name (by simp), plain.1]
      obtain ⟨middle, between, before, behind⟩ := respelled.parted init [name]
      obtain ⟨short, there⟩ := behind.single disk _ _ _ _ name named plain.2
      have above := before.walked false [['.']] (by simp)
      rw [walk_dot] at above
      rw [if_neg special, above]
      change (if nameLimit < Text.byteSize name then _ else _) = _
      rw [if_neg (Nat.not_lt.mpr short), if_pos there]
      rfl

theorem make_dirs_there (path : Path) (last : Location) (found : disk.find? path = some (last, .dir)) :
    disk.makeDirs path = .ok disk := by
  have there : disk.isDir path = true := by rw [isDir, found]
  rw [makeDirs, makeDirsWithin.eq_def, disk.make_dir_there path last found]
  simp only [there, if_true]
  split <;> rfl

end Disk

end SchemaDiagram
