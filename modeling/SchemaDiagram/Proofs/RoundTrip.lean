import SchemaDiagram.Proofs.SavedLayer
import SchemaDiagram.Proofs.Writing
import SchemaDiagram.Settings.Loading

/-!
Settings that are saved to a file and loaded from it again. The document is read whole, and its one layer decides about
every setting; but names of types come back in small letters.
-/

set_option autoImplicit false

namespace SchemaDiagram

theorem Text.last_field (sep : Char) (front tail : Text) (free : sep ∉ tail) :
    ∃ init last, fields (· = sep) (front ++ tail) = init ++ [last ++ tail] := by
  induction front with
  | nil => exact ⟨[], [], by rw [List.nil_append, fields_undivided sep tail free]; rfl⟩
  | cons c rest ih =>
    obtain ⟨init, last, cut⟩ := ih
    by_cases divides : c = sep
    · exact ⟨[] :: init, last, by simp [fields, divides, cut]⟩
    · cases init with
      | nil => exact ⟨[], c :: last, by simp [fields, divides, cut]⟩
      | cons first others => exact ⟨(c :: first) :: others, last, by simp [fields, divides, cut]⟩

namespace Path

-- A path that ends in a text without slashes names a file that ends so.
theorem file_name_of_ending (path : Path) (front tail : Text) (text : path.text = front ++ tail) (free : '/' ∉ tail)
    (long : 2 < tail.length) : ∃ name, path.fileName? = some (name ++ tail) := by
  have cut : path.lead.length ≤ front.length := by
    cases front with
    | cons c rest => rcases path.lead_cases with ⟨lead, -⟩ | ⟨lead, -⟩ | ⟨lead, -⟩ <;> simp [lead]
    | nil =>
      rw [List.nil_append] at text
      rcases path.lead_cases with ⟨-, rest, rooted⟩ | ⟨-, dot | ⟨rest, dotted⟩⟩ | ⟨lead, -⟩
      · exact absurd (by simp [← text, rooted]) free
      · simp [← text, dot] at long
      · exact absurd (by simp [← text, dotted]) free
      · simp [lead]
  obtain ⟨init, name, pieces⟩ := Text.last_field '/' (front.drop path.lead.length) tail free
  have longer (other : Text) (short : other.length ≤ 2) : name ++ tail ≠ other := by
    rintro rfl
    rw [List.length_append] at short
    omega
  have named : names (name ++ tail) = true := by
    simp only [names, Bool.and_eq_true, Bool.not_eq_true', List.isEmpty_eq_false_iff, decide_eq_true_eq]
    exact ⟨longer [] (by simp), longer ['.'] (by simp)⟩
  refine ⟨name, ?_⟩
  have last : path.fromLast = (name ++ tail) :: init.reverse := by
    rw [fromLast, Path.pieces, text, List.drop_append_of_le_length cut, pieces, List.reverse_append]
    exact List.dropWhile_cons_of_neg (by simp [named])
  rw [fileName?, last, List.head?_cons, Option.filter_some]
  exact if_pos (by simpa using longer ['.', '.'] (by simp))

end Path

theorem Settings.is_toml_iff (path : Path) (ending : Text.endsWith ".toml" path.text = true) :
    isToml path = true ↔ path.fileName? ≠ some ".toml".toList := by
  have free : '/' ∉ ".toml".toList := by decide
  obtain ⟨front, text⟩ := (Text.ends_with_iff _ _).mp ending
  obtain ⟨name, fileName⟩ := path.file_name_of_ending front _ text free (by decide)
  rw [isToml, fileName, Option.any_some, Text.before_append]
  simp

theorem Except.map_m_ok {ε α β : Type} (read : α → Except ε β) (good : β → Prop) (items : List α)
    (each : ∀ item ∈ items, ∃ value, read item = .ok value ∧ good value) :
    ∃ values, items.mapM read = .ok values ∧ ∀ value ∈ values, good value := by
  induction items with
  | nil => exact ⟨[], rfl, by simp⟩
  | cons item others ih =>
    obtain ⟨value, reads, first⟩ := each item List.mem_cons_self
    obtain ⟨values, rest, all⟩ := ih fun other member => each other (List.mem_cons_of_mem item member)
    refine ⟨value :: values, ?_, List.forall_mem_cons.mpr ⟨first, all⟩⟩
    rw [List.mapM_cons, reads, rest]
    rfl

namespace Settings

-- The only file that settings are loaded from, apart from one that is named: what stands at the other places is no
-- file or is this one.
def SoleFile (disk : Disk) (surroundings : Surroundings) (path : Path) : Prop :=
  ∀ place ∈ places surroundings none, disk.isFile place = true → disk.find? place = disk.find? path

section

variable (settings : Settings) (disk : Disk) (surroundings : Surroundings) (path : Path)

theorem layer_of_text (distinct : (settings.projectTypes.map Prod.fst).Nodup) (file : Path) :
    layerOf disk file settings.toToml =
      match Layer.ofToml? (originOf disk file) settings.document with
      | none => .error (.malformed file)
      | some layer => .ok layer := by
  rw [layerOf, settings.parse_to_toml distinct]
  rfl

theorem optional_layer (text : Text) (read : disk.read path = some text) (place : Path)
    (sole : ∀ file, file = place ∨ withEnding place = some file → disk.isFile file = true →
      disk.find? file = disk.find? path) :
    optionalLayer disk place = .ok none ∨
      ∃ file, optionalLayer disk place = (layerOf disk file text).map some := by
  have same (file : Path) (either : file = place ∨ withEnding place = some file) (is : disk.isFile file = true) :
      disk.read file = some text := by
    rw [← read, Disk.read, Disk.content?, sole file either is, ← Disk.content?, ← Disk.read]
  unfold optionalLayer
  cases found : findFile disk place with
  | error error => exact .inl rfl
  | ok file =>
    cases file with
    | none => exact .inl rfl
    | some file =>
      have reads : disk.read file = some text := by
        unfold findFile at found
        split at found
        · rename_i is
          split at found
          · cases found
            exact same place (.inl rfl) is
          · cases found
        · have filtered := Except.ok.inj found
          rw [Option.filter_eq_some_iff] at filtered
          exact same file (.inr filtered.1) filtered.2
      refine .inr ⟨file, ?_⟩
      simp only [reads]

theorem named_layer (text : Text) (is : disk.isFile path = true) (read : disk.read path = some text) :
    namedLayer disk path =
      if isToml path then layerOf disk path text else .error (.unknownFormat (disk.absolute path)) := by
  rw [namedLayer, findFile, if_pos is]
  split
  · change (textOfFile disk path >>= layerOf disk path) = _
    rw [textOfFile, read]
    rfl
  · rfl

-- The places that are looked at before the file that is named.
def optionalPlaces : List Path :=
  fixedPlaces ++ ((surroundings.settingsDir?.map userPlace).filter fun path => (disk.find? path).isSome).toList

theorem load_named_iff (quiet : Environment.layer surroundings.bindings = []) (loaded : Settings) :
    load disk surroundings (some path) = .ok loaded ↔
      ∃ found named, (optionalPlaces disk surroundings).mapM (optionalLayer disk) = .ok found ∧
        namedLayer disk path = .ok named ∧
        ofSetting (Layer.laidOn (Layer.merge (found.filterMap id)) named) = .ok loaded := by
  have merged (found : List Layer) (named : Layer) :
      Layer.merge (found ++ [named] ++ [Environment.layer surroundings.bindings]) =
        Layer.laidOn (Layer.merge found) named := by
    rw [quiet, Layer.merge, List.foldl_append, List.foldl_append]
    rfl
  have alone : [path].mapM (namedLayer disk) = (namedLayer disk path >>= fun named => pure [named]) := by
    rw [List.mapM_cons, List.mapM_nil]
    rfl
  constructor
  · intro loads
    obtain ⟨layers, listed, reads⟩ := (Except.bind_ok_iff _ _ _).mp loads
    obtain ⟨found, optional, listed⟩ := (Except.bind_ok_iff _ _ _).mp listed
    obtain ⟨explicit, only, listed⟩ := (Except.bind_ok_iff _ _ _).mp listed
    rw [Option.toList_some, alone, Except.bind_ok_iff] at only
    obtain ⟨named, explicitly, only⟩ := only
    cases only
    cases listed
    rw [merged] at reads
    exact ⟨found, named, optional, explicitly, reads⟩
  · rintro ⟨found, named, optional, explicitly, reads⟩
    apply (Except.bind_ok_iff _ _ _).mpr
    refine ⟨found.filterMap id ++ [named] ++ [Environment.layer surroundings.bindings], ?_, ?_⟩
    · apply (Except.bind_ok_iff _ _ _).mpr
      refine ⟨found, optional, ?_⟩
      rw [Option.toList_some, alone, explicitly]
      rfl
    · rw [merged]
      exact reads

theorem optional_listed (place : Path) (member : place ∈ optionalPlaces disk surroundings) (file : Path)
    (either : file = place ∨ withEnding place = some file) : file ∈ places surroundings none := by
  have listed : place ∈ fixedPlaces ++ (surroundings.settingsDir?.map userPlace).toList := by
    rcases List.mem_append.mp member with fixed | own
    · exact List.mem_append_left _ fixed
    · rw [Option.mem_toList, Option.filter_eq_some_iff] at own
      exact List.mem_append_right _ (Option.mem_toList.mpr own.1)
  rw [places, Option.toList_none, List.append_nil]
  rcases either with rfl | ended
  · exact List.mem_append_left _ listed
  · exact List.mem_append_right _ (List.mem_filterMap.mpr ⟨place, listed, ended⟩)

end

section

variable (settings : Settings) (distinct : (settings.loweredTypes.map Prod.fst).Nodup)

include distinct

theorem names_of_lowered : (settings.projectTypes.map Prod.fst).Nodup := by
  apply List.Nodup.of_map Text.lower
  rw [List.map_map]
  simpa [loweredTypes, Function.comp_def] using distinct

theorem merge_saved (layers : List Layer) (each : ∀ layer ∈ layers, ∃ origin, layer = settings.layer origin)
    (known : List (Text × Setting)) (same : known = [] ∨ ∃ other, known = settings.groups other) :
    ∃ after, layers.foldl Layer.laidOn (.table known none) = .table after none ∧
      (after = [] ∨ ∃ other, after = settings.groups other) := by
  induction layers generalizing known with
  | nil => exact ⟨known, rfl, same⟩
  | cons layer others ih =>
    obtain ⟨origin, rfl⟩ := each layer List.mem_cons_self
    rw [List.foldl_cons, settings.laid_on_saved origin distinct known same]
    exact ih (fun other member => each other (List.mem_cons_of_mem _ member)) _ (.inr ⟨origin, rfl⟩)

theorem saved_layers_read (layers : List Layer) (each : ∀ layer ∈ layers, ∃ origin, layer = settings.layer origin)
    (origin : Text) : ofSetting (Layer.laidOn (Layer.merge layers) (settings.layer origin)) =
      .ok { settings with projectTypes := settings.loweredTypes } := by
  obtain ⟨known, merged, same⟩ := settings.merge_saved distinct layers each [] (.inl rfl)
  rw [Layer.merge, Setting.empty, merged, settings.laid_on_saved origin distinct known same]
  exact settings.groups_read origin

end

section

variable (settings : Settings) (disk : Disk) (surroundings : Surroundings) (path : Path) (location : Location)
  (found : disk.find? path = some (location, .file (Disk.encode settings.toToml)))
  (quiet : Environment.layer surroundings.bindings = [])
  (distinct : (settings.loweredTypes.map Prod.fst).Nodup)

include found quiet distinct

theorem saved_file_loads (toml : isToml path = true) (sole : SoleFile disk surroundings path)
    (unmarked : ∀ entry ∈ settings.projectTypes, entry.1 ≠ Setting.momentName) :
    load disk surroundings (some path) = .ok { settings with projectTypes := settings.loweredTypes } := by
  have read := disk.read_of_find path location settings.toToml found
  have names := settings.names_of_lowered distinct
  have layer (file : Path) : layerOf disk file settings.toToml = .ok (settings.layer (originOf disk file)) := by
    rw [settings.layer_of_text disk names file, settings.layer_of_unmarked _ unmarked]
  have optional : ∀ place ∈ optionalPlaces disk surroundings, ∃ layer?, optionalLayer disk place = .ok layer? ∧
      ∀ layer ∈ layer?, ∃ origin, layer = settings.layer origin := by
    intro place member
    have lone (file : Path) (either : file = place ∨ withEnding place = some file) :
        disk.isFile file = true → disk.find? file = disk.find? path :=
      sole file (optional_listed disk surroundings place member file either)
    rcases optional_layer disk path _ read place lone with absent | ⟨file, there⟩
    · exact ⟨none, absent, by simp⟩
    · refine ⟨some (settings.layer (originOf disk file)), ?_, by simp⟩
      rw [there, layer]
      rfl
  obtain ⟨layers, all, each⟩ := Except.map_m_ok _ _ _ optional
  rw [load_named_iff disk surroundings path quiet]
  refine ⟨layers, settings.layer (originOf disk path), all, ?_, ?_⟩
  · rw [named_layer disk path _ (disk.is_file_of_find path location _ found) read, if_pos toml, layer]
  · apply settings.saved_layers_read distinct
    intro layer member
    obtain ⟨layer?, among, some⟩ := List.mem_filterMap.mp member
    exact each layer? among layer some

end

-- A single value in the place of the names of types.
theorem scalar_types_fail (root types : Setting) (value : Scalar) (origin : Text) (loaded : Settings)
    (group : root.find? "types" = some types) (project : types.find? "project" = some (.scalar value origin)) :
    ofSetting root ≠ .ok loaded := by
  intro reads
  obtain ⟨source, -, reads⟩ := (Except.bind_ok_iff _ _ _).mp reads
  obtain ⟨render, -, reads⟩ := (Except.bind_ok_iff _ _ _).mp reads
  cases types with
  | nothing => cases project
  | scalar other place => cases project
  | list items place => cases project
  | table entries place =>
    have failed : readTypes render (.table entries place) =
        .error ((SettingsError.noGroup (.scalar value) "a map").under (.name "project")) := by
      change (orDefault render.projectTypes (((Setting.table entries place).find? "project").map _) labelsOf >>= _) = _
      rw [project]
      rfl
    rw [readGroup, group] at reads
    change (readTypes render (.table entries place)).mapError _ = _ at reads
    rw [failed] at reads
    cases reads

-- The last entry of a layer is found where it has been laid.
theorem laid_types (old : Setting) (front : Layer) (value : Scalar) (origin : Text) (source : Option Text) :
    ∃ types, (Layer.laidOn old (front ++ [("types".toList,
        .table [("project".toList, .scalar value origin)] source)])).find? "types" = some types ∧
      types.find? "project" = some (.scalar value origin) := by
  have name : Address.ofText (Text.lower "types".toList) = [.name "types".toList] := by decide
  have project : Text.lower "project".toList = "project".toList := by decide
  let under := Layer.laidOn old front
  let before := (under.find? "types").getD .empty
  let new := Setting.table [("project".toList, .scalar value origin)] source
  refine ⟨new.overlay before, ?_, ?_⟩
  · rw [Layer.laidOn, List.foldl_append]
    change (Address.put new (Address.ofText (Text.lower "types".toList)) under).find? "types" = _
    rw [name]
    exact Setting.find_put under _ _
  · change (before.put (Text.lower "project".toList) (.scalar value origin)).find? "project" = _
    rw [project]
    exact Setting.find_put before _ _

section

variable (settings : Settings) (disk : Disk) (surroundings : Surroundings) (path : Path) (location : Location)
  (found : disk.find? path = some (location, .file (Disk.encode settings.toToml)))
  (quiet : Environment.layer surroundings.bindings = [])

include found quiet

-- The name that stands for a date or time makes its table none, so that nothing is loaded.
theorem marked_file_fails (few : settings.projectTypes.length ≤ 1)
    (marked : ∃ entry ∈ settings.projectTypes, entry.1 = Setting.momentName) (loaded : Settings) :
    load disk surroundings (some path) ≠ .ok loaded := by
  intro loads
  rw [load_named_iff disk surroundings path quiet] at loads
  obtain ⟨layers, layer, -, named, reads⟩ := loads
  obtain ⟨⟨name, label⟩, member, rfl⟩ := marked
  have alone : settings.projectTypes = [(Setting.momentName, label)] := by
    obtain ⟨entry, only⟩ := List.length_eq_one_iff.mp (Nat.le_antisymm few (List.length_pos_of_mem member))
    rw [only, List.mem_singleton] at member
    rw [only, ← member]
  have project (origin : Text) : Setting.ofToml? origin (.table .header (settings.projectLines.map Toml.Line.entry)) =
      (Toml.wholeMoment? label).map fun value => .scalar (.text value) origin := by
    rw [projectLines, alone, Setting.ofToml?]
    change Setting.tableOf? origin [(Setting.momentName, .scalar (.text label))] _ = _
    rw [Setting.tableOf?, if_pos rfl]
    rfl
  rw [named_layer disk path _ (disk.is_file_of_find path location _ found)
    (disk.read_of_find path location _ found)] at named
  split at named
  -- The label decides what goes wrong: the document is refused, or it holds a single value in the place of the table.
  · rw [settings.layer_of_text disk (by simp [alone]) path, layer_of_document, project] at named
    cases moment : Toml.wholeMoment? label with
    | none =>
      rw [moment] at named
      cases named
    | some value =>
      rw [moment] at named
      cases named
      obtain ⟨types, group, put⟩ := laid_types (Layer.merge (layers.filterMap id))
        [("source".toList, .table (leaves (originOf disk path) settings.sourceValues) (originOf disk path)),
          ("render".toList, .table (leaves (originOf disk path) settings.renderValues) (originOf disk path))]
        (.text value) (originOf disk path) (originOf disk path)
      exact scalar_types_fail _ types _ _ loaded group put reads
  · cases named

end

-- A file that is named by nothing but the ending is of no known format.
theorem bare_ending_fails (surroundings : Surroundings) (path : Path) (disk : Disk) (is : disk.isFile path = true)
    (bare : isToml path = false) (quiet : Environment.layer surroundings.bindings = []) (loaded : Settings) :
    load disk surroundings (some path) ≠ .ok loaded := by
  intro loads
  rw [load_named_iff disk surroundings path quiet] at loads
  obtain ⟨_, layer, -, named, -⟩ := loads
  rw [namedLayer, findFile, if_pos is, bare] at named
  cases named

-- A disk of one file, and settings with a type that is named with a capital, as types are.
def oneFile (text : Text) : Disk := ⟨[(["c.toml".toList], .file (Disk.encode text))], []⟩

def capitalized : Settings := { projectTypes := [("Genre", "Kind")] }

theorem one_file_saved (settings : Settings) : settings.save {} ⟨"c.toml"⟩ = .ok (oneFile settings.toToml) := by
  have free : ({} : Disk).place true ⟨"c.toml"⟩ = .ok (.free ["c.toml".toList]) := by
    have sound : Disk.flaw? ⟨"c.toml"⟩ = none := by decide
    have way : Disk.steps ⟨"c.toml"⟩ = ["c.toml".toList] := by decide
    rw [Disk.place, sound]
    change Disk.walk {} true Disk.linkLimit (Disk.startOf {} ⟨"c.toml"⟩) (Disk.steps ⟨"c.toml"⟩) = _
    rw [way, Disk.walk]
    rfl
  rw [save, Disk.write, Disk.openForWriting, free]
  rfl

theorem one_file_sole (text : Text) : SoleFile (oneFile text) {} ⟨"c.toml"⟩ := by
  intro place member is
  have elsewhere : ∀ place ∈ places {} none, ∃ name ∈ (Disk.steps place).head?,
      ¬ (name.isEmpty || decide (name = ['.'])) = true ∧ name ≠ ['.', '.'] ∧ ¬ Disk.nameLimit < Text.byteSize name ∧
        place.isAbsolute = false ∧ name ≠ "c.toml".toList := by
    decide
  obtain ⟨name, first, dot, dots, short, relative, other⟩ := elsewhere place member
  obtain ⟨rest, way⟩ := List.head?_eq_some_iff.mp first
  have start : (oneFile text).startOf place = [] := by
    rw [Disk.startOf, relative]
    rfl
  have absent : (oneFile text).node? ([] ++ [name]) = none := by
    simpa [oneFile, Disk.node?] using Ne.symm other
  have lost := Disk.find_missing (oneFile text) place name rest way dot dots short (by rw [start]; exact absent)
  rw [Disk.isFile, lost] at is
  cases is

end Settings

end SchemaDiagram
