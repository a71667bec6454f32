import SchemaDiagram.Proofs.RoundTrip
import SchemaDiagram.Proofs.Shapes

/-!
What settings come to be where several layers decide about them. Each single setting and each type of the project has
the value of the last layer that gives one for it, or its default, whatever else the layers say.
-/

set_option autoImplicit false

namespace SchemaDiagram

namespace Scalar

-- What a value tells where a flag is expected, or a convention.
def flag? (value : Scalar) : Option Bool := (Settings.flagOf (.scalar value [])).toOption

def convention? (value : Scalar) : Option Convention := (Settings.conventionOf (.scalar value [])).toOption

end Scalar

-- The settings there are.
inductive Leaf where
  | convention
  | searchDir
  | look
  | layout
  | theme
  | title
  | project (name : Text)

def Leaf.path : Leaf → List Text
  | convention => ["source", "convention"]
  | searchDir => ["source", "search_dir"]
  | look => ["render", "look"]
  | layout => ["render", "layout"]
  | theme => ["render", "theme"]
  | title => ["render", "title"]
  | project name => ["types", "project", name]

namespace Shape

def text : Shape := leaf fun _ => true

def ofMembers (members : List (Text × Shape)) : Shape := group fun name => members.lookup name

def source : Shape := ofMembers [("convention", leaf fun value => value.convention?.isSome), ("search_dir", text)]

def render : Shape :=
  ofMembers [("look", text), ("layout", text), ("theme", text), ("title", leaf fun value => value.flag?.isSome)]

def project : Shape := group fun _ => some text

def types : Shape := ofMembers [("project", project)]

def groups : List (Text × Shape) := [("source", source), ("render", render), ("types", types)]

def settings : Shape := ofMembers groups

theorem settings_leads (leaf : Leaf) : settings.leads leaf.path = true := by
  cases leaf <;> rfl

end Shape

namespace Settings

-- Settings as the values for them tell, with defaults where there are none.
structure Follows (settings : Settings) (value? : Leaf → Option Scalar) : Prop where
  convention : (value? .convention).elim (some .plain) Scalar.convention? = some settings.convention
  searchDir : settings.searchDir = (value? .searchDir).map fun value => ⟨value.asText⟩
  look : settings.look = ((value? .look).map Scalar.asText).getD "neo"
  layout : settings.layout = ((value? .layout).map Scalar.asText).getD "elk"
  theme : settings.theme = ((value? .theme).map Scalar.asText).getD "dark"
  title : (value? .title).elim (some true) Scalar.flag? = some settings.title
  project : ∀ name, settings.projectTypes.lookup name = (value? (.project name)).map Scalar.asText
  distinct : (settings.projectTypes.map Prod.fst).Nodup

/-! Reading what the layers have made. -/

theorem flag_read (value : Scalar) (origin : Text) (flag : Bool) (told : value.flag? = some flag) :
    flagOf (.scalar value origin) = .ok flag := by
  cases value with
  | flag value => exact congrArg Except.ok (Option.some.inj told)
  | integer value => exact congrArg Except.ok (Option.some.inj told)
  | decimal value => exact congrArg Except.ok (Option.some.inj told)
  | text value =>
    rw [Scalar.flag?, flagOf] at told
    rw [flagOf]
    split
    · rename_i yes
      rw [if_pos yes] at told
      exact congrArg Except.ok (Option.some.inj told)
    · rename_i yes
      rw [if_neg yes] at told
      split
      · rename_i no
        rw [if_pos no] at told
        exact congrArg Except.ok (Option.some.inj told)
      · rename_i no
        rw [if_neg no] at told
        contradiction

theorem convention_read (value : Scalar) (origin : Text) (convention : Convention)
    (told : value.convention? = some convention) : conventionOf (.scalar value origin) = .ok convention := by
  cases value with
  | text name =>
    change (conventionNamed name).toOption = some convention at told
    change conventionNamed name = .ok convention
    cases read : conventionNamed name with
    | error error =>
      rw [read] at told
      contradiction
    | ok named =>
      rw [read] at told
      exact congrArg Except.ok (Option.some.inj told)
  | flag value => contradiction
  | integer value => contradiction
  | decimal value => contradiction

-- A member of a group that is a single value.
theorem member_read {α : Type} (knows : Text → Option Shape) (group : Setting)
    (shaped : (Shape.group knows).Shaped group) (names : List Text) (name : Text) (admits : Scalar → Bool)
    (known : knows name = some (.leaf admits)) (read : Setting → Except SettingsError α) (reads : Scalar → Option α)
    (agree : ∀ value origin, admits value = true → ∃ told, reads value = some told ∧ read (.scalar value origin) = .ok told)
    (default : α) :
    ∃ told, (group.value? [name]).elim (some default) reads = some told ∧
      orDefault default (member? group names name) read = .ok told := by
  cases shaped with
  | group _ entries origin _ each =>
    change ∃ told, ((entries.lookup name).bind (·.value? [])).elim (some default) reads = some told ∧
      orDefault default ((entries.lookup name).map fun setting => (Step.name name, setting)) read = .ok told
    cases found : entries.lookup name with
    | none => exact ⟨default, rfl, rfl⟩
    | some inner =>
      cases each name _ inner known found with
      | leaf _ value origin admitted =>
        obtain ⟨told, meant, reads⟩ := agree value origin admitted
        refine ⟨told, meant, ?_⟩
        change (read (.scalar value origin)).mapError _ = _
        rw [reads]
        rfl

theorem text_member (knows : Text → Option Shape) (group : Setting) (shaped : (Shape.group knows).Shaped group)
    (names : List Text) (name : Text) (known : knows name = some .text) (default : Text) :
    orDefault default (member? group names name) textOf =
      .ok (((group.value? [name]).map Scalar.asText).getD default) := by
  obtain ⟨told, meant, read⟩ := member_read knows group shaped names name _ known textOf (fun value => some value.asText)
    (fun value origin _ => ⟨value.asText, rfl, rfl⟩) default
  rw [read]
  cases found : group.value? [name] with
  | none =>
    rw [found] at meant
    exact congrArg Except.ok (Option.some.inj meant).symm
  | some value =>
    rw [found] at meant
    exact congrArg Except.ok (Option.some.inj meant).symm

theorem group_checked (knows : Text → Option Shape) (group : Setting) (shaped : (Shape.group knows).Shaped group)
    (expected : Text) : checkGroup expected group = .ok () := by
  cases shaped
  rfl

section

variable (start : Settings) (group : Setting)

theorem source_told (shaped : Shape.source.Shaped group) :
    ∃ convention dir, (group.value? ["convention"]).elim (some start.convention) Scalar.convention? = some convention ∧
      (group.value? ["search_dir"]).elim (some start.searchDir) (fun value => some (some ⟨value.asText⟩)) = some dir ∧
      readSource start group = .ok { start with convention := convention, searchDir := dir } := by
  have check := group_checked _ group shaped "struct SourceConfig"
  obtain ⟨convention, named, first⟩ := member_read _ group shaped ["convention", "search_dir"] "convention" _ rfl
    conventionOf Scalar.convention? (fun value origin admitted => by
      obtain ⟨told, named⟩ := Option.isSome_iff_exists.mp admitted
      exact ⟨told, named, convention_read value origin told named⟩) start.convention
  obtain ⟨dir, placed, second⟩ := member_read _ group shaped ["convention", "search_dir"] "search_dir" _ rfl
    (fun setting => (textOf? setting).map (·.map Path.mk)) (fun value => some (some ⟨value.asText⟩))
    (fun value origin _ => ⟨some ⟨value.asText⟩, rfl, rfl⟩) start.searchDir
  refine ⟨convention, dir, named, placed, ?_⟩
  rw [readSource, check]
  simp only [bind, Except.bind, pure, Except.pure, first, second]

theorem render_told (shaped : Shape.render.Shaped group) :
    ∃ title, (group.value? ["title"]).elim (some start.title) Scalar.flag? = some title ∧
      readRender start group = .ok { start with
        look := ((group.value? ["look"]).map Scalar.asText).getD start.look
        layout := ((group.value? ["layout"]).map Scalar.asText).getD start.layout
        theme := ((group.value? ["theme"]).map Scalar.asText).getD start.theme
        title := title } := by
  have check := group_checked _ group shaped "struct RenderConfig"
  have text (name : Text) := text_member _ group shaped ["look", "layout", "theme", "title"] name
  obtain ⟨title, meant, last⟩ := member_read _ group shaped ["look", "layout", "theme", "title"] "title" _ rfl
    flagOf Scalar.flag? (fun value origin admitted => by
      obtain ⟨told, meant⟩ := Option.isSome_iff_exists.mp admitted
      exact ⟨told, meant, flag_read value origin told meant⟩) start.title
  refine ⟨title, meant, ?_⟩
  rw [readRender, check]
  simp only [bind, Except.bind, pure, Except.pure, text "look" rfl, text "layout" rfl, text "theme" rfl, last]

theorem labels_told (entries : List (Text × Setting)) (source : Option Text)
    (single : ∀ entry ∈ entries, ∃ value origin, entry.2 = .scalar value origin) :
    ∃ labels, labelsOf (.table entries source) = .ok labels ∧ labels.map Prod.fst = entries.map Prod.fst ∧
      ∀ name, labels.lookup name = ((entries.lookup name).bind (·.value? [])).map Scalar.asText := by
  change ∃ labels, entries.mapM (fun entry =>
    (readBelow (.name entry.1) entry.2 textOf).map fun label => (entry.1, label)) = .ok labels ∧ _
  induction entries with
  | nil => exact ⟨[], rfl, rfl, fun _ => rfl⟩
  | cons entry others ih =>
    obtain ⟨labels, read, names, found⟩ := ih fun other member => single other (List.mem_cons_of_mem entry member)
    obtain ⟨value, origin, same⟩ := single entry List.mem_cons_self
    refine ⟨(entry.1, value.asText) :: labels, ?_, by rw [List.map_cons, List.map_cons, names], ?_⟩
    · rw [List.mapM_cons, read, same]
      rfl
    · intro name
      rw [List.lookup_cons, List.lookup_cons, same]
      split
      · rfl
      · exact found name

theorem types_told (shaped : Shape.types.Shaped group) :
    ∃ labels, (labels.map Prod.fst).Nodup ∧
      (∀ name, labels.lookup name = (group.value? ["project", name]).map Scalar.asText) ∧
      ∀ start : Settings, start.projectTypes = [] →
        readTypes start group = .ok { start with projectTypes := labels } := by
  have check := group_checked _ group shaped "struct TypeConfig"
  cases shaped with
  | group _ entries origin _ each =>
    cases found : entries.lookup "project".toList with
    | none =>
      refine ⟨[], .nil, fun name => ?_, fun start empty => ?_⟩
      · change none = ((entries.lookup "project".toList).bind _).map _
        rw [found]
        rfl
      · rw [readTypes, check, ← empty]
        change (orDefault _ ((entries.lookup "project".toList).map _) _ >>= _) = _
        rw [found]
        rfl
    | some inner =>
      cases each _ Shape.project inner rfl found with
      | group _ labelled source distinct known =>
        have single : ∀ entry ∈ labelled, ∃ value origin, entry.2 = .scalar value origin := by
          intro entry member
          obtain ⟨before, after, rfl⟩ := List.append_of_mem member
          rw [List.map_append, List.map_cons] at distinct
          have fresh := fun early => List.disjoint_of_nodup_append distinct early List.mem_cons_self
          have here : (before ++ entry :: after).lookup entry.1 = some entry.2 := by
            rw [Setting.lookup_append_fresh entry.1 before _ fresh, List.lookup_cons, beq_self_eq_true]
          cases shape : entry.2 with
          | scalar value origin => exact ⟨value, origin, rfl⟩
          | nothing => cases shape ▸ known entry.1 _ entry.2 rfl here
          | list items origin => cases shape ▸ known entry.1 _ entry.2 rfl here
          | table entries origin => cases shape ▸ known entry.1 _ entry.2 rfl here
        obtain ⟨labels, read, names, told⟩ := labels_told labelled source single
        refine ⟨labels, names ▸ distinct, fun name => ?_, fun start _ => ?_⟩
        · change _ = ((entries.lookup "project".toList).bind _).map _
          rw [found]
          exact told name
        · rw [readTypes, check]
          change (orDefault _ ((entries.lookup "project".toList).map _) _ >>= _) = _
          rw [found]
          change ((labelsOf (.table labelled source)).mapError _ >>= _) = _
          rw [read]
          rfl

end

-- A group that is not there is read as one without members.
theorem group_or_empty (root : Setting) (name : Text) (read : Settings → Setting → Except SettingsError Settings)
    (start after : Settings) (idle : read start .empty = .ok start)
    (reads : read start ((root.find? name).getD .empty) = .ok after) : readGroup root name read start = .ok after := by
  cases found : root.find? name with
  | none =>
    rw [found, Option.getD_none, idle] at reads
    rw [readGroup, found]
    exact reads
  | some group =>
    rw [found, Option.getD_some] at reads
    exact group_read root group name read start after found reads

theorem settings_told (root : Setting) (shaped : Shape.settings.Shaped root) :
    ∃ settings, ofSetting root = .ok settings ∧ settings.Follows fun leaf => root.value? leaf.path := by
  let group (name : Text) : Setting := (root.find? name).getD .empty
  have below (name : Text) (path : List Text) : (group name).value? path = root.value? (name :: path) := by
    cases shaped with
    | group _ entries origin _ _ =>
      change (((entries.lookup name).getD .empty).value? path) = (entries.lookup name).bind (·.value? path)
      cases entries.lookup name with
      | none => exact Setting.value_empty path
      | some inner => rfl
  have member (name : Text) (knows : Text → Option Shape) (known : Shape.groups.lookup name = some (.group knows)) :
      (Shape.group knows).Shaped (group name) := by
    change (Shape.group knows).Shaped ((root.find? name).getD .empty)
    cases found : root.find? name with
    | none => exact Setting.empty_shaped knows
    | some inner => exact Setting.find_shaped _ root shaped name _ known inner found
  obtain ⟨convention, dir, named, placed, first⟩ := source_told {} (group "source") (member "source" _ rfl)
  obtain ⟨title, titled, second⟩ := render_told { convention := convention, searchDir := dir } (group "render")
    (member "render" _ rfl)
  obtain ⟨labels, distinct, labelled, third⟩ := types_told (group "types") (member "types" _ rfl)
  simp only [below] at named placed titled labelled second
  have source := group_or_empty root "source" readSource _ _ rfl first
  have render := group_or_empty root "render" readRender _ _ rfl second
  refine ⟨_, (of_setting_groups root _ _ source render).trans
    (group_or_empty root "types" readTypes _ _ rfl (third _ rfl)), ?_⟩
  exact {
    convention := named
    searchDir := by
      change dir = (root.value? ["source".toList, "search_dir".toList]).map _
      cases found : root.value? ["source".toList, "search_dir".toList] <;> rw [found] at placed <;>
        exact (Option.some.inj placed).symm
    look := rfl
    layout := rfl
    theme := rfl
    title := titled
    project := labelled
    distinct := distinct }

end Settings

open Settings

-- What the places of settings give, in the order in which the layers are laid over one another.
structure Stack where
  plain : Option Layer := none
  hidden : Option Layer := none
  nested : Option Layer := none
  own : Option Layer := none
  named : Option Layer := none
  bindings : Layer := []

-- Nothing where there is no file, neither by the name of the place nor with the ending, or else the layer of the file.
inductive Gives (disk : Disk) (place : Path) : Option Layer → Prop where
  | absent (missing : findFile disk place = .ok none) : Gives disk place none
  | present (file : Path) (text : Text) (layer : Layer) (found : findFile disk place = .ok (some file))
      (read : disk.read file = some text) (parsed : layerOf disk file text = .ok layer) : Gives disk place (some layer)

namespace Stack

def layers (stack : Stack) : List Layer :=
  [stack.plain, stack.hidden, stack.nested, stack.own].filterMap id ++ stack.named.toList ++ [stack.bindings]

-- The value that the last layer with one for a setting gives.
def last? (stack : Stack) (leaf : Leaf) : Option Scalar := stack.layers.reverse.findSome? (·.given? leaf.path)

-- The files and variables that a stack is of. The user's own place counts where something is there at all, and a file
-- that is named has to be there.
structure Stands (stack : Stack) (disk : Disk) (surroundings : Surroundings) (named : Option Path) : Prop where
  plain : Gives disk ⟨"diagrams.toml"⟩ stack.plain
  hidden : Gives disk ⟨".diagrams.toml"⟩ stack.hidden
  nested : Gives disk ⟨"config/diagrams.toml"⟩ stack.nested
  own : match (surroundings.settingsDir?.map userPlace).filter fun place => (disk.find? place).isSome with
    | none => stack.own = none
    | some place => Gives disk place stack.own
  named : match named with
    | none => stack.named = none
    | some place => ∃ layer, stack.named = some layer ∧ Gives disk place layer
  bindings : stack.bindings = Environment.layer surroundings.bindings

end Stack

section

variable (disk : Disk) (place : Path)

theorem optional_of_gives (layer : Option Layer) (gives : Gives disk place layer) :
    optionalLayer disk place = .ok layer := by
  cases gives with
  | absent missing => rw [optionalLayer, missing]
  | present file text layer found read parsed =>
    rw [optionalLayer, found]
    dsimp only
    rw [read]
    dsimp only
    rw [parsed]
    rfl

theorem named_of_gives (layer : Layer) (gives : Gives disk place (some layer)) : namedLayer disk place = .ok layer := by
  cases gives with
  | present file text _ found read parsed =>
    rw [namedLayer, found]
    change (textOfFile disk file >>= layerOf disk file) = _
    rw [textOfFile, read]
    exact parsed

end

theorem optional_of_each (disk : Disk) (places : List Path) (layers : List (Option Layer))
    (each : List.Forall₂ (Gives disk) places layers) : places.mapM (optionalLayer disk) = .ok layers := by
  induction each with
  | nil => rfl
  | cons first _ ih =>
    rw [List.mapM_cons, optional_of_gives disk _ _ first, ih]
    rfl

theorem layers_of_stack (disk : Disk) (surroundings : Surroundings) (named : Option Path) (stack : Stack)
    (stands : stack.Stands disk surroundings named) : layers disk surroundings named = .ok stack.layers := by
  obtain ⟨plain, hidden, nested, own, explicit, bindings⟩ := stands
  have fixed (places : List Path) (others : List (Option Layer)) (each : List.Forall₂ (Gives disk) places others) :
      (fixedPlaces ++ places).mapM (optionalLayer disk) = .ok ([stack.plain, stack.hidden, stack.nested] ++ others) :=
    optional_of_each disk _ _ (.cons plain (.cons hidden (.cons nested each)))
  have optional : ∃ found, (fixedPlaces ++ ((surroundings.settingsDir?.map userPlace).filter
      fun place => (disk.find? place).isSome).toList).mapM (optionalLayer disk) = .ok found ∧
      found.filterMap id = [stack.plain, stack.hidden, stack.nested, stack.own].filterMap id := by
    split at own
    · rename_i unused
      refine ⟨_, by rw [unused]; exact fixed [] [] .nil, ?_⟩
      rw [own, List.append_nil]
      change _ = ([stack.plain, stack.hidden, stack.nested] ++ [none]).filterMap id
      rw [List.filterMap_append]
      exact (List.append_nil _).symm
    · rename_i place used
      exact ⟨_, by rw [used]; exact fixed [place] [stack.own] (.cons own .nil), rfl⟩
  have last : named.toList.mapM (namedLayer disk) = .ok stack.named.toList := by
    cases named with
    | none =>
      rw [explicit]
      rfl
    | some place =>
      obtain ⟨layer, same, gives⟩ := explicit
      rw [same, Option.toList_some, List.mapM_cons, named_of_gives disk place layer gives]
      rfl
  obtain ⟨found, read, kept⟩ := optional
  rw [layers]
  simp only [bind, Except.bind, pure, Except.pure, read, last, kept]
  rw [Stack.layers, bindings]

namespace Settings

theorem leaves_fit (knows : Text → Option Shape) (origin : Text) (source : Option Text) (values : List (Text × Scalar))
    (each : ∀ entry ∈ values, ∀ shape, knows (Text.lower entry.1) = some shape →
      ∃ admits, shape = .leaf admits ∧ admits entry.2 = true) :
    (Shape.group knows).Fits (.table (leaves origin values) source) := by
  refine .group knows _ source ?_
  intro entry member shape known
  obtain ⟨⟨name, value⟩, among, rfl⟩ := List.mem_map.mp member
  obtain ⟨admits, rfl, admitted⟩ := each (name, value) among shape known
  exact .leaf admits value origin admitted

theorem saved_layer_fits (settings : Settings) (origin : Text) : (settings.layer origin).Fits Shape.settings := by
  have source : Shape.source.Fits (.table (leaves origin settings.sourceValues) origin) := by
    apply leaves_fit
    have conventionName : Text.lower "convention".toList = "convention".toList := by decide
    have dirName : Text.lower "search_dir".toList = "search_dir".toList := by decide
    intro entry member shape known
    rcases List.mem_cons.mp member with rfl | dir
    · rw [conventionName] at known
      cases known
      exact ⟨_, rfl, by cases settings.convention <;> rfl⟩
    · obtain ⟨dir, _, rfl⟩ := List.mem_map.mp dir
      rw [dirName] at known
      cases known
      exact ⟨_, rfl, rfl⟩
  have render : Shape.render.Fits (.table (leaves origin settings.renderValues) origin) := by
    apply leaves_fit
    have names : ∀ name ∈ ["look".toList, "layout".toList, "theme".toList, "title".toList], Text.lower name = name := by
      decide
    intro entry member shape known
    simp only [renderValues, List.mem_cons, List.not_mem_nil, or_false] at member
    rcases member with rfl | rfl | rfl | rfl <;> rw [names _ (by simp)] at known <;> cases known <;>
      exact ⟨_, rfl, rfl⟩
  have project : Shape.project.Fits (.table (leaves origin (projectValues settings.projectTypes)) origin) := by
    apply leaves_fit
    intro entry _ shape known
    cases known
    exact ⟨_, rfl, rfl⟩
  have types : Shape.types.Fits (.table [("project".toList,
      .table (leaves origin (projectValues settings.projectTypes)) origin)] origin) := by
    have name : Text.lower "project".toList = "project".toList := by decide
    refine .group _ _ _ ?_
    intro entry member shape known
    obtain rfl := List.mem_singleton.mp member
    rw [name] at known
    cases known
    exact project
  have names : ∀ name ∈ ["source".toList, "render".toList, "types".toList],
      Address.ofText (Text.lower name) = [.name name] := by decide
  intro entry member
  simp only [layer, List.mem_cons, List.not_mem_nil, or_false] at member
  rcases member with rfl | rfl | rfl <;> rw [names _ (by simp)] <;> intro shape known <;> cases known
  · exact source
  · exact render
  · exact types

end Settings

-- Two files, each with a part of what there is to set, and variables that set a little of it again.
def houseStyle : Settings := { searchDir := some ⟨"db"⟩, theme := "forest", projectTypes := [("Genre", "Kind")] }

def untitled : Settings := { title := false, projectTypes := [("Author", "Person")] }

def styledDisk : Disk :=
  ⟨[(["diagrams.toml".toList], .file (Disk.encode houseStyle.toToml)),
    ([".diagrams.toml".toList], .file (Disk.encode untitled.toToml))], []⟩

def wishes : Surroundings :=
  ⟨[("CDS_DIAGRAM__RENDER__LOOK", "classic"), ("cds_diagram__Types__project__GENRE", "Sort")]⟩

def styled : Stack :=
  { plain := some (houseStyle.layer "diagrams.toml"), hidden := some (untitled.layer ".diagrams.toml"),
    bindings := Environment.layer wishes.bindings }

theorem styled_place (place : Path) (name : Text) (settings : Settings) (sound : Disk.flaw? place = none)
    (way : Disk.steps place = [name]) (relative : place.isAbsolute = false)
    (named : ¬ (name.isEmpty || decide (name = ['.'])) = true ∧ name ≠ ['.', '.'] ∧
      ¬ Disk.nameLimit < Text.byteSize name) (toml : isToml place = true)
    (distinct : (settings.projectTypes.map Prod.fst).Nodup)
    (unmarked : ∀ entry ∈ settings.projectTypes, entry.1 ≠ Setting.momentName)
    (there : styledDisk.node? [name] = some (.file (Disk.encode settings.toToml))) :
    Gives styledDisk place (some (settings.layer (originOf styledDisk place))) := by
  have start : styledDisk.startOf place = [] := by
    rw [Disk.startOf, relative]
    rfl
  have found := styledDisk.find_first place name _ sound way named.1 named.2.1 named.2.2 (by rw [start]; exact there)
  refine .present place settings.toToml _ ?_ (styledDisk.read_of_find place _ _ found) ?_
  · rw [findFile, if_pos (styledDisk.is_file_of_find place _ _ found), if_pos toml]
  · rw [settings.layer_of_text styledDisk distinct place, settings.layer_of_unmarked _ unmarked]

theorem styled_stands : styled.Stands styledDisk wishes none := by
  have absent (place : Path) (way : Disk.steps place = ["config".toList, (Disk.steps place).getLastD []])
      (relative : place.isAbsolute = false) : styledDisk.find? place = none := by
    have start : styledDisk.startOf place = [] := by
      rw [Disk.startOf, relative]
      rfl
    exact styledDisk.find_missing place _ _ way (by decide) (by decide) (by decide) (by rw [start]; rfl)
  refine ⟨?_, ?_, .absent ?_, rfl, rfl, rfl⟩
  · exact styled_place ⟨"diagrams.toml"⟩ "diagrams.toml" houseStyle (by decide) (by decide) (by decide) (by decide)
      (by decide) (by decide) (by decide) rfl
  · exact styled_place ⟨".diagrams.toml"⟩ ".diagrams.toml" untitled (by decide) (by decide) (by decide) (by decide)
      (by decide) (by decide) (by decide) rfl
  · have ending : withEnding ⟨"config/diagrams.toml"⟩ = some ⟨"config/diagrams.toml.toml"⟩ := by decide
    rw [findFile, Disk.isFile, absent ⟨"config/diagrams.toml"⟩ (by decide) (by decide), ending]
    change Except.ok (if styledDisk.isFile ⟨"config/diagrams.toml.toml"⟩ then _ else none) = _
    rw [Disk.isFile, absent ⟨"config/diagrams.toml.toml"⟩ (by decide) (by decide)]
    rfl

end SchemaDiagram
