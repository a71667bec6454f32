import SchemaDiagram.Proofs.Layering
import SchemaDiagram.Proofs.SavedDocument
import SchemaDiagram.Settings.Reader

/-!
The layer that saved settings make up, and what is read from it. Names that lead to a group are in small letters as
they are printed; the names of the project's types come to be.
-/

set_option autoImplicit false

namespace SchemaDiagram

namespace Settings

variable (settings : Settings)

def sourceValues : List (Text × Scalar) :=
  ("convention".toList, .text settings.convention.name) ::
    settings.searchDir.toList.map fun dir => ("search_dir".toList, .text dir.text)

def renderValues : List (Text × Scalar) :=
  [("look".toList, .text settings.look), ("layout".toList, .text settings.layout),
    ("theme".toList, .text settings.theme), ("title".toList, .flag settings.title)]

def projectValues (types : List (Text × Text)) : List (Text × Scalar) :=
  types.map fun (name, label) => (name, .text label)

-- What is loaded for the types of the project.
def loweredTypes : List (Text × Text) := settings.projectTypes.map fun (name, label) => (Text.lower name, label)

def leaves (origin : Text) (values : List (Text × Scalar)) : List (Text × Setting) :=
  values.map fun (name, value) => (name, .scalar value origin)

def layer (origin : Text) : Layer :=
  [("source".toList, .table (leaves origin settings.sourceValues) origin),
    ("render".toList, .table (leaves origin settings.renderValues) origin),
    ("types".toList,
      .table [("project".toList, .table (leaves origin (projectValues settings.projectTypes)) origin)] origin)]

-- The entries of the root once the layer has been laid.
def groups (origin : Text) : List (Text × Setting) :=
  [("source".toList, .table (leaves origin settings.sourceValues) none),
    ("render".toList, .table (leaves origin settings.renderValues) none),
    ("types".toList,
      .table [("project".toList, .table (leaves origin (projectValues settings.loweredTypes)) none)] none)]

theorem entries_of_values (origin : Text) (values : List (Text × Scalar)) :
    Setting.ofEntries? origin (values.map fun (name, value) => (name, .scalar value)) =
      some (leaves origin values) := by
  induction values with
  | nil => rfl
  | cons entry others ih =>
    rw [List.map_cons, Setting.ofEntries?, Setting.ofToml?, Option.bind_some, ih]
    rfl

theorem table_of_values (origin : Text) (values : List (Text × Scalar))
    (unmarked : values.head?.all (·.1 ≠ Setting.momentName)) :
    Setting.ofToml? origin (.table .header (values.map fun (name, value) => (name, .scalar value))) =
      some (.table (leaves origin values) origin) := by
  rw [Setting.ofToml?, entries_of_values]
  cases values with
  | nil => rfl
  | cons entry others =>
    rw [List.map_cons, Setting.tableOf?, if_neg (by simpa using unmarked)]
    rfl

theorem source_entries : settings.sourceLines.map Toml.Line.entry =
    settings.sourceValues.map fun (name, value) => (name, .scalar value) := by
  unfold sourceLines sourceValues
  cases settings.searchDir <;> rfl

theorem project_entries : settings.projectLines.map Toml.Line.entry =
    (projectValues settings.projectTypes).map fun (name, value) => (name, .scalar value) := by
  rw [projectLines, projectValues, List.map_map, List.map_map]
  rfl

-- The types of the project as the document gives them to a layer, whatever they are.
theorem layer_of_document (origin : Text) :
    Layer.ofToml? origin settings.document =
      (Setting.ofToml? origin (.table .header (settings.projectLines.map Toml.Line.entry))).map fun project =>
        [("source".toList, .table (leaves origin settings.sourceValues) origin),
          ("render".toList, .table (leaves origin settings.renderValues) origin),
          ("types".toList, .table [("project".toList, project)] origin)] := by
  have sourceName : "source".toList ≠ Setting.momentName := by decide
  have projectName : "project".toList ≠ Setting.momentName := by decide
  have conventionName : "convention".toList ≠ Setting.momentName := by decide
  have lookName : "look".toList ≠ Setting.momentName := by decide
  have source := table_of_values origin settings.sourceValues (by simpa [sourceValues] using conventionName)
  have render := table_of_values origin settings.renderValues (by simpa [renderValues] using lookName)
  have unmarked : ¬ (settings.document.head?.any (·.1 = Setting.momentName)) = true := by
    simpa [document] using sourceName
  rw [← source_entries] at source
  change Setting.ofToml? origin (.table .header (settings.renderLines.map Toml.Line.entry)) = _ at render
  have types (project : Toml) : Setting.ofToml? origin (.table .implicit [("project".toList, project)]) =
      (Setting.ofToml? origin project).map fun project => .table [("project".toList, project)] origin := by
    rw [Setting.ofToml?, Setting.tableOf?, if_neg projectName, Setting.ofEntries?, Setting.ofEntries?]
    cases Setting.ofToml? origin project <;> rfl
  rw [Layer.ofToml?, if_neg unmarked, document, Setting.ofEntries?, source, Option.bind_some, Setting.ofEntries?,
    render, Option.bind_some, Setting.ofEntries?, types, Setting.ofEntries?]
  cases Setting.ofToml? origin (.table .header (settings.projectLines.map Toml.Line.entry)) <;> rfl

theorem layer_of_unmarked (origin : Text) (unmarked : ∀ entry ∈ settings.projectTypes, entry.1 ≠ Setting.momentName) :
    Layer.ofToml? origin settings.document = some (settings.layer origin) := by
  have first : (projectValues settings.projectTypes).head?.all (·.1 ≠ Setting.momentName) := by
    rw [projectValues, List.head?_map]
    cases types : settings.projectTypes with
    | nil => rfl
    | cons entry others => simpa using unmarked entry (by rw [types]; exact List.mem_cons_self)
  rw [layer_of_document, project_entries, table_of_values origin _ first]
  rfl

def lowered (values : List (Text × Scalar)) : List (Text × Scalar) :=
  values.map fun (name, value) => (Text.lower name, value)

-- A group over nothing or over the same group of another layer.
theorem overlay_leaves (origin : Text) (source : Option Text) (values : List (Text × Scalar)) (old : Setting)
    (distinct : ((lowered values).map Prod.fst).Nodup)
    (known : old = .empty ∨ ∃ other, old = .table (leaves other (lowered values)) none) :
    Setting.overlay (.table (leaves origin values) source) old = .table (leaves origin (lowered values)) none := by
  have names : (leaves origin values).map (fun entry => Text.lower entry.1) = (lowered values).map Prod.fst := by
    simp [leaves, lowered, Function.comp_def]
  have result : (leaves origin values).map (fun entry => (Text.lower entry.1, entry.2)) =
      leaves origin (lowered values) := by
    simp [leaves, lowered, Function.comp_def]
  have leaf : ∀ entry ∈ leaves origin values, ∀ old, Setting.overlay entry.2 old = entry.2 := by
    intro entry member old
    obtain ⟨⟨name, value⟩, _, rfl⟩ := List.mem_map.mp member
    rfl
  have laid (waiting : List (Text × Setting))
      (waits : waiting = [] ∨ waiting.map Prod.fst = (lowered values).map Prod.fst) :
      Setting.overlayAll (leaves origin values) (.table waiting none) =
        .table (leaves origin (lowered values)) none := by
    rw [← result]
    exact Setting.overlay_all_entries none Prod.snd (leaves origin values) [] waiting (by simpa [names] using distinct)
      (by rw [names]; exact waits) fun entry member old _ => leaf entry member old
  rw [Setting.overlay]
  rcases known with rfl | ⟨other, rfl⟩
  · exact laid [] (.inl rfl)
  · exact laid _ (.inr (by simp [leaves, Function.comp_def]))

theorem lowered_of_small (values : List (Text × Scalar))
    (small : ∀ name ∈ values.map Prod.fst, Text.lower name = name) : lowered values = values := by
  have same : lowered values = values.map id := by
    apply List.map_congr_left
    rintro ⟨name, value⟩ member
    simp only [small name (List.mem_map_of_mem member), id]
  rw [same, List.map_id]

theorem source_value_names : settings.sourceValues.map Prod.fst =
    if settings.searchDir.isSome then ["convention".toList, "search_dir".toList] else ["convention".toList] := by
  unfold sourceValues
  cases settings.searchDir <;> rfl

theorem lowered_source : lowered settings.sourceValues = settings.sourceValues := by
  apply lowered_of_small
  rw [source_value_names]
  split <;> decide

theorem lowered_render : lowered settings.renderValues = settings.renderValues := by
  apply lowered_of_small
  change ∀ name ∈ ["look".toList, "layout".toList, "theme".toList, "title".toList], Text.lower name = name
  decide

theorem lowered_project : lowered (projectValues settings.projectTypes) = projectValues settings.loweredTypes := by
  simp [lowered, projectValues, loweredTypes, Function.comp_def]

section

variable (origin : Text) (old : Setting)

theorem overlay_source (known : old = .empty ∨ ∃ other, old = .table (leaves other settings.sourceValues) none) :
    Setting.overlay (.table (leaves origin settings.sourceValues) origin) old =
      .table (leaves origin settings.sourceValues) none := by
  have laid := overlay_leaves origin origin settings.sourceValues old
  rw [lowered_source] at laid
  refine laid ?_ known
  rw [source_value_names]
  split <;> decide

theorem overlay_render (known : old = .empty ∨ ∃ other, old = .table (leaves other settings.renderValues) none) :
    Setting.overlay (.table (leaves origin settings.renderValues) origin) old =
      .table (leaves origin settings.renderValues) none := by
  have laid := overlay_leaves origin origin settings.renderValues old
  rw [lowered_render] at laid
  exact laid settings.render_names known

variable (distinct : (settings.loweredTypes.map Prod.fst).Nodup)

include distinct

theorem overlay_types (known : old = .empty ∨ ∃ other, old =
      .table [("project".toList, .table (leaves other (projectValues settings.loweredTypes)) none)] none) :
    Setting.overlay
        (.table [("project".toList, .table (leaves origin (projectValues settings.projectTypes)) origin)] origin) old =
      .table [("project".toList, .table (leaves origin (projectValues settings.loweredTypes)) none)] none := by
  have project : Text.lower "project".toList = "project".toList := by decide
  have leaf (old : Setting)
      (known : old = .empty ∨ ∃ other, old = .table (leaves other (projectValues settings.loweredTypes)) none) :
      Setting.overlay (.table (leaves origin (projectValues settings.projectTypes)) origin) old =
        .table (leaves origin (projectValues settings.loweredTypes)) none := by
    have laid := overlay_leaves origin origin (projectValues settings.projectTypes) old
    rw [lowered_project] at laid
    exact laid (by simpa [projectValues, Function.comp_def] using distinct) known
  have laid (waiting : List (Text × Setting)) (waits : waiting = [] ∨
      ∃ other, waiting = [("project".toList, .table (leaves other (projectValues settings.loweredTypes)) none)]) :=
    Setting.overlay_all_entries none (fun _ => .table (leaves origin (projectValues settings.loweredTypes)) none)
      [("project".toList, .table (leaves origin (projectValues settings.projectTypes)) origin)] [] waiting
      (by simp) 
      (by
        rcases waits with rfl | ⟨other, rfl⟩
        · exact .inl rfl
        · simp only [List.map_cons, List.map_nil, project, or_true])
      (by
        simp only [List.mem_singleton, forall_eq, project]
        intro old here
        apply leaf
        rcases waits with rfl | ⟨other, rfl⟩
        · exact .inl (by simpa using here)
        · exact here.imp_right fun member => ⟨other, by simpa using member⟩)
  simp only [List.map_cons, List.map_nil, List.nil_append, project] at laid
  rw [Setting.overlay]
  rcases known with rfl | ⟨other, rfl⟩
  · exact laid [] (.inl rfl)
  · exact laid _ (.inr ⟨other, rfl⟩)

-- What the layer of saved settings makes of nothing, and of the same settings in another layer.
theorem laid_on_saved (known : List (Text × Setting)) (same : known = [] ∨ ∃ other, known = settings.groups other) :
    Layer.laidOn (.table known none) (settings.layer origin) = .table (settings.groups origin) none := by
  have names : (settings.layer origin).map Prod.fst = ["source".toList, "render".toList, "types".toList] := rfl
  have plain : ∀ entry ∈ settings.layer origin,
      Text.lower entry.1 = entry.1 ∧ Address.ofText (Text.lower entry.1) = [.name (Text.lower entry.1)] := by
    have each : ∀ name ∈ ["source".toList, "render".toList, "types".toList],
        Text.lower name = name ∧ Address.ofText (Text.lower name) = [.name (Text.lower name)] := by decide
    intro entry member
    exact each entry.1 (by rw [← names]; exact List.mem_map_of_mem member)
  have small {α : Type} (f : Text → Setting → α) :
      (settings.layer origin).map (fun entry => f (Text.lower entry.1) entry.2) =
        (settings.layer origin).map fun entry => f entry.1 entry.2 :=
    List.map_congr_left fun entry member => by rw [(plain entry member).1]
  have source := settings.overlay_source origin
  have render := settings.overlay_render origin
  have types (old : Setting) := settings.overlay_types origin old distinct
  have each : ∀ entry ∈ settings.layer origin, ∀ old, old = .empty ∨ (Text.lower entry.1, old) ∈ known →
      Setting.overlay entry.2 old = Setting.overlay entry.2 .empty := by
    have there (name : Text) (old : Setting) (beneath : old = .empty ∨ (name, old) ∈ known) :
        old = .empty ∨ ∃ other, (name, old) ∈ settings.groups other := by
      apply beneath.imp_right
      intro member
      rcases same with rfl | ⟨other, rfl⟩
      · cases member
      · exact ⟨other, member⟩
    intro entry member old beneath
    rw [(plain entry member).1] at beneath
    simp only [layer, List.mem_cons, List.not_mem_nil, or_false] at member
    rcases member with rfl | rfl | rfl
    · rw [source old ((there _ old beneath).imp_right fun ⟨other, group⟩ => ⟨other, by simpa [groups] using group⟩),
        source .empty (.inl rfl)]
    · rw [render old ((there _ old beneath).imp_right fun ⟨other, group⟩ => ⟨other, by simpa [groups] using group⟩),
        render .empty (.inl rfl)]
    · rw [types old ((there _ old beneath).imp_right fun ⟨other, group⟩ => ⟨other, by simpa [groups] using group⟩),
        types .empty (.inl rfl)]
  have laid := Setting.overlay_all_entries none (fun entry => Setting.overlay entry.2 .empty)
    (settings.layer origin) [] known (by
      rw [small fun name _ => name]
      change ["source".toList, "render".toList, "types".toList].Nodup
      decide) (by
      rw [small fun name _ => name]
      exact same.imp_right fun ⟨other, groups⟩ => by rw [groups]; rfl) each
  rw [Layer.laid_on_names _ _ fun entry member => (plain entry member).2]
  refine laid.trans ?_
  rw [List.nil_append, small fun name new => (name, Setting.overlay new .empty)]
  change Setting.table [("source".toList, _), ("render".toList, _), ("types".toList, _)] none = _
  rw [source .empty (.inl rfl), render .empty (.inl rfl), types .empty (.inl rfl)]
  rfl

end

variable (origin : Text)

theorem source_read (start : Settings) : readSource start (.table (leaves origin settings.sourceValues) none) =
    .ok { start with convention := settings.convention, searchDir := settings.searchDir.or start.searchDir } := by
  unfold sourceValues
  cases settings.convention <;> cases settings.searchDir <;> rfl

theorem render_read (start : Settings) : readRender start (.table (leaves origin settings.renderValues) none) =
    .ok { start with
      look := settings.look, layout := settings.layout, theme := settings.theme, title := settings.title } := rfl

theorem labels_read (types : List (Text × Text)) :
    labelsOf (.table (leaves origin (projectValues types)) none) = .ok types := by
  change (leaves origin (projectValues types)).mapM (fun entry =>
    (readBelow (.name entry.1) entry.2 textOf).map fun label => (entry.1, label)) = _
  induction types with
  | nil => rfl
  | cons entry others ih =>
    change List.mapM _ (_ :: leaves origin (projectValues others)) = _
    rw [List.mapM_cons, ih]
    rfl

theorem types_read (start : Settings) (types : List (Text × Text)) :
    readTypes start (.table [("project".toList, .table (leaves origin (projectValues types)) none)] none) =
      .ok { start with projectTypes := types } := by
  change (readBelow (.name "project".toList) (.table (leaves origin (projectValues types)) none) labelsOf >>=
    fun types => pure { start with projectTypes := types }) = _
  rw [readBelow, labels_read]
  rfl

theorem group_read (root group : Setting) (name : Text) (read : Settings → Setting → Except SettingsError Settings)
    (start after : Settings) (found : root.find? name = some group) (reads : read start group = .ok after) :
    readGroup root name read start = .ok after := by
  rw [readGroup, found]
  change readBelow _ group (read start) = _
  rw [readBelow, reads]
  rfl

-- The groups are read one after the other.
theorem of_setting_groups (root : Setting) (source render : Settings)
    (first : readGroup root "source" readSource {} = .ok source)
    (second : readGroup root "render" readRender source = .ok render) :
    ofSetting root = readGroup root "types" readTypes render := by
  rw [ofSetting, first]
  change (readGroup root "render".toList readRender source >>= readGroup root "types".toList readTypes) = _
  rw [second]
  rfl

theorem groups_read : ofSetting (.table (settings.groups origin) none) =
    .ok { settings with projectTypes := settings.loweredTypes } := by
  have source := group_read (.table (settings.groups origin) none) _ "source".toList readSource {} _ rfl
    (settings.source_read origin {})
  have render := group_read (.table (settings.groups origin) none) _ "render".toList readRender _ _ rfl
    (settings.render_read origin { convention := settings.convention, searchDir := settings.searchDir.or none })
  rw [of_setting_groups _ _ _ source render, Option.or_none]
  exact group_read (.table (settings.groups origin) none) _ "types".toList readTypes
    { settings with projectTypes := [] } _ rfl (types_read origin _ settings.loweredTypes)

end Settings

end SchemaDiagram
