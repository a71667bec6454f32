import SchemaDiagram.Settings.Basic
import SchemaDiagram.Settings.Error
import SchemaDiagram.Settings.Layer

/-!
Settings from merged layers. Single values are taken for what is asked of them as far as their text allows;
what no layer sets has its default.
-/

set_option autoImplicit false

namespace SchemaDiagram

namespace Settings

def misfitOf : Setting → Misfit
  | .nothing => .nothing
  | .scalar value _ => .scalar value
  | .list _ _ => .list
  | .table _ _ => .table

def originOf? : Setting → Option Text
  | .nothing => none
  | .scalar _ origin => some origin
  | .list _ origin | .table _ origin => origin

def misfit (setting : Setting) (expected : Text) : SettingsError :=
  .misfit (misfitOf setting) expected [] (originOf? setting)

def textOf : Setting → Except SettingsError Text
  | .scalar value _ => .ok value.asText
  | setting => .error (misfit setting "a string")

def textOf? : Setting → Except SettingsError (Option Text)
  | .nothing => .ok none
  | setting => (textOf setting).map some

def yes : List Text := ["1", "true", "on", "yes"]
def no : List Text := ["0", "false", "off", "no"]

def flagOf : Setting → Except SettingsError Bool
  | .scalar (.flag value) _ => .ok value
  | .scalar (.integer value) _ => .ok (value ≠ 0)
  | .scalar (.decimal value) _ => .ok (!value.isZero)
  | .scalar (.text value) origin =>
    if yes.elem value.lower then .ok true
    else if no.elem value.lower then .ok false
    else .error (misfit (.scalar (.text value.lower) origin) "a boolean")
  | setting => .error (misfit setting "a boolean")

def conventionNamed (name : Text) : Except SettingsError Convention :=
  match [Convention.plain, .schema].find? (·.name = name.lower) with
  | some convention => .ok convention
  | none => .error (.unknownConvention name)

-- A convention is named by a text, or by the only entry of a table.
def conventionOf : Setting → Except SettingsError Convention
  | .scalar (.text name) _ => conventionNamed name
  | .table [(name, _)] _ => conventionNamed name
  | _ => .error .shapelessConvention

-- A setting of a group and the step to it. A group that is a list has its settings in the order of their
-- names.
def member? (group : Setting) (names : List Text) (name : Text) : Option (Step × Setting) :=
  match group with
  | .list items _ =>
    let index := names.idxOf name
    (items[index]?).map fun item => (.item index, item)
  | _ => (group.find? name).map fun setting => (.name name, setting)

def checkGroup (expected : Text) : Setting → Except SettingsError Unit
  | .table _ _ | .list _ _ => .ok ()
  | setting => .error (.noGroup (misfitOf setting) expected)

-- Reads a setting one step below; its errors are told from here.
def readBelow {α : Type} (step : Step) (setting : Setting) (read : Setting → Except SettingsError α) :
    Except SettingsError α :=
  (read setting).mapError (·.under step)

def orDefault {α : Type} (default : α) (found : Option (Step × Setting))
    (read : Setting → Except SettingsError α) : Except SettingsError α :=
  match found with
  | none => .ok default
  | some (step, setting) => readBelow step setting read

def labelsOf : Setting → Except SettingsError (List (Text × Text))
  | .table entries _ =>
    entries.mapM fun (name, setting) => (readBelow (.name name) setting textOf).map fun label => (name, label)
  | setting => .error (.noGroup (misfitOf setting) "a map")

def readSource (settings : Settings) (group : Setting) : Except SettingsError Settings := do
  checkGroup "struct SourceConfig" group
  let member? := member? group ["convention", "search_dir"]
  let convention ← orDefault settings.convention (member? "convention") conventionOf
  let searchDir ← orDefault settings.searchDir (member? "search_dir") fun setting =>
    (textOf? setting).map (·.map Path.mk)
  return { settings with convention, searchDir }

def readRender (settings : Settings) (group : Setting) : Except SettingsError Settings := do
  checkGroup "struct RenderConfig" group
  let member? := member? group ["look", "layout", "theme", "title"]
  let look ← orDefault settings.look (member? "look") textOf
  let layout ← orDefault settings.layout (member? "layout") textOf
  let theme ← orDefault settings.theme (member? "theme") textOf
  let title ← orDefault settings.title (member? "title") flagOf
  return { settings with look, layout, theme, title }

def readTypes (settings : Settings) (group : Setting) : Except SettingsError Settings := do
  checkGroup "struct TypeConfig" group
  let projectTypes ← orDefault settings.projectTypes (member? group ["project"] "project") labelsOf
  return { settings with projectTypes }

def readGroup (root : Setting) (name : Text) (read : Settings → Setting → Except SettingsError Settings)
    (settings : Settings) : Except SettingsError Settings :=
  match root.find? name with
  | none => .ok settings
  | some group => readBelow (.name name) group (read settings)

def ofSetting (root : Setting) : Except SettingsError Settings := do
  let settings ← readGroup root "source" readSource {}
  let settings ← readGroup root "render" readRender settings
  readGroup root "types" readTypes settings

end Settings

end SchemaDiagram
