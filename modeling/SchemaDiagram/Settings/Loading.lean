import SchemaDiagram.Disk
import SchemaDiagram.Settings.Environment
import SchemaDiagram.Settings.Reader
import SchemaDiagram.Settings.Printer

/-!
Where settings come from: files at fixed places, the user's own file, a file named by the user, and the
environment, each layer over those before it. Only the named file has to be there.
-/

set_option autoImplicit false

namespace SchemaDiagram

structure Surroundings where
  bindings : List (Text × Text) := []

namespace Surroundings

def home? (surroundings : Surroundings) : Option Path :=
  ((surroundings.bindings.lookup "HOME".toList).filter (!·.isEmpty)).map Path.mk

-- The directory of the user's settings, for which a variable may name an absolute path.
def settingsDir? (surroundings : Surroundings) : Option Path :=
  let named := (surroundings.bindings.lookup "XDG_CONFIG_HOME".toList).map Path.mk
  surroundings.home?.map fun home => (named.filter Path.isAbsolute).getD (home.join ⟨".config"⟩)

end Surroundings

namespace Settings

def fixedPlaces : List Path := [⟨"diagrams.toml"⟩, ⟨".diagrams.toml"⟩, ⟨"config/diagrams.toml"⟩]

def userPlace (settingsDir : Path) : Path := settingsDir.join ⟨"cds-diagrams/diagrams.toml"⟩

def withEnding (path : Path) : Option Path :=
  path.fileName?.map fun name => path.sibling (name ++ ".toml".toList)

-- A name that is nothing but an ending has none.
def isToml (path : Path) : Bool := path.fileName?.any fun name => (Text.before? ".toml" name).any (!·.isEmpty)

-- The file that a path stands for: the path as it is, or with the ending.
def findFile (disk : Disk) (path : Path) : Except SettingsError (Option Path) :=
  if disk.isFile path then
    if isToml path then .ok (some path) else .error (.unknownFormat (disk.absolute path))
  else .ok ((withEnding path).filter disk.isFile)

def originOf (disk : Disk) (path : Path) : Text :=
  let names := path.components.filter (fun name => name ≠ ['.'] && name ≠ ['/'])
  if path.isAbsolute then
    let common := (disk.here.zip names).takeWhile (fun (a, b) => a = b) |>.length
    ['/'].intercalate (List.replicate (disk.here.length - common) ['.', '.'] ++ names.drop common)
  else ['/'].intercalate names

def textOfFile (disk : Disk) (path : Path) : Except SettingsError Text :=
  match disk.read path with
  | none => .error .noText
  | some text => .ok text

def layerOf (disk : Disk) (path : Path) (text : Text) : Except SettingsError Layer :=
  match (Toml.parse? text).bind (Layer.ofToml? (originOf disk path)) with
  | none => .error (.malformed path)
  | some layer => .ok layer

def places (surroundings : Surroundings) (named : Option Path) : List Path :=
  let places := fixedPlaces ++ (surroundings.settingsDir?.map userPlace).toList ++ named.toList
  places ++ places.filterMap withEnding

def optionalLayer (disk : Disk) (path : Path) : Except SettingsError (Option Layer) :=
  match findFile disk path with
  | .ok (some file) =>
    match disk.read file with
    | none => .ok none
    | some text => (layerOf disk file text).map some
  | _ => .ok none

def namedLayer (disk : Disk) (path : Path) : Except SettingsError Layer := do
  match ← findFile disk path with
  | none => throw (.fileNotFound path)
  | some file => layerOf disk file (← textOfFile disk file)

def layers (disk : Disk) (surroundings : Surroundings) (named : Option Path) :
    Except SettingsError (List Layer) := do
  let own := (surroundings.settingsDir?.map userPlace).filter fun path => (disk.find? path).isSome
  let found ← (fixedPlaces ++ own.toList).mapM (optionalLayer disk)
  let explicit ← named.toList.mapM (namedLayer disk)
  return found.filterMap id ++ explicit ++ [Environment.layer surroundings.bindings]

def load (disk : Disk) (surroundings : Surroundings) (named : Option Path) : Except SettingsError Settings := do
  ofSetting (Layer.merge (← layers disk surroundings named))

def save (settings : Settings) (disk : Disk) (path : Path) : Except FileError Disk :=
  disk.write path settings.toToml

end Settings

end SchemaDiagram
