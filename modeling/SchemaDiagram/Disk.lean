import SchemaDiagram.Report

/-!
A file system as a value: files, symbolic links and directories by their location, which is the list of
names that leads there from the root. Links are followed as far as forty of them.
-/

set_option autoImplicit false

namespace SchemaDiagram

inductive FileError where
  | notFound
  | taken
  | notADirectory
  | isADirectory
  | nameTooLong
  | tooManyLinks
  | zeroCharacter
deriving DecidableEq, Repr

namespace FileError

def message : FileError → Text
  | notFound => "No such file or directory (os error 2)"
  | taken => "File exists (os error 17)"
  | notADirectory => "Not a directory (os error 20)"
  | isADirectory => "Is a directory (os error 21)"
  | nameTooLong => "File name too long (os error 36)"
  | zeroCharacter => "file name contained an unexpected NUL byte"
  | tooManyLinks => "Too many levels of symbolic links (os error 40)"

end FileError

abbrev Location := List Text

inductive Node where
  | file (content : ByteArray)
  | link (target : Path)
  | dir

def Node.same : Node → Node → Bool
  | file a, file b => a == b
  | link a, link b => a = b
  | dir, dir => true
  | _, _ => false

structure Disk where
  entries : List (Location × Node) := []
  here : Location := []

-- Where a path leads: to something there, or to a free name in a directory.
inductive Place where
  | taken (location : Location)
  | free (location : Location)
deriving DecidableEq, Repr

namespace Disk

-- The names to follow; an empty one stands for a slash at the end.
def steps (path : Path) : List Text :=
  (Text.fields (· = '/') path.text).filter (!·.isEmpty) ++
    if path.text.getLast? = some '/' then [[]] else []

def node? (disk : Disk) (location : Location) : Option Node :=
  if location.isEmpty then some .dir
  else (disk.entries.find? (·.1 = location)).map Prod.snd

def nameLimit : Nat := 255

-- Follows names from a directory on. With a slash at the end, as with a dot, they lead to a directory or
-- to nothing; and no file is ever made by a name with a slash behind it, not even in the target of a link.
def walk (disk : Disk) (making : Bool) (links : Nat) (dir : Location) (names : List Text) :
    Except FileError Place :=
  match names with
  | [] => .ok (.taken dir)
  | name :: rest =>
    if making && rest = [[]] then .error .isADirectory
    else if name.isEmpty || name = ['.'] then walk disk making links dir rest
    else if name = ['.', '.'] then walk disk making links dir.dropLast rest
    else if nameLimit < name.byteSize then .error .nameTooLong
    else
      match disk.node? (dir ++ [name]) with
      | none => if rest.isEmpty then .ok (.free (dir ++ [name])) else .error .notFound
      | some .dir => walk disk making links (dir ++ [name]) rest
      | some (.file _) => if rest.isEmpty then .ok (.taken (dir ++ [name])) else .error .notADirectory
      | some (.link target) =>
        match links with
        | 0 => .error .tooManyLinks
        | links + 1 =>
          walk disk making links (if target.isAbsolute then [] else dir) (steps target ++ rest)
termination_by (links, names.length)

def linkLimit : Nat := 40

def absolute (disk : Disk) (path : Path) : Path := Path.join ⟨'/' :: ['/'].intercalate disk.here⟩ path

def startOf (disk : Disk) (path : Path) : Location := if path.isAbsolute then [] else disk.here

def pathLimit : Nat := 4095

def flaw? (path : Path) : Option FileError :=
  if path.text.isEmpty then some .notFound
  else if path.text.elem '\x00' then some .zeroCharacter
  else if pathLimit < path.text.byteSize then some .nameTooLong
  else none

def place (disk : Disk) (making : Bool) (path : Path) : Except FileError Place :=
  match flaw? path with
  | some error => .error error
  | none => disk.walk making linkLimit (disk.startOf path) (steps path)

def find? (disk : Disk) (path : Path) : Option (Location × Node) :=
  match disk.place false path with
  | .ok (.taken location) => (disk.node? location).map (location, ·)
  | _ => none

def isDir (disk : Disk) (path : Path) : Bool :=
  match disk.find? path with
  | some (_, .dir) => true
  | _ => false

def isFile (disk : Disk) (path : Path) : Bool :=
  match disk.find? path with
  | some (_, .file _) => true
  | _ => false

def content? (disk : Disk) (path : Path) : Option ByteArray :=
  match disk.find? path with
  | some (_, .file content) => some content
  | _ => none

-- Bytes that are not UTF-8 are no text.
def asText? (content : ByteArray) : Option Text := (String.fromUTF8? content).map String.toList

def read (disk : Disk) (path : Path) : Option Text := (disk.content? path).bind asText?

def encode (text : Text) : ByteArray := (String.ofList text).toUTF8

def nameIn? (dir location : Location) : Option Text :=
  if location.dropLast = dir then location.getLast? else none

-- The regular files of a directory by name; links are none.
def fileNames (disk : Disk) (dir : Location) : List Text :=
  (disk.entries.filterMap fun entry =>
    match entry.2 with
    | .file _ => nameIn? dir entry.1
    | _ => none).mergeSort fun a b => !Path.textBefore b a

def list (disk : Disk) (convention : Convention) (dir : Path) : List Path :=
  match disk.find? dir with
  | some (location, .dir) =>
    ((disk.fileNames location).filter convention.admits).map fun name => dir.join ⟨name⟩
  | _ => []

def source (disk : Disk) (convention : Convention) : Source := ⟨disk.list convention, disk.read⟩

def put (disk : Disk) (location : Location) (node : Node) : Disk :=
  if (disk.entries.find? (·.1 = location)).isSome then
    { disk with entries := disk.entries.map fun entry => if entry.1 = location then (location, node) else entry }
  else { disk with entries := disk.entries ++ [(location, node)] }

def openForWriting (disk : Disk) (path : Path) : Except FileError Location := do
  match ← disk.place true path with
  | .free location => return location
  | .taken location =>
    match disk.node? location with
    | some (.file _) => return location
    | _ => throw .isADirectory

def write (disk : Disk) (path : Path) (text : Text) : Except FileError Disk := do
  return disk.put (← disk.openForWriting path) (.file (encode text))

def makeDir (disk : Disk) (path : Path) : Except FileError Disk := do
  if let some error := flaw? path then throw error
  let names := (Text.fields (· = '/') path.text).filter (!·.isEmpty)
  match names.getLast? with
  | none => throw .taken
  | some name =>
    if name = ['.'] || name = ['.', '.'] then
      let _ ← disk.walk false linkLimit (disk.startOf path) names
      throw .taken
    match ← disk.walk false linkLimit (disk.startOf path) (names.dropLast ++ [['.']]) with
    | .free _ => throw .notFound
    | .taken dir =>
      if nameLimit < name.byteSize then throw .nameTooLong
      if (disk.node? (dir ++ [name])).isSome then throw .taken
      return disk.put (dir ++ [name]) .dir

-- Creates a directory and those above it, at most `depth` of them. One that is there already will do.
def makeDirsWithin (depth : Nat) (disk : Disk) (path : Path) : Except FileError Disk :=
  let orThere (disk : Disk) (error : FileError) : Except FileError Disk :=
    if disk.isDir path then .ok disk else .error error
  if path.components.isEmpty then .ok disk
  else
    match disk.makeDir path with
    | .ok made => .ok made
    | .error .notFound =>
      match depth, path.parent? with
      | depth + 1, some parent =>
        match makeDirsWithin depth disk parent with
        | .error error => .error error
        | .ok below =>
          match below.makeDir path with
          | .ok made => .ok made
          | .error error => orThere below error
      | _, _ => .error .notFound
    | .error error => orThere disk error

-- No path has more parents than components.
def makeDirs (disk : Disk) (path : Path) : Except FileError Disk :=
  makeDirsWithin path.components.length disk path

def plant (disk : Disk) (location : Location) (node : Node) : Disk :=
  let parents := (List.range location.length).map location.take
  let grown := parents.foldl (fun disk dir => if (disk.node? dir).isSome then disk else disk.put dir .dir) disk
  match node, grown.node? location with
  | .dir, some .dir => grown
  | _, _ => grown.put location node

def changesSince (disk before : Disk) : List (Location × Node) :=
  disk.entries.filter fun entry => !(before.node? entry.1).any (Node.same entry.2)

def filesSince (disk before : Disk) : List (Path × Text) :=
  (disk.changesSince before).filterMap fun (location, node) =>
    match node with
    | .file content =>
      if disk.here.isPrefixOf location then
        some (⟨['/'].intercalate (location.drop disk.here.length)⟩, (asText? content).getD [])
      else none
    | _ => none

end Disk

end SchemaDiagram
