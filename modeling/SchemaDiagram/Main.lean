import SchemaDiagram.CommandLine.Session

/-!
The program itself: it takes a copy of the places that a run is about, runs on the copy, and carries out
what the run has changed.
-/

set_option autoImplicit false

namespace SchemaDiagram

namespace Program

def namesOf (path : Text) : List Text := (Text.fields (· = '/') path).filter (!·.isEmpty)

def realPathOf (location : Location) : String :=
  "/" ++ String.ofList (['/'].intercalate location)

def typeOf? (location : Location) : IO (Option IO.FS.FileType) := do
  match ← (System.mkFilePath [realPathOf location]).symlinkMetadata.toBaseIO with
  | .ok found => return some found.type
  | .error _ => return none

def copyEntry (disk : Disk) (location : Location) : IO Disk := do
  if (disk.node? location).isSome then return disk
  match ← typeOf? location with
  | some .file =>
    let isSchema := (location.getLast?.getD []) |> Text.endsWith ".cds"
    let content ← if isSchema then IO.FS.readBinFile (realPathOf location) else pure ByteArray.empty
    return disk.plant location (.file content)
  | some .dir => return disk.plant location .dir
  | some .symlink =>
    match ← (IO.FS.realPath (realPathOf location)).toBaseIO with
    | .error _ => return disk
    | .ok target =>
      let disk := disk.plant location (.link ⟨target.toString.toList⟩)
      let there := namesOf target.toString.toList
      if (disk.node? there).isSome then return disk
      return disk.plant there (if ← target.isDir then .dir else .file ByteArray.empty)
  | _ => return disk

def copyNode (disk : Disk) (location : Location) : IO Disk := do
  let path := System.mkFilePath [realPathOf location]
  if ← path.isDir then
    (← path.readDir).foldlM (fun disk found => copyEntry disk (location ++ [found.fileName.toList]))
      (disk.plant location .dir)
  else
    return disk.plant location (.file (← IO.FS.readBinFile path))

def copyAlong (disk : Disk) (location : Location) : List Text → IO Disk
  | [] => copyNode disk location
  | name :: rest => do
    if name = ['.'] then copyAlong disk location rest
    else if name = ['.', '.'] then copyAlong disk location.dropLast rest
    else
      let inner := location ++ [name]
      match ← typeOf? inner with
      | none => return disk
      | some .symlink =>
        match ← (IO.FS.realPath (realPathOf inner)).toBaseIO with
        | .error _ => return disk
        | .ok target =>
          let disk := disk.plant inner (.link ⟨target.toString.toList⟩)
          copyAlong disk (namesOf target.toString.toList) rest
      | some .dir => copyAlong (disk.plant inner .dir) inner rest
      | some _ => copyNode disk inner

def copyAll (disk : Disk) (paths : List Path) : IO Disk :=
  paths.foldlM (fun disk path =>
    copyAlong disk (if path.isAbsolute then [] else disk.here) (namesOf path.text)) disk

def carryOut (change : Location × Node) : IO Unit :=
  match change.2 with
  | .file content => IO.FS.writeBinFile (realPathOf change.1) content
  | .dir => IO.FS.createDirAll (realPathOf change.1)
  | .link _ => pure ()

def readBindings : IO (List (Text × Text)) := do
  match ← (IO.FS.readBinFile "/proc/self/environ").toBaseIO with
  | .error _ => return []
  | .ok bytes =>
    let texts := Text.fields (· = '\x00') ((Disk.asText? bytes).getD [])
    return texts.filterMap fun binding =>
      if binding.elem '=' then
        some (binding.takeWhile (· ≠ '='), (binding.dropWhile (· ≠ '=')).drop 1)
      else none

def finish (before : Disk) (session : Session) : IO UInt32 := do
  let outcome ← ((session.disk.changesSince before).forM carryOut).toBaseIO
  IO.eprint (String.ofList session.errors)
  IO.print (String.ofList session.output)
  match outcome with
  | .ok _ => return session.exitCode.toUInt32
  | .error error =>
    IO.eprintln ("Error: " ++ toString error)
    return 1

def run (words : List Text) : IO UInt32 := do
  let surroundings : Surroundings := ⟨← readBindings⟩
  let start : Disk := { here := namesOf (← IO.currentDir).toString.toList }
  match Invocation.ofList words with
  | .error _ => finish start (Session.run start surroundings words)
  | .ok invocation =>
    let settled ← copyAll start (Settings.places surroundings invocation.config)
    let disk ← match Settings.load settled surroundings invocation.config with
      | .error _ => pure settled
      | .ok settings => copyAll settled (Session.places settings invocation.command)
    finish disk (Session.run disk surroundings words)

end Program

end SchemaDiagram

def main (words : List String) : IO UInt32 := SchemaDiagram.Program.run (words.map String.toList)
