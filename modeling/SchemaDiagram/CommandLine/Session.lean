import SchemaDiagram.CommandLine.Arguments
import SchemaDiagram.Inspection
import SchemaDiagram.Settings.Loading

/-!
What the program does for its arguments: what it prints, what it finds fault with, and which files it writes.
A run that fails keeps what it did up to there.
-/

set_option autoImplicit false

namespace SchemaDiagram

inductive Failure where
  | usage (error : UsageError)
  | settings (error : SettingsError)
  | notADirectory (path : Path)
  | cannotCreate (path : Path) (error : FileError)
  | cannotWrite (path : Path) (error : FileError)
deriving DecidableEq, Repr

namespace Failure

def message : Failure → Text
  | usage error => error.message
  | settings error => "failed to load configuration: ".toList ++ error.message
  | notADirectory path => "Invalid input ".toList ++ path.text ++ ": not a directory".toList
  | cannotCreate path error => "failed to create ".toList ++ path.text ++ ": ".toList ++ error.message
  | cannotWrite path error =>
    "failed to write ".toList ++ path.text ++ ": IO error: ".toList ++ error.message ++ ": ".toList ++
      error.message

def exitCode : Failure → Nat
  | usage _ => 2
  | _ => 1

end Failure

structure Session where
  disk : Disk
  output : Text := []
  -- Findings, and the failure that ended the run.
  errors : Text := []
  exitCode : Nat := 0

namespace Session

def print (session : Session) (line : Text) : Session :=
  { session with output := session.output ++ line ++ ['\n'] }

def complain (session : Session) (line : Text) : Session :=
  { session with errors := session.errors ++ line ++ ['\n'] }

def fail (session : Session) (failure : Failure) : Session :=
  { session.complain ("Error: ".toList ++ failure.message) with exitCode := failure.exitCode }

def decimal (n : Nat) : Text := Nat.toDigits 10 n

def complainOf (session : Session) (input : Path) (report : Report) : Session :=
  report.diagnostics.foldl
    (fun session diagnostic => session.complain (input.text ++ ": ".toList ++ diagnostic.line)) session

def write (session : Session) (target : Path) (document : Text) (goOn : Session → Session) : Session :=
  match session.disk.write target document with
  | .error error => session.fail (.cannotWrite target error)
  | .ok disk => goOn { session with disk }

def written (target : Path) (report : Report) : Text :=
  "Wrote ".toList ++ target.text ++ " (".toList ++ decimal report.entities.length ++ " entities, ".toList ++
    decimal report.edges.length ++ " relationships)".toList

def render (session : Session) (settings : Settings) (input : Path) (output : Option Path) : Session :=
  let report := Report.ofFile (session.disk.source settings.convention) settings input
  let target := output.getD (input.sibling (Document.nameFor input))
  (session.complainOf input report).write target report.document fun session =>
    session.print (written target report)

def inspect (session : Session) (settings : Settings) (input : Path) : Session :=
  let report := Report.ofFile (session.disk.source settings.convention) settings input
  session.print (Json.render 0 report.json)

def writeAll (count : Nat) (outDir : Path) : List (Path × Report) → Session → Session
  | [], session => session.print ("Rendered ".toList ++ decimal count ++ " file(s)".toList)
  | (input, report) :: rest, session =>
    let target := outDir.join ⟨Document.nameFor input⟩
    (session.complainOf input report).write target report.document fun session =>
      writeAll count outDir rest
        (session.print ("  ".toList ++ input.text ++ " -> ".toList ++ target.text))

def batch (session : Session) (settings : Settings) (dir outDir : Path) : Session :=
  if !session.disk.isDir dir then session.fail (.notADirectory dir)
  else
    match session.disk.makeDirs outDir with
    | .error error => session.fail (.cannotCreate outDir error)
    | .ok disk =>
      let reports := Report.ofDirectory (disk.source settings.convention) settings dir
      let session := { session with disk }
      if reports.isEmpty then session.print ("No schema files in ".toList ++ dir.text)
      else writeAll reports.length outDir reports session

def places (settings : Settings) : Command → List Path
  | .render input output searchDir _ =>
    [input, searchDir.getD (settings.searchDirFor input), input.sibling (Document.nameFor input)] ++ output.toList
  | .batch dir outDir => dir :: settings.searchDir.toList ++ outDir.toList
  | .inspect input searchDir => [input, searchDir.getD (settings.searchDirFor input)]

def obey (session : Session) (settings : Settings) : Command → Session
  | .render input output searchDir untitled =>
    let searchDir := searchDir.or settings.searchDir
    session.render { settings with searchDir, title := settings.title && !untitled } input output
  | .batch dir outDir => session.batch settings dir (outDir.getD dir)
  | .inspect input searchDir => session.inspect { settings with searchDir := searchDir.or settings.searchDir } input

def usage : Text :=
  "Usage: cds-diagram [--config FILE] [--verbose] COMMAND
  render INPUT [--output FILE] [--search-dir DIR] [--no-title]
  batch DIR [--out-dir DIR]
  inspect INPUT [--search-dir DIR]"

def run (disk : Disk) (surroundings : Surroundings) (arguments : List Text) : Session :=
  let session : Session := { disk }
  match Invocation.ofList arguments with
  | .error .helpAsked => session.print usage
  | .error (.refused error) => session.fail (.usage error)
  | .ok invocation =>
    match Settings.load disk surroundings invocation.config with
    | .error error => session.fail (.settings error)
    | .ok settings => session.obey settings invocation.command

end Session

end SchemaDiagram
