import Confinement.Command.Run
import Confinement.Document.Reader
import Confinement.Text.Lines
import Std.Time.Format
import Std.Time.Zoned

/-!
# The command line

`main` looks up the files that the arguments name, runs the program on them and carries out
what the program reports. Displays are out of reach from here, so no pointer is known.
-/

namespace Confinement

namespace CommandLine

/-- What lies at a path. A file counts as a document only if `read?` reads one from it. -/
def look (read? : String → Option Document) (path : String) : IO FileNode := do
  try
    match read? (← IO.FS.readFile path) with
    | some d => return .document d
    | none => throw (IO.userError s!"{path} holds no document")
  catch
    | .noFileOrDirectory .. => return .nothing
    | .inappropriateType _ code _ => return if code == 21 then .directory else .nothing
    | e => throw e

/-- Adds what lies at a place. -/
def add (read? : String → Option Document) (files : Files) (place : Place) : IO Files := do
  match ← look read? (Config.shownPlace files place) with
  | .document d => return { files with documents := files.documents ++ [(place, d)] }
  | .directory => return { files with directories := files.directories ++ [place] }
  | .nothing => return files

/-- The places of the documents that a command needs. -/
def placesFor (choices : Choices) (command : Command) : List Place :=
  let config :=
    match choices.path? with
    | some path => [.ofPath path]
    | none => Config.places.map Place.ofName
  config ++ [.ofPath (Path.ofString command.regionFile)]

/-- The places of a path and of the directories it leads through. -/
def placesAlong (path : Path) : List Place :=
  (List.range (path.parts.length + 1)).map fun n =>
    .ofPath ⟨path.root, path.parts.take n⟩

/-- What there is, as far as the arguments need it : first the documents, then what lies on
the way to the log file that they name. -/
def filesFor (arguments : List String) : IO Files := do
  let files : Files := {
    working := toString (← IO.currentDir)
    home := (← IO.getEnv "HOME").getD ""
    documents := [] }
  match Arguments.read? arguments with
  | .error _ => return files
  | .ok (choices, command) =>
    let files ← (placesFor choices command).foldlM (add Document.read?) files
    match Config.loadWith? files choices.path? choices.overrides with
    | .error _ => return files
    | .ok config =>
      match config.logging.file with
      | .text name => (placesAlong (Path.ofString name)).foldlM (add fun _ => some .null) files
      | _ => return files

/-- Prints what a run prints, and puts its log at the end of the log file. -/
def carryOut (report : Report) : IO Unit := do
  IO.print (Text.printed report.output)
  IO.eprint (Text.printed report.errors)
  match report.logFile with
  | none => return
  | some (path, texts) =>
    let file ← IO.FS.Handle.mk path.text .append
    file.putStr (Text.printed texts)

/-- The present moment. -/
def moment : IO LogMoment := do
  let since ← Std.Time.Timestamp.now
  let now ← Std.Time.PlainDateTime.now
  let milliseconds := since.toMillisecondsSinceUnixEpoch.val
  return {
    stamp := now.format "uuuu-MM-dd HH:mm:ss,SSS"
    seconds := Float.ofInt milliseconds / 1000.0 }

/-- Runs the program and answers its exit code. A failure outside of it is printed like one of
its own. -/
def run (arguments : List String) : IO UInt32 := do
  try
    let files ← filesFor arguments
    let report := Program.run files none (← moment) arguments
    carryOut report
    return UInt32.ofNat report.exit
  catch e =>
    IO.eprintln (Report.failureText (toString e))
    return 1

end CommandLine

end Confinement

/-- The program. -/
def main (arguments : List String) : IO UInt32 :=
  Confinement.CommandLine.run arguments
