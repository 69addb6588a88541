import Confinement.Config.Basic
import Confinement.Log.Record
import Confinement.Version

/-!
# Setting up logging

Logging is set up from the values of the configuration, in this order : the level must have a
name that is known, the log file is opened, the version goes into the template after every
time, and the template must have a field. A log file that was opened is there even if the
template is then refused.
-/

namespace Confinement

/-- Why logging cannot be set up. -/
inductive LogError where
  /-- A value is no text. -/
  | access (reason : Document.AccessError)
  /-- No level has this name. -/
  | unknownLevel (name : String)
  /-- The name of the log file is no text. -/
  | fileName (kind : String)
  /-- The log file cannot be opened. -/
  | file (reason : FileError)
  /-- The template has no field. -/
  | template (format : String)
  deriving DecidableEq, Repr

/-- The wording of each failure. -/
def LogError.message : LogError → String
  | .access reason => reason.message
  | .unknownLevel name => s!"Unknown log level '{name}'"
  | .fileName kind => s!"expected str, bytes or os.PathLike object, not {kind}"
  | .file reason => reason.message
  | .template format => s!"Invalid format '{format}' for '%' style"

/-- Where and how log lines are written. -/
structure Logger where
  /-- The least level written. -/
  level : Int
  /-- The template of a line. -/
  template : String
  /-- Whether lines go to a file too. -/
  hasFile : Bool
  deriving DecidableEq, Repr

namespace Logger

/-- The field for the time of a record. -/
def timeField : String := "%(asctime)s"

/-- The template with the version after every time. -/
def withVersion (format : String) : String :=
  (timeField ++ " [v" ++ Version.text ++ "]").intercalate (format.splitOn timeField)

/-- A text, which has an operation of this name. -/
def textOf? (operation : String) : Document → Except LogError String
  | .text s => .ok s
  | d => .error (.access (.noMember d.kind operation))

/-- The level that a document names. -/
def level? (d : Document) : Except LogError Int := do
  let name ← textOf? "upper" d
  match Level.ofName? name with
  | some level => return level
  | none => throw (.unknownLevel name)

/-- The file that a document names, none if it is void, opened for writing. -/
def file? (files : Files) (d : Document) : Except LogError (Option Path) :=
  if d.isVoid then .ok none
  else
    match d with
    | .text name =>
      match files.openForWriting? (Path.ofString name) with
      | .ok path => .ok (some path)
      | .error e => .error (.file e)
    | d => .error (.fileName d.kind)

/-- The template that a document holds. -/
def template? (d : Document) : Except LogError String := do
  let format ← textOf? "replace" d
  let template := withVersion format
  if Template.isValid template then return template else throw (.template template)

/-- Sets up logging. Beside the outcome it answers the path of the log file, if one was
opened. -/
def setUp (files : Files) (s : LogSettings) : Option Path × Except LogError Logger :=
  match level? s.level with
  | .error e => (none, .error e)
  | .ok level =>
    match file? files s.file with
    | .error e => (none, .error e)
    | .ok file =>
      (file, (template? s.format).map fun template => ⟨level, template, file.isSome⟩)

/-- How many places lines go to. -/
def handlers (l : Logger) : Nat :=
  if l.hasFile then 2 else 1

/-- Whether a record is written. -/
def admits (l : Logger) (r : LogRecord) : Bool :=
  decide (0 < r.level ∧ l.level ≤ r.level)

/-- The text of a record written at a moment. Nothing is written of one that the template has
no place for. -/
def text? (l : Logger) (moment : LogMoment) (r : LogRecord) : Option String :=
  if l.admits r then Template.fill? l.template (r.values moment) else none

end Logger

end Confinement
