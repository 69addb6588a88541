import Confinement.Command.Arguments
import Confinement.Command.Listing
import Confinement.Command.RegionFile
import Confinement.Log.Setup
import Confinement.Seat

/-!
# Running commands

A command prints lines, logs records and sends calls to a display, in some order, and may fail
on the way; what it has done until then stands. `Command.run` is the sequence of these events
with the outcome. `Program.run` is the whole program : it reads the arguments, the
configuration and the region file, sets up logging, runs the command, and sorts the events
into what appears where.
-/

namespace Confinement

/-- Something a command does. -/
inductive Event where
  /-- It prints a line. -/
  | printed (line : String)
  /-- It logs a record. -/
  | logged (record : LogRecord)
  /-- It sends a call to a display. -/
  | sent (call : DisplayCall)
  deriving DecidableEq, Repr

/-- Why a command fails. -/
inductive Fault where
  /-- The configuration cannot be read. -/
  | config (reason : ConfigError)
  /-- Logging cannot be set up. -/
  | log (reason : LogError)
  /-- The region file describes no region. -/
  | region (reason : RegionFileError)
  /-- The region has no outline. -/
  | outline (reason : OutlineError Document)
  /-- There is no constraint. -/
  | constraint (reason : ConstraintError Document Document)
  /-- A coordinate cannot be computed. -/
  | arithmetic (reason : ArithmeticError)
  /-- The pointer cannot be recovered. -/
  | recovery (reason : RecoveryError Document)
  /-- The seat cannot do what it is told. -/
  | seat (reason : SeatError)
  /-- A coordinate cannot be listed. -/
  | listing (reason : Document.AccessError)

/-- The wording of each failure. -/
def Fault.message : Fault → String
  | .config reason => reason.message
  | .log reason => reason.message
  | .region reason => reason.message
  | .outline reason => reason.message
  | .constraint reason => reason.message
  | .arithmetic reason => reason.message
  | .recovery reason => reason.message
  | .seat reason => reason.message
  | .listing reason => reason.message

/-- Where in the program a record is logged. -/
structure LogSite where
  /-- The part of the program. -/
  logger : String
  /-- The function. -/
  function : String
  /-- The line. -/
  line : Nat
  deriving DecidableEq, Repr

namespace LogSite

/-- The place of the site. -/
def place (s : LogSite) : LogPlace :=
  ⟨"/".intercalate (s.logger.splitOn ".") ++ ".py", s.function, s.line⟩

/-- Where the banding of boxes is logged. -/
def banding : LogSite := ⟨"ptrconfine.geometry.region", "from_boxes", 157⟩

/-- Where an outline is logged. -/
def outline : LogSite := ⟨"ptrconfine.geometry.outline", "outline_extract", 244⟩

/-- Where a confined motion is logged. -/
def motion : LogSite := ⟨"ptrconfine.geometry.confine", "motion_trace", 161⟩

/-- Where the recovery of a pointer is logged. -/
def recovery : LogSite := ⟨"ptrconfine.geometry.recover", "position_recover", 113⟩

/-- Where a connection is logged. -/
def connection : LogSite := ⟨"ptrconfine.x11.seat", "connection_establish", 32⟩

/-- Where a warp is logged. -/
def warp : LogSite := ⟨"ptrconfine.constraint.recheck", "pointer_recheck", 31⟩

end LogSite

/-- Work that does things on the way to its answer. -/
abbrev Work := ExceptT Fault (StateM (List Event))

namespace Work

/-- Does something. -/
def emit (e : Event) : Work Unit :=
  modify (· ++ [e])

/-- Prints a line. -/
def print (line : String) : Work Unit :=
  emit (.printed line)

/-- Logs a record. -/
def log (level : Int) (site : LogSite) (message : String) : Work Unit :=
  emit (.logged ⟨level, site.logger, message, site.place⟩)

/-- Sends calls to a display. -/
def send : List DisplayCall → Work Unit
  | [] => pure ()
  | call :: rest => do
    emit (.sent call)
    send rest

/-- An answer that may be a failure. -/
def ofExcept {ε α : Type} (fault : ε → Fault) : Except ε α → Work α
  | .ok a => pure a
  | .error e => throw (fault e)

end Work

namespace Command

open Work

/-! ## Steps with their log -/

/-- Reads the region file. Banding boxes is logged. -/
def loadRegion (files : Files) (name : String) : Work (Region Document) := do
  let source ← ofExcept .region (RegionFile.read? files (Path.ofString name))
  let region ← ofExcept .region source.region?
  match source with
  | .boxes boxes =>
    log Level.debug .banding
      s!"Region from {boxes.length} boxes -> {region.size} banded boxes"
  | .rectangles _ => pure ()
  return region

/-- Logs that the outline of a region has been extracted. -/
def logOutline (region : Region Document) (outline : Outline Document) : Work Unit := do
  if !region.isEmpty then
    let rows := (rowsOf region.boxes).length
    log Level.debug .outline
      s!"Outline of {region.size} boxes in {rows} bands: {outline.length} borders"

/-- Extracts the outline of a region. -/
def extract (region : Region Document) : Work (Outline Document) := do
  let outline ← ofExcept .outline (Outline.ofRegion? region)
  logOutline region outline
  return outline

/-- Creates the constraint that is configured. -/
def constrain (s : ConstraintSettings) (region : Region Document) :
    Work (Constraint Document Document) := do
  let c ← ofExcept .constraint (s.constraint? region)
  logOutline region c.outline
  return c

/-- Logs what became of a pointer that was outside. -/
def logRecovery (position : Point Document) : Recovery Document → Work Unit
  | .moved target =>
    log Level.debug .recovery
      s!"Pointer at {position.text} outside region, recovered to {target.text}"
  | _ => pure ()

/-! ## Commands -/

/-- Prints a border with something in front. -/
def printBorder (before : String) (b : Border Document) : Work Unit := do
  let line ← ofExcept .listing (Listing.border b)
  print (before ++ line)

/-- Lists the outline of a region. -/
def runOutline (files : Files) (name : String) : Work Unit := do
  let region ← loadRegion files name
  let outline ← extract region
  print s!"{outline.length} borders"
  outline.forM (printBorder "  ")

/-- Confines a motion, with the margin and step that are configured. -/
def runConfine (files : Files) (s : ConstraintSettings) (name : String)
    (before asked : Point Document) : Work Unit := do
  let region ← loadRegion files name
  let outline ← extract region
  let confined ← ofExcept .arithmetic
    (outline.confine s.place before asked (.real s.margin) (.real s.step))
  let count := confined.stoppedBy.length
  if count ≠ 0 then
    log Level.debug .motion
      s!"Motion {before.text} -> {asked.text} clamped by {count} border(s)"
  print (← ofExcept .listing (Listing.point confined.position))
  confined.stoppedBy.forM (printBorder "  clamped by ")

/-- Finds a position for a pointer that may be outside. -/
def runRecover (files : Files) (s : ConstraintSettings) (name : String)
    (position : Point Document) : Work Unit := do
  let region ← loadRegion files name
  let c ← constrain s region
  let recovery ← ofExcept .recovery (c.recover position)
  logRecovery position recovery
  print (← ofExcept .listing (Listing.point recovery.position))

/-- Warps the pointer of a connected seat back if it is outside, and says what was done. -/
def recheckConnected (c : Constraint Document Document) (seat : Seat) : Work Unit := do
  let position ← ofExcept .seat seat.position?
  let position : Point Document := position.map .int
  let recovery ← ofExcept .recovery (c.recover position)
  logRecovery position recovery
  let safe := recovery.position
  if safe.same position then print "pointer inside region"
  else
    log Level.info .warp
      (s!"Pointer at ({position.x.display}, {position.y.display}) outside region, " ++
        s!"warping to ({safe.x.display}, {safe.y.display})")
    let (calls, seat) ← ofExcept .seat (seat.warp safe)
    send calls
    let now ← ofExcept .seat seat.position?
    print ("warped to " ++ (← ofExcept .listing (Listing.point (now.map .int))))

/-- The name of a display in the log. -/
def shownName : DisplayName → String
  | .named name => if name.isEmpty then "(default)" else name
  | _ => "(default)"

/-- Rechecks the pointer of a display. The connection is closed whatever happens. -/
def runRecheck (files : Files) (s : ConstraintSettings) (pointer : Option (Point Int))
    (name : String) (display : DisplayName) : Work Unit := do
  let region ← loadRegion files name
  let c ← constrain s region
  let (calls, connected) := (Seat.new display pointer).connect
  send calls
  let seat ← ofExcept .seat connected
  log Level.debug .connection s!"Connected to X11 display {shownName display}"
  try recheckConnected c seat
  finally send seat.close.1

/-- Runs a command under a configuration. -/
def run (files : Files) (pointer : Option (Point Int)) (s : ConstraintSettings) :
    Command → Work Unit
  | .outline region => runOutline files region
  | .confine region before asked => runConfine files s region before asked
  | .recover region position => runRecover files s region position
  | .recheck region display => runRecheck files s pointer region display

end Command

/-! ## The program -/

/-- What a run of the program leaves behind. A line feed is written behind each text. -/
structure Report where
  /-- The exit code. -/
  exit : Nat
  /-- The texts on standard output. -/
  output : List String := []
  /-- The texts on standard error. -/
  errors : List String := []
  /-- The log file, if one was opened, and the texts that go to its end. -/
  logFile : Option (Path × List String) := none
  /-- What the display was sent. -/
  calls : List DisplayCall := []

namespace Report

/-- The text that says why the program fails. -/
def failureText (message : String) : String :=
  "Error: " ++ message

/-- A run that fails before anything is done. -/
def failed (f : Fault) : Report :=
  { exit := 1, errors := [failureText f.message] }

/-- The texts that events print. -/
def printed (events : List Event) : List String :=
  events.filterMap fun
    | .printed text => some text
    | _ => none

/-- The texts that events log at a moment. -/
def logged (logger : Logger) (moment : LogMoment) (events : List Event) : List String :=
  events.filterMap fun
    | .logged record => logger.text? moment record
    | _ => none

/-- The calls that events send. -/
def sent (events : List Event) : List DisplayCall :=
  events.filterMap fun
    | .sent call => some call
    | _ => none

end Report

namespace Program

/-- The name of the program. -/
def name : String := "ptrconfine"

/-- The run of a command whose configuration has been read. Log lines are written at a moment.
A log file that is opened is there when the region file is read. -/
def runConfigured (files : Files) (pointer : Option (Point Int)) (moment : LogMoment)
    (c : Config) (command : Command) : Report :=
  let (file, logger) := Logger.setUp files c.logging
  match logger with
  | .error e => { Report.failed (.log e) with logFile := file.map fun path => (path, []) }
  | .ok logger =>
    let files := file.elim files files.touch
    let (outcome, events) := (command.run files pointer c.constraint).run.run []
    let log := Report.logged logger moment events
    let (exit, failure) :=
      match outcome with
      | .ok () => (0, [])
      | .error f => (1, [Report.failureText f.message])
    { exit := exit
      output := Report.printed events
      errors := log ++ failure
      logFile := file.map fun path => (path, log)
      calls := Report.sent events }

/-- A run of the program with these arguments. -/
def run (files : Files) (pointer : Option (Point Int)) (moment : LogMoment)
    (arguments : List String) : Report :=
  match Arguments.read? arguments with
  | .error .refused => { exit := 2 }
  | .error .help => { exit := 0 }
  | .error .version => { exit := 0, output := [name ++ " " ++ Version.text] }
  | .ok (choices, command) =>
    match Config.loadWith? files choices.path? choices.overrides with
    | .error e => Report.failed (.config e)
    | .ok c => runConfigured files pointer moment c command

end Program

end Confinement
