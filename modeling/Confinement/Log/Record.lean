import Confinement.Log.Level
import Confinement.Log.Template

/-!
# Log records

A record holds what is logged and where it comes from. When it is written, the moment is
added : the time, and the process and thread at work. Its values are what the fields of a
template can name (`LogRecord.values`).
-/

namespace Confinement

/-- The place in a program at which a record is logged. -/
structure LogPlace where
  /-- The path of the file. -/
  path : String := ""
  /-- The function. -/
  function : String := ""
  /-- The line in the file. -/
  line : Nat := 0
  deriving DecidableEq, Repr

namespace LogPlace

/-- The name of the file. -/
def file (p : LogPlace) : String :=
  (p.path.splitOn "/").getLastD ""

/-- The name of the file up to its last point. -/
def stem (p : LogPlace) : String :=
  match (p.file.splitOn ".").dropLast with
  | [] => p.file
  | parts => ".".intercalate parts

end LogPlace

/-- What is logged. -/
structure LogRecord where
  /-- The level. -/
  level : Int
  /-- Which part of the program logs; none stands for the program as a whole. -/
  logger : String
  /-- The text. -/
  message : String
  /-- Where in the program it is logged. -/
  place : LogPlace := {}
  deriving DecidableEq, Repr

/-- The moment at which records are written. -/
structure LogMoment where
  /-- The time as it is written. -/
  stamp : String
  /-- The time in seconds. -/
  seconds : Float := 0.0
  /-- For how many seconds the program has been running. -/
  elapsed : Float := 0.0
  /-- The number of the process. -/
  process : Int := 0
  /-- The number of the thread. -/
  thread : Int := 0

namespace LogMoment

/-- The milliseconds of the second at which a record is written. -/
def milliseconds (m : LogMoment) : Float :=
  ((m.seconds - m.seconds.floor) * 1000.0).floor

end LogMoment

namespace LogRecord

open Template (Value Values)

/-- A value that is not there. -/
def absent : Value := .shown "None"

/-- The values of a record written at a moment. -/
def values (r : LogRecord) (m : LogMoment) : Values where
  named := [
    ("name", .text (if r.logger.isEmpty then "root" else r.logger)),
    ("msg", .text r.message), ("args", .shown "()"),
    ("levelname", .text (Level.name r.level)), ("levelno", .int r.level),
    ("pathname", .text r.place.path), ("filename", .text r.place.file),
    ("module", .text r.place.stem), ("exc_info", absent), ("exc_text", absent),
    ("stack_info", absent), ("lineno", .int r.place.line), ("funcName", .text r.place.function),
    ("created", .real m.seconds), ("msecs", .real m.milliseconds),
    ("relativeCreated", .real (m.elapsed * 1000.0)), ("thread", .int m.thread),
    ("threadName", .text "MainThread"), ("processName", .text "MainProcess"),
    ("process", .int m.process), ("message", .text r.message), ("asctime", .text m.stamp)]

end LogRecord

end Confinement
