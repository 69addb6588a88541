import Confinement.Text.Case

/-!
# Log levels

A level is a number; six of them have names, two of these a second one. Names are compared
without regard to case.
-/

namespace Confinement

namespace Level

/-- The levels with their names, the name in use first. -/
def names : List (String × Int) :=
  [("CRITICAL", 50), ("FATAL", 50), ("ERROR", 40), ("WARNING", 30), ("WARN", 30), ("INFO", 20),
    ("DEBUG", 10), ("NOTSET", 0)]

/-- The level with this name. -/
def ofName? (name : String) : Option Int :=
  (names.find? fun entry => entry.1 == Text.upper name).map (·.2)

/-- The name of a level. -/
def name (level : Int) : String :=
  match names.find? fun entry => decide (entry.2 = level) with
  | some (name, _) => name
  | none => s!"Level {level}"

/-- Debugging. -/
def debug : Int := 10

/-- Information. -/
def info : Int := 20

end Level

end Confinement
