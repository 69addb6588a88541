import Confinement.Text.Space

/-!
# The version

The program is versioned by hand, and by the revision of the source tree it runs from where
that can be asked for.
-/

namespace Confinement

namespace Version

/-- What came of asking for the revision. -/
inductive Query where
  /-- It could not be asked for. -/
  | unavailable
  /-- The query ended with this code and printed this text. -/
  | ended (code : Int) (output : String)
  deriving DecidableEq, Repr

/-- The revision where none is known. -/
def development : String := "dev"

/-- The revision that a query tells. -/
def revision : Query → String
  | .ended 0 output => Text.trim output
  | _ => development

/-- The version of the program. -/
def text : String := "1.0.0." ++ development

end Version

end Confinement
