import Confinement.Constraint
import Confinement.Document.Coordinate
import Confinement.Files

/-!
# Configuration

The configuration has a section on the constraint and one on logging. `Config.ofDocument?`
reads it from a document, in which every section and every key may be absent; margin and step
must not be negative. Logging values are kept as the document holds them and are checked only
when logging is set up.
-/

namespace Confinement

/-- The section on the constraint. -/
structure ConstraintSettings where
  /-- The name of the strategy. -/
  backend : Document
  /-- The distance kept from right and bottom borders. -/
  margin : Float
  /-- The finest step of coordinates. -/
  step : Float
  /-- The position of the region's coordinates. -/
  origin : Point Float

/-- The section on logging. -/
structure LogSettings where
  /-- The name of the level. -/
  level : Document
  /-- The name of the log file. -/
  file : Document
  /-- The format of a line. -/
  format : Document

/-- A configuration. -/
structure Config where
  /-- The section on the constraint. -/
  constraint : ConstraintSettings
  /-- The section on logging. -/
  logging : LogSettings

/-- Why there is no configuration. -/
inductive ConfigError where
  /-- A value cannot be read. -/
  | access (reason : Document.AccessError)
  /-- The origin is no pair. -/
  | originShape (value : Document)
  /-- The origin is no pair of numbers. -/
  | originValue (value : Document)
  /-- The margin is negative. -/
  | negativeMargin (value : Float)
  /-- The step is negative. -/
  | negativeStep (value : Float)
  /-- The margin to be put in place of the configured one is negative. -/
  | marginOverride (value : Document)
  /-- The step to be put in place of the configured one is negative. -/
  | stepOverride (value : Document)
  /-- A file cannot be opened. -/
  | file (reason : FileError)
  /-- A file holds no mapping. -/
  | noMapping (path : String)
  /-- There is no file in any of the places searched. -/
  | notFound (places : List String)

/-- The wording of each failure. -/
def ConfigError.message : ConfigError → String
  | .access reason => reason.message
  | .originShape value =>
    "constraint.origin must be a list of two numbers, got " ++ value.quoted
  | .originValue value => "constraint.origin must be numeric, got " ++ value.quoted
  | .negativeMargin value =>
    "constraint.min_edge_distance must be >= 0, got " ++ Number.textOfFloat value
  | .negativeStep value =>
    "constraint.fixed_step must be >= 0, got " ++ Number.textOfFloat value
  | .marginOverride value => "min_edge_distance must be >= 0, got " ++ value.display
  | .stepOverride value => "fixed_step must be >= 0, got " ++ value.display
  | .file reason => reason.message
  | .noMapping path => s!"Config file {path} must contain a YAML dictionary"
  | .notFound places =>
    "Config file not found in standard locations: " ++
      (Document.list (places.map .text)).quoted

/-- The sort of each failure. -/
def ConfigError.sort : ConfigError → ErrorSort
  | .access reason => reason.sort
  | .file reason => reason.sort
  | .notFound _ => .missing
  | _ => .value

namespace Config

/-! ## Defaults -/

/-- The distance kept where none is configured. -/
def defaultMargin : Float := 0.0

/-- The step where none is configured : one 256th. -/
def defaultStep : Float := 0.00390625

/-- The level where none is configured. -/
def defaultLevel : Document := .text "INFO"

/-- The format where none is configured. -/
def defaultFormat : Document := .text "%(asctime)s - %(name)s - %(levelname)s - %(message)s"

/-- The configuration where nothing is configured. -/
def default : Config :=
  ⟨⟨.text Constraint.native, defaultMargin, defaultStep, ⟨0.0, 0.0⟩⟩,
    ⟨defaultLevel, .null, defaultFormat⟩⟩

/-! ## Reading -/

/-- The origin, a list of two numbers. -/
def origin? (value : Document) : Except ConfigError (Point Float) :=
  match value with
  | .list [a, b] =>
    match a.float?, b.float? with
    | .ok x, .ok y => .ok ⟨x, y⟩
    | .error (.arithmetic e), _ => .error (.access (.arithmetic e))
    | .ok _, .error (.arithmetic e) => .error (.access (.arithmetic e))
    | _, _ => .error (.originValue value)
  | _ => .error (.originShape value)

/-- The section under a key. A void one counts as absent. -/
def section? (key : String) (entries : List (String × Document)) :
    Except ConfigError (List (String × Document)) :=
  match Document.find? key entries with
  | none => .ok []
  | some d => if d.isVoid then .ok [] else d.entries?.mapError .access

/-- The double under a key. -/
def float? (key : String) (absent : Float) (entries : List (String × Document)) :
    Except ConfigError Float :=
  match Document.find? key entries with
  | none => .ok absent
  | some d => d.float?.mapError .access

/-- Refuses a negative margin or step. -/
def nonNegative? (refuse : Float → ConfigError) (x : Float) : Except ConfigError Unit :=
  if Constraint.isNegative (Number.real x) then .error (refuse x) else .ok ()

/-- Reads the section on the constraint. -/
def constraint? (entries : List (String × Document)) : Except ConfigError ConstraintSettings := do
  let backend :=
    match Document.find? "backend" entries with
    | none => Constraint.native
    | some d => d.display
  let margin ← float? "min_edge_distance" defaultMargin entries
  let step ← float? "fixed_step" defaultStep entries
  let origin ← origin? ((Document.find? "origin" entries).getD (.list [.int 0, .int 0]))
  nonNegative? .negativeMargin margin
  nonNegative? .negativeStep step
  return ⟨.text backend, margin, step, origin⟩

/-- Reads the section on logging. -/
def logSettings (entries : List (String × Document)) : LogSettings :=
  ⟨(Document.find? "level" entries).getD defaultLevel,
    (Document.find? "file" entries).getD .null,
    (Document.find? "format" entries).getD defaultFormat⟩

/-- Reads a configuration from a document. -/
def ofDocument? (d : Document) : Except ConfigError Config := do
  let entries ← d.entries?.mapError .access
  let constraint ← constraint? (← section? "constraint" entries)
  let log ← section? "logging" entries
  return ⟨constraint, logSettings log⟩

end Config

/-- The constraint with the strategy that a document names. -/
def Constraint.ofBackend? {κ α : Type} [Coordinate κ] [Scalar α] (backend : Document)
    (region : Region κ) (origin : Point α) (margin step : α) :
    Except (ConstraintError κ α) (Constraint κ α) :=
  match backend with
  | .text name => Constraint.withBackend? name region origin margin step
  | d => .error (.noName d.kind)

namespace ConstraintSettings

/-- The position of the region's coordinates, as the program computes with it. -/
def place (s : ConstraintSettings) : Point Document :=
  s.origin.map .real

/-- The constraint to a region that is configured. -/
def constraint? {κ : Type} [Coordinate κ] (s : ConstraintSettings) (region : Region κ) :
    Except (ConstraintError κ Document) (Constraint κ Document) :=
  Constraint.ofBackend? s.backend region s.place (.real s.margin) (.real s.step)

end ConstraintSettings

end Confinement
