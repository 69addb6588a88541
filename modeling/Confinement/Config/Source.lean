import Confinement.Config.Basic

/-!
# Where the configuration comes from

The configuration is read from a given file, or else from the first of three places that
holds one. Single values can be put in place of configured ones (`Overrides`); then it is no
failure if no place holds a file, and the defaults apply.
-/

namespace Confinement

/-- Values to be put in place of configured ones. -/
structure Overrides where
  /-- The name of the strategy. -/
  backend : Option Document := none
  /-- The distance kept from right and bottom borders. -/
  margin : Option Document := none
  /-- The finest step of coordinates. -/
  step : Option Document := none
  /-- The position of the region's coordinates. -/
  origin : Option Document := none
  /-- The name of the log level. -/
  level : Option Document := none

namespace Overrides

/-- A number put in place of a configured one, unless it is negative. -/
def number? (refuse : Document → ConfigError) (configured : Float) :
    Option Document → Except ConfigError Float
  | none => .ok configured
  | some value => do
    let zero : Document := .int 0
    if ← (Coordinate.before? value zero).mapError fun e => .access (.arithmetic e) then
      throw (refuse value)
    value.float?.mapError .access

/-- An origin put in place of the configured one. -/
def origin? (configured : Point Float) : Option Document → Except ConfigError (Point Float)
  | none => .ok configured
  | some value => do
    let items ← value.items?.mapError .access
    Config.origin? (.list items)

/-- Puts the values in place. -/
def onto? (o : Overrides) (c : Config) : Except ConfigError Config := do
  let margin ← number? .marginOverride c.constraint.margin o.margin
  let step ← number? .stepOverride c.constraint.step o.step
  let origin ← origin? c.constraint.origin o.origin
  return {
    constraint := ⟨o.backend.getD c.constraint.backend, margin, step, origin⟩
    logging := { c.logging with level := o.level.getD c.logging.level } }

end Overrides

namespace Config

/-- The names of the places in which a configuration is searched. -/
def places : List String :=
  ["config.yml", "~/.config/ptrconfine/config.yml", "/etc/ptrconfine/config.yml"]

/-- A place as it is shown, from the root. -/
def shownPlace (files : Files) (place : Place) : String :=
  let below := "/".intercalate place.path.parts
  match place.base with
  | .working => files.working ++ "/" ++ below
  | .home => files.home ++ "/" ++ below
  | .root => "/" ++ below

/-- The first place that holds a document. -/
def search? (files : Files) : Option Place :=
  (places.map Place.ofName).find? files.hasDocument

/-- The path of the first place that holds a document. -/
def found? (files : Files) : Option String :=
  (search? files).map (shownPlace files)

/-- A document must be a mapping. -/
def mapping? (path : String) : Document → Except ConfigError Document
  | .mapping entries => .ok (.mapping entries)
  | _ => .error (.noMapping path)

/-- Reads the mapping at a given path. -/
def readMapping? (files : Files) (path : Path) : Except ConfigError Document := do
  let d ← (files.read? path).mapError .file
  mapping? path.text d

/-- Reads the configuration from a given path, or from the first place that holds one. -/
def load? (files : Files) (path : Option Path) : Except ConfigError Config := do
  match path with
  | some path => ofDocument? (← readMapping? files path)
  | none =>
    match search? files with
    | none => throw (.notFound places)
    | some place =>
      let shown := shownPlace files place
      let d ← (files.find? place shown).mapError .file
      ofDocument? (← mapping? shown d)

/-- Reads the configuration and puts values in place. Without a path the defaults stand in for
a file that is not there. -/
def loadWith? (files : Files) (path : Option Path) (o : Overrides) :
    Except ConfigError Config := do
  let configured ←
    if path.isNone && (search? files).isNone then pure default else load? files path
  o.onto? configured

end Config

/-! ## The configuration in force -/

/-- The configuration in force, once there is one. -/
structure Settings where
  /-- The configuration. -/
  config : Option Config := none

/-- No configuration is in force yet. -/
inductive SettingsError where
  /-- Nothing has been put in force. -/
  | notInForce
  deriving DecidableEq, Repr

/-- The wording of the failure. -/
def SettingsError.message : SettingsError → String
  | .notInForce => "Settings not initialized. Call settings.initialize(config) first."

namespace Settings

/-- Puts a configuration in force, in place of any other. -/
def enforce (_ : Settings) (c : Config) : Settings :=
  ⟨some c⟩

/-- The configuration in force. -/
def config? (s : Settings) : Except SettingsError Config :=
  match s.config with
  | some c => .ok c
  | none => .error .notInForce

end Settings

end Confinement
