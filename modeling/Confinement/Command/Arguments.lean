import Confinement.Command.Grammar
import Confinement.Config.Source
import Confinement.Seat

/-!
# The arguments of the program

General switches come first, then one of four commands with its operands. The switches name a
configuration file, put values in place of configured ones, and raise or lower the level of
logging; of several levels the most severe one counts.

A value in whose place stands a lone `--` is given as nothing (`Given.nothing`), which is not
the same as a value that is not given. It counts as an empty list from there on.
-/

namespace Confinement

/-- What is given for a value. -/
inductive Given (α : Type) where
  /-- A value. -/
  | value (value : α)
  /-- Nothing. -/
  | nothing
  deriving DecidableEq, Repr

/-- What is given, as a document. -/
def Given.document {α : Type} (write : α → Document) : Given α → Document
  | .value a => write a
  | .nothing => .list []

/-- What the program is asked to do. -/
inductive Command where
  /-- List the outline of a region. -/
  | outline (region : String)
  /-- Confine a motion to a region. -/
  | confine (region : String) (before asked : Point Document)
  /-- Find a position in a region for a pointer that may be outside. -/
  | recover (region : String) (position : Point Document)
  /-- Warp the pointer of a display back into a region. -/
  | recheck (region : String) (display : DisplayName)

/-- The region file that a command reads. -/
def Command.regionFile : Command → String
  | .outline region => region
  | .confine region _ _ => region
  | .recover region _ => region
  | .recheck region _ => region

/-- The switches for the level of logging that are set. -/
structure LevelFlags where
  /-- Everything. -/
  debug : Bool := false
  /-- Information and above. -/
  info : Bool := false
  /-- Warnings and above. -/
  warning : Bool := false
  /-- Errors and above. -/
  error : Bool := false
  /-- Only the gravest errors. -/
  critical : Bool := false
  deriving DecidableEq, Repr

/-- The name of the most severe level that is set. -/
def LevelFlags.level? (f : LevelFlags) : Option String :=
  if f.critical then some "CRITICAL"
  else if f.error then some "ERROR"
  else if f.warning then some "WARNING"
  else if f.info then some "INFO"
  else if f.debug then some "DEBUG"
  else none

/-- What the general switches say. -/
structure Choices where
  /-- The configuration file. -/
  config : Option (Given String) := none
  /-- The margin to be put in place of the configured one. -/
  margin : Option (Given Float) := none
  /-- The step to be put in place of the configured one. -/
  step : Option (Given Float) := none
  /-- The strategy to be put in place of the configured one. -/
  backend : Option (Given String) := none
  /-- The origin to be put in place of the configured one. -/
  origin : Option (Point Float) := none
  /-- The level of logging. -/
  flags : LevelFlags := {}

namespace Choices

/-- The configuration file, if one is named. -/
def path? (c : Choices) : Option Path :=
  match c.config with
  | some (.value name) => Path.given? name
  | _ => none

/-- The values to be put in place of configured ones. -/
def overrides (c : Choices) : Overrides where
  backend := c.backend.map (Given.document .text)
  margin := c.margin.map (Given.document .real)
  step := c.step.map (Given.document .real)
  origin := c.origin.map fun p => .list [.real p.x, .real p.y]
  level := c.flags.level?.map .text

end Choices

namespace Arguments

/-- The operands of a command as they are read. -/
structure Operands where
  /-- The region file. -/
  region : String := ""
  /-- The numbers after it. -/
  numbers : List Document := []
  /-- The name of the display. -/
  display : DisplayName := .standard

/-- A line as it is read. -/
structure Draft where
  /-- What the general switches say. -/
  choices : Choices := {}
  /-- The command. -/
  command : Option Command := none
  /-- Whether some operand of the command found no place. -/
  hasExtras : Bool := false

/-- A number. -/
def float? (s : String) : Except Stop Float :=
  match Decimal.read? s with
  | some x => .ok x
  | none => .error .refused

/-- The switch that asks for help. -/
def help {σ : Type} : Switch σ :=
  ⟨["-h", "--help"], 0, fun _ _ => .error .help⟩

/-- The single value among arguments, read by `read?`; nothing if there is none. -/
def single? {α : Type} (read? : String → Except Stop α) :
    List String → Except Stop (Given α)
  | [] => .ok .nothing
  | [a] => .value <$> read? a
  | _ => .error .refused

/-- A switch with one value. -/
def valueSwitch {σ α : Type} (name : String) (read? : String → Except Stop α)
    (set : Given α → σ → σ) : Switch σ :=
  ⟨[name], 1, fun arguments s => (single? read? arguments).map (set · s)⟩

/-- A switch with one text. -/
def textSwitch {σ : Type} (name : String) (set : Given String → σ → σ) : Switch σ :=
  valueSwitch name .ok set

/-- A switch with one number. -/
def numberSwitch {σ : Type} (name : String) (set : Given Float → σ → σ) : Switch σ :=
  valueSwitch name float? set

/-- A switch without arguments. -/
def flagSwitch {σ : Type} (name : String) (set : σ → σ) : Switch σ :=
  ⟨[name], 0, fun _ s => .ok (set s)⟩

/-- The operand that names the region file. -/
def regionOperand : Operand Operands :=
  ⟨false, fun arguments s =>
    match arguments with
    | [a] => .ok { s with region := a }
    | _ => .error .refused⟩

/-- An operand that is a number. -/
def numberOperand : Operand Operands :=
  ⟨false, fun arguments s => do
    let x ← single? float? arguments
    return { s with numbers := s.numbers ++ [x.document .real] }⟩

/-- The grammar of a command with so many numbers. -/
def withNumbers (count : Nat) : Grammar Operands :=
  ⟨[help], regionOperand :: List.replicate count numberOperand⟩

/-- The name of a display that is given. -/
def displayName : Given String → DisplayName
  | .value name => .named name
  | .nothing => .blank

/-- The grammar of the command that rechecks. -/
def recheckGrammar : Grammar Operands :=
  ⟨[help, textSwitch "--display" fun name s => { s with display := displayName name }],
    [regionOperand]⟩

/-- Reads the arguments of a command. -/
def command? (name : String) (arguments : List String) : Except Stop (Command × Bool) :=
  match name with
  | "outline" => do
    let (o, hasExtras) ← (withNumbers 0).run arguments {}
    return (.outline o.region, hasExtras)
  | "confine" => do
    let (o, hasExtras) ← (withNumbers 4).run arguments {}
    match o.numbers with
    | [px, py, x, y] => return (.confine o.region ⟨px, py⟩ ⟨x, y⟩, hasExtras)
    | _ => throw .refused
  | "recover" => do
    let (o, hasExtras) ← (withNumbers 2).run arguments {}
    match o.numbers with
    | [x, y] => return (.recover o.region ⟨x, y⟩, hasExtras)
    | _ => throw .refused
  | "recheck" => do
    let (o, hasExtras) ← recheckGrammar.run arguments {}
    return (.recheck o.region o.display, hasExtras)
  | _ => .error .refused

/-- Changes what the general switches say. -/
def choose (f : Choices → Choices) (d : Draft) : Draft :=
  { d with choices := f d.choices }

/-- Sets a level of logging. -/
def setLevel (f : LevelFlags → LevelFlags) : Draft → Draft :=
  choose fun c => { c with flags := f c.flags }

/-- The switch with the origin. -/
def originSwitch : Switch Draft :=
  ⟨["--origin"], 2, fun arguments d =>
    match arguments with
    | [a, b] => do
      let x ← float? a
      let y ← float? b
      return choose (fun c => { c with origin := some ⟨x, y⟩ }) d
    | _ => .error .refused⟩

/-- The general switches. -/
def switches : List (Switch Draft) :=
  [help,
    ⟨["--version"], 0, fun _ _ => .error .version⟩,
    textSwitch "--config" fun a => choose fun c => { c with config := some a },
    numberSwitch "--min-edge-distance" fun x => choose fun c => { c with margin := some x },
    numberSwitch "--fixed-step" fun x => choose fun c => { c with step := some x },
    textSwitch "--backend" fun a => choose fun c => { c with backend := some a },
    originSwitch,
    flagSwitch "--debug" (setLevel fun f => { f with debug := true }),
    flagSwitch "--info" (setLevel fun f => { f with info := true }),
    flagSwitch "--warning" (setLevel fun f => { f with warning := true }),
    flagSwitch "--error" (setLevel fun f => { f with error := true }),
    flagSwitch "--critical" (setLevel fun f => { f with critical := true })]

/-- The operand that is the command with all its arguments. -/
def commandOperand : Operand Draft :=
  ⟨true, fun arguments d =>
    match arguments with
    | name :: rest => do
      let (command, hasExtras) ← command? name rest
      return { d with command := some command, hasExtras := hasExtras }
    | [] => .error .refused⟩

/-- The grammar of the program. -/
def grammar : Grammar Draft :=
  ⟨switches, [commandOperand]⟩

/-- Reads the arguments of the program. What finds no place is refused last. -/
def read? (arguments : List String) : Except Stop (Choices × Command) := do
  let (d, hasExtras) ← grammar.run arguments {}
  if hasExtras || d.hasExtras then throw .refused
  match d.command with
  | some command => return (d.choices, command)
  | none => throw .refused

end Arguments

end Confinement
