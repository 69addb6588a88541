import Confinement.Text.Digit

/-!
# Command lines

A command line is matched against a grammar of switches and operands. A switch starts with
one or two dashes and takes so many of the arguments after it; a long one may be shortened as
long as it stays unique, and may have its value behind an equals sign. What starts with a dash
but looks like a negative number, or holds a blank, is an operand all the same, and so is
everything after a lone `--`.

First every argument is marked as what it is taken for (`Grammar.marked?`); a shortened switch
that is not unique ends it there. Then the line is worked off from the left (`Grammar.run`) :
operands are taken as far as they go, then the next switch with its arguments. Whatever finds
no place is remembered and refused at the very end, so that a request for help on the way
still counts.
-/

namespace Confinement

/-- How a command line ends before anything is done. -/
inductive Stop where
  /-- Help was asked for. -/
  | help
  /-- The version was asked for. -/
  | version
  /-- The command line is refused. -/
  | refused
  deriving DecidableEq, Repr

/-- A switch, working on settings of type `σ`. -/
structure Switch (σ : Type) where
  /-- Its names, with the dashes. -/
  names : List String
  /-- How many arguments it takes. -/
  arity : Nat
  /-- What it does with them. -/
  apply : List String → σ → Except Stop σ

/-- An operand, working on settings of type `σ`. -/
structure Operand (σ : Type) where
  /-- Whether it takes everything that follows, switches too. -/
  takesRest : Bool
  /-- What it does with its arguments. -/
  apply : List String → σ → Except Stop σ

/-- The switches and operands of a command. All operands are required. -/
structure Grammar (σ : Type) where
  /-- The switches. -/
  switches : List (Switch σ)
  /-- The operands, in order. -/
  operands : List (Operand σ)

/-- A switch as it is written in an argument. -/
structure SwitchUse (σ : Type) where
  /-- The switch. -/
  switch : Switch σ
  /-- Whether it is written with one dash and one letter. -/
  isShort : Bool
  /-- A value written in the same argument. -/
  value : Option (List Char)

/-- What an argument is taken for. -/
inductive Mark (σ : Type) where
  /-- An operand, or an argument of a switch. -/
  | operand
  /-- The first lone `--`. -/
  | separator
  /-- A switch. -/
  | switch (written : SwitchUse σ)
  /-- A switch that the grammar does not have. -/
  | unknown

namespace Grammar

variable {σ : Type}

/-! ## Marking arguments -/

/-- The argument that ends the switches. -/
def separator : String := "--"

/-- Whether an argument looks like a negative number : a dash, and digits with at most one
point, at least one of them after the point. A line break may follow. -/
def looksNegative (cs : List Char) : Bool :=
  let body := if cs.getLast? = some '\n' then cs.dropLast else cs
  match body with
  | '-' :: rest =>
    match rest.dropWhile Text.isDigit with
    | [] => !rest.isEmpty
    | '.' :: more => !more.isEmpty && more.all Text.isDigit
    | _ => false
  | _ => false

/-- An argument before its first equals sign, and what follows the sign. -/
def splitValue (cs : List Char) : List Char × Option (List Char) :=
  match cs.dropWhile (· != '=') with
  | [] => (cs, none)
  | _ :: value => (cs.takeWhile (· != '='), some value)

/-- Whether a name has one dash. -/
def isShortName (name : String) : Bool :=
  name.toList[1]? != some '-'

/-- The names of the grammar, each with its switch. -/
def named (g : Grammar σ) : List (String × Switch σ) :=
  g.switches.flatMap fun s => s.names.map fun name => (name, s)

/-- The switch with this name. -/
def find? (g : Grammar σ) (name : List Char) : Option (String × Switch σ) :=
  g.named.find? fun entry => entry.1.toList == name

/-- The use of a switch by one of its names. -/
def useOf (entry : String × Switch σ) (value : Option (List Char)) : SwitchUse σ :=
  ⟨entry.2, isShortName entry.1, value⟩

/-- The switches that an argument may stand for : with two dashes those whose names it
shortens, with one dash the one whose letter it starts with, its value right behind. -/
def candidates (g : Grammar σ) (cs : List Char) : List (SwitchUse σ) :=
  if cs[1]? = some '-' then
    let (start, value) := splitValue cs
    (g.named.filter fun entry => start.isPrefixOf entry.1.toList).map (useOf · value)
  else
    g.named.filterMap fun entry =>
      if entry.1.toList == cs.take 2 then some (useOf entry (some (cs.drop 2)))
      else if cs.isPrefixOf entry.1.toList then some (useOf entry none)
      else none

/-- What an argument is taken for that is no name of a switch. -/
def markOther? (g : Grammar σ) (cs : List Char) : Except Stop (Mark σ) :=
  match g.candidates cs with
  | [written] => .ok (.switch written)
  | [] => .ok (if looksNegative cs || cs.contains ' ' then .operand else .unknown)
  | _ => .error .refused

/-- What an argument is taken for, before any lone `--`. -/
def mark? (g : Grammar σ) (argument : String) : Except Stop (Mark σ) :=
  let cs := argument.toList
  if cs.head? ≠ some '-' then .ok .operand
  else
    match g.find? cs with
    | some entry => .ok (.switch (useOf entry none))
    | none =>
      if cs.length = 1 then .ok .operand
      else
        let (start, value) := splitValue cs
        match value, g.find? start with
        | some value, some entry => .ok (.switch (useOf entry (some value)))
        | _, _ => g.markOther? cs

/-- The arguments with their marks. -/
def marked? (g : Grammar σ) : List String → Except Stop (List (String × Mark σ))
  | [] => .ok []
  | a :: rest =>
    if a = separator then .ok ((a, .separator) :: rest.map fun b => (b, .operand))
    else do
      let mark ← g.mark? a
      let others ← marked? g rest
      return (a, mark) :: others

/-- Whether a mark is that of an operand. -/
def isOperand : Mark σ → Bool
  | .operand => true
  | _ => false

/-- Whether a mark is that of the separator. -/
def isSeparator : Mark σ → Bool
  | .separator => true
  | _ => false

/-- Whether a mark is that of a switch, known or not. -/
def isSwitch : Mark σ → Bool
  | .switch _ => true
  | .unknown => true
  | _ => false

/-! ## Taking operands -/

/-- How many arguments an operand takes : itself, with separators around it, or everything. -/
def operandLength? (o : Operand σ) (line : List (String × Mark σ)) : Option Nat :=
  let before := line.takeWhile fun a => isSeparator a.2
  match line.drop before.length with
  | (_, .operand) :: rest =>
    if o.takesRest then some line.length
    else some (before.length + 1 + (rest.takeWhile fun a => isSeparator a.2).length)
  | _ => none

/-- Arguments without the first lone `--`. Where that was the only one, nothing is left. -/
def given (arguments : List String) : List String :=
  arguments.erase separator

/-- The progress on a line. -/
structure Progress (σ : Type) where
  /-- What is left of the line. -/
  line : List (String × Mark σ)
  /-- The operands still required. -/
  operands : List (Operand σ)
  /-- The settings so far. -/
  settings : σ
  /-- Whether some argument found no place. -/
  hasExtras : Bool

/-- Takes as many operands as the line starts with. One that takes everything keeps a lone
`--`. -/
def takeOperands (line : List (String × Mark σ)) (hasExtras : Bool) :
    List (Operand σ) → σ → Except Stop (Progress σ)
  | [], settings => .ok ⟨line, [], settings, hasExtras⟩
  | o :: rest, settings =>
    match operandLength? o line with
    | none => .ok ⟨line, o :: rest, settings, hasExtras⟩
    | some n =>
      let arguments := (line.take n).map (·.1)
      match o.apply (if o.takesRest then arguments else given arguments) settings with
      | .ok settings => takeOperands (line.drop n) hasExtras rest settings
      | .error stop => .error stop

/-! ## Taking switches -/

/-- The switches written in one argument, each with its arguments, and how many arguments
behind it the last one takes. A switch without arguments that is written with one dash may
have further letters behind it, each of which is a switch again. -/
def written? (g : Grammar σ) (following : List (String × Mark σ)) (isShort : Bool)
    (current : Switch σ) : Option (List Char) → Except Stop (List (Switch σ × List String) × Nat)
  | none =>
    let arguments := following.take current.arity
    if arguments.length = current.arity && arguments.all fun a => isOperand a.2 then
      .ok ([(current, arguments.map (·.1))], current.arity)
    else .error .refused
  | some [] => if current.arity = 1 then .ok ([(current, [""])], 0) else .error .refused
  | some (letter :: rest) =>
    if current.arity = 1 then .ok ([(current, [String.ofList (letter :: rest)])], 0)
    else if current.arity = 0 && isShort then
      match g.find? ['-', letter] with
      | none => .error .refused
      | some entry => do
        let value := if rest.isEmpty then none else some rest
        let (others, count) ← written? g following (isShortName entry.1) entry.2 value
        return ((current, []) :: others, count)
    else .error .refused
termination_by value => (value.getD []).length
decreasing_by
  split <;> simp_all

/-- Applies switches in order. -/
def applyAll (switches : List (Switch σ × List String)) (settings : σ) : Except Stop σ :=
  switches.foldlM (fun settings (s, arguments) => s.apply (given arguments) settings) settings

/-- Takes the switch at the front of the line, with its arguments from the `rest`. -/
def takeSwitch (g : Grammar σ) (p : Progress σ) (written : SwitchUse σ)
    (rest : List (String × Mark σ)) : Except Stop (Progress σ) := do
  let (switches, count) ← g.written? rest written.isShort written.switch written.value
  let settings ← applyAll switches p.settings
  return { p with line := rest.drop count, settings := settings }

/-! ## Working off a line -/

/-- Works off a line in at most `count` turns. As long as a switch is ahead, operands before
it are taken, or left over if none is expected, and then the switch itself. -/
def runUpTo (g : Grammar σ) : Nat → Progress σ → Except Stop (Progress σ)
  | 0, p => .ok p
  | count + 1, p =>
    if p.line.any fun a => isSwitch a.2 then
      match p.line with
      | (_, .switch written) :: rest =>
        match takeSwitch g p written rest with
        | .ok p => runUpTo g count p
        | .error stop => .error stop
      | (_, .unknown) :: rest => runUpTo g count { p with line := rest, hasExtras := true }
      | line =>
        match takeOperands line p.hasExtras p.operands p.settings with
        | .error stop => .error stop
        | .ok after =>
          if after.line.length < line.length then runUpTo g count after
          else
            runUpTo g count
              { after with line := line.dropWhile fun a => !isSwitch a.2, hasExtras := true }
    else
      match takeOperands p.line p.hasExtras p.operands p.settings with
      | .error stop => .error stop
      | .ok after =>
        .ok { after with line := [], hasExtras := after.hasExtras || !after.line.isEmpty }

/-- Works off a command line. Answers the settings, and whether some argument found no place.
A missing operand is refused. Each turn takes an argument, or ends the line. -/
def run (g : Grammar σ) (arguments : List String) (settings : σ) : Except Stop (σ × Bool) := do
  let line ← g.marked? arguments
  let p ← runUpTo g (line.length + 1) ⟨line, g.operands, settings, false⟩
  if p.operands.isEmpty then return (p.settings, p.hasExtras) else throw .refused

end Grammar

end Confinement
