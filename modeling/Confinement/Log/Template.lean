import Confinement.Log.Conversion
import Confinement.Text.Alphanumeric
import Confinement.Text.Case
import Confinement.Text.Digit

/-!
# Templates of log lines

A template is text with fields in it : `%(name)s` stands for the value with that name, and
between the name and the letter there may be flags, a width, a precision and the size of a
machine number, which means nothing. `Template.isValid` asks only that there is one field at
all, by a rule of its own on what a field looks like; `Template.fill?` writes a line, and fails
where the template names no known value or is not well formed.

While a template is filled in, one value may be waiting to be written : the one named last, or
before any name all values together. A field without a name takes it, and so does a star in
the place of a width or a precision.
-/

namespace Confinement

namespace Template

/-! ## What looks like a field -/

/-- Whether a character is a flag. -/
def isFlag (c : Char) : Bool :=
  c == '#' || c == '0' || c == '+' || c == ' ' || c == '-'

/-- Whether a letter says how a value is written, in either case. The capital i with a dot
passes for an i. -/
def isLetter (c : Char) : Bool :=
  "DIOUXEFGCRSA%".toList.contains (Text.capital c) || c.val == 0x130

/-- What follows a size : a star, or digits of any script. -/
def afterSize (cs : List Char) : List Char :=
  match cs with
  | '*' :: rest => rest
  | _ => cs.dropWhile Text.isDigit

/-- What follows a precision, if there is one : a point with a size. -/
def afterPrecision (cs : List Char) : List Char :=
  match cs with
  | '.' :: rest => if (afterSize rest).length < rest.length then afterSize rest else cs
  | _ => cs

/-- Whether a text that comes after a percent sign starts like a field. -/
def startsField (cs : List Char) : Bool :=
  match cs with
  | '(' :: rest =>
    match rest.takeWhile Text.isNamePart, rest.dropWhile Text.isNamePart with
    | _ :: _, ')' :: rest =>
      (afterPrecision (afterSize (rest.dropWhile isFlag))).head?.any isLetter
    | _, _ => false
  | _ => false

/-- Whether some place of the text looks like a field. -/
def hasField : List Char → Bool
  | [] => false
  | '%' :: rest => startsField rest || hasField rest
  | _ :: rest => hasField rest

/-- The template of an empty text : the message alone. -/
def orDefault (s : String) : String :=
  if s.isEmpty then "%(message)s" else s

/-- Whether a text is a template. -/
def isValid (s : String) : Bool :=
  hasField (orDefault s).toList

/-! ## Reading fields -/

/-- The values of a record. -/
structure Values where
  /-- The values by name. -/
  named : List (String × Value)

/-- The value with a name. -/
def Values.find? (values : Values) (name : String) : Option Value :=
  (values.named.find? fun entry => entry.1 == name).map (·.2)

/-- All values together, as a mapping is shown. -/
def Values.together (values : Values) : Value :=
  let entries := values.named.map fun entry => Text.quoted entry.1 ++ ": " ++ entry.2.quoted
  .shown ("\x7b" ++ ", ".intercalate entries ++ "\x7d")

/-- The name up to the parenthesis that closes it, and what follows. Parentheses inside a name
come in pairs, of which `depth` are open. -/
def takeName? : Nat → List Char → Option (List Char × List Char)
  | _, [] => none
  | 0, ')' :: rest => some ([], rest)
  | depth + 1, ')' :: rest => (takeName? depth rest).map fun (name, rest) => (')' :: name, rest)
  | depth, '(' :: rest => (takeName? (depth + 1) rest).map fun (name, rest) => ('(' :: name, rest)
  | depth, c :: rest => (takeName? depth rest).map fun (name, rest) => (c :: name, rest)

/-- The value that waits once the name is read, if there is a name, and what follows it. -/
def takeKey? (values : Values) (waiting : Option Value) (cs : List Char) :
    Option (Option Value × List Char) :=
  match cs with
  | '(' :: rest => do
    let (name, rest) ← takeName? 0 rest
    let value ← values.find? (String.ofList name)
    return (some value, rest)
  | _ => some (waiting, cs)

/-- The number that ASCII digits write, none where there are no digits, and what follows. -/
def takeDigits (cs : List Char) : Option Nat × List Char :=
  let digits := cs.takeWhile Char.isDigit
  (if digits.isEmpty then none
    else some (digits.foldl (fun n c => 10 * n + (c.toNat - '0'.toNat)) 0),
    cs.dropWhile Char.isDigit)

/-- A size at the start of a text, the value that still waits, and what follows. A star takes
the waiting value, which must be a whole number. -/
def takeSize? (waiting : Option Value) (cs : List Char) :
    Option (Option Int × Option Value × List Char) :=
  match cs with
  | '*' :: rest =>
    match waiting with
    | some (.int n) => some (some n, none, rest)
    | _ => none
  | _ =>
    let (n, rest) := takeDigits cs
    some (n.map Int.ofNat, waiting, rest)

/-- A precision at the start of a text, the value that still waits, and what follows. A point
alone means zero, and so does a negative number. -/
def takePrecision? (waiting : Option Value) (cs : List Char) :
    Option (Option Nat × Option Value × List Char) :=
  match cs with
  | '.' :: rest => do
    let (n, waiting, rest) ← takeSize? waiting rest
    return (some (n.getD 0).toNat, waiting, rest)
  | _ => some (none, waiting, cs)

/-- What follows the size of a machine number. -/
def afterMachineSize (cs : List Char) : List Char :=
  match cs with
  | 'h' :: rest => rest
  | 'l' :: rest => rest
  | 'L' :: rest => rest
  | _ => cs

/-- The greatest width, and the greatest precision. -/
def sizeLimits : Nat × Nat :=
  (Nat.pow 2 63 - 1, Nat.pow 2 31 - 1)

/-- The conversion at the start of a text, the value that still waits, and what follows. A
negative width stands for its size with the flag `-`. -/
def takeConversion? (waiting : Option Value) (cs : List Char) :
    Option (Conversion × Option Value × List Char) := do
  let flags := cs.takeWhile isFlag
  let (width, waiting, rest) ← takeSize? waiting (cs.dropWhile isFlag)
  let (precision, waiting, rest) ← takePrecision? waiting rest
  let width := width.getD 0
  if sizeLimits.1 < width.natAbs || sizeLimits.2 < precision.getD 0 then none
  match afterMachineSize rest with
  | [] => none
  | letter :: rest =>
    let flags := if width < 0 then '-' :: flags else flags
    return (⟨flags, width.natAbs, precision, letter⟩, waiting, rest)

/-! ## Filling in -/

/-- Writes the field at the start of a text, which comes after a percent sign. Answers what is
written, the value that still waits, and what follows. A second percent sign writes itself and
takes no value. -/
def writeField? (values : Values) (waiting : Option Value) (cs : List Char) :
    Option (List Char × Option Value × List Char) :=
  match cs with
  | '%' :: rest => some (['%'], waiting, rest)
  | _ => do
    let (waiting, rest) ← takeKey? values waiting cs
    let (conversion, waiting, rest) ← takeConversion? waiting rest
    let written ← conversion.write? (← waiting)
    return (written, none, rest)

/-- Fills in at most `count` characters and fields. -/
def fillUpTo (values : Values) : Nat → Option Value → List Char → Option (List Char)
  | _, _, [] => some []
  | 0, _, _ => none
  | count + 1, waiting, '%' :: rest => do
    let (written, waiting, rest) ← writeField? values waiting rest
    let rest ← fillUpTo values count waiting rest
    return written ++ rest
  | count + 1, waiting, c :: rest => (fillUpTo values count waiting rest).map (c :: ·)

/-- The line of a template with these values. -/
def fill? (template : String) (values : Values) : Option String :=
  let cs := (orDefault template).toList
  (fillUpTo values cs.length (some values.together) cs).map String.ofList

end Template

end Confinement
