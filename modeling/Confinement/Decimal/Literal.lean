import Confinement.Decimal.Basic
import Confinement.Text.Digit
import Confinement.Text.Space
import Confinement.Text.Case

/-!
# Reading numbers

A number is written as an optional sign and then either `inf`, `infinity` or `nan` in any
case, or digits with an optional point and an optional exponent : at least one digit before
or after the point, and at least one in the exponent. An underscore may stand between two
digits, digits of any script count, and white space around the number is skipped.
-/

namespace Confinement

namespace Decimal

/-- A character of a number with digits of all scripts brought to ASCII. -/
def plainDigit (c : Char) : Char :=
  match Text.digitValue? c with
  | some value => Nat.digitChar value
  | none => c

/-- The characters without the underscores between digits, or nothing where an underscore
stands elsewhere. `afterDigit` tells whether the character before was a digit. -/
def dropUnderscores : Bool → List Char → Option (List Char)
  | _, [] => some []
  | afterDigit, '_' :: rest =>
    if afterDigit && (rest.head?.any Char.isDigit) then dropUnderscores false rest else none
  | _, c :: rest => (dropUnderscores c.isDigit rest).map (c :: ·)

/-- The sign in front, and the rest. -/
def takeSign : List Char → Bool × List Char
  | '-' :: rest => (true, rest)
  | '+' :: rest => (false, rest)
  | rest => (false, rest)

/-- The whole number that ASCII digits write. -/
def ofDigits (cs : List Char) : Nat :=
  cs.foldl (fun n c => 10 * n + (c.toNat - '0'.toNat)) 0

/-- The exponent after the mark `e`, or zero where the text ends. -/
def exponent? : List Char → Option Int
  | [] => some 0
  | mark :: rest =>
    if mark = 'e' || mark = 'E' then
      let (negative, digits) := takeSign rest
      if digits.isEmpty || !digits.all Char.isDigit then none
      else some (if negative then -(ofDigits digits : Int) else ofDigits digits)
    else none

/-- An unsigned decimal : digits, a point and digits, an exponent. -/
def unsigned? (cs : List Char) : Option Decimal :=
  let whole := cs.takeWhile Char.isDigit
  let rest := cs.dropWhile Char.isDigit
  let fractional :=
    match rest with
    | '.' :: more => (more.takeWhile Char.isDigit, more.dropWhile Char.isDigit)
    | more => ([], more)
  if whole.isEmpty && fractional.1.isEmpty then none
  else
    (exponent? fractional.2).map fun e =>
      ⟨ofDigits (whole ++ fractional.1), e - fractional.1.length⟩

/-- The double that a text writes. -/
def read? (s : String) : Option Float :=
  let trimmed := Text.trimBy Text.isBlank s.toList
  match dropUnderscores false (trimmed.map plainDigit) with
  | none => none
  | some cs =>
    let (negative, body) := takeSign cs
    let word := Text.lower (String.ofList body)
    if word = "inf" || word = "infinity" then
      some (if negative then -(1.0 / 0.0) else 1.0 / 0.0)
    else if word = "nan" then some (0.0 / 0.0)
    else (unsigned? body).map (toFloat negative)

end Decimal

end Confinement
