import Confinement.Arithmetic
import Confinement.Decimal.Shortest
import Confinement.Decimal.Layout

/-!
# Numbers of the running program

A grid line is a whole number of any size, a pointer position a double. They meet in one
type, `Number`. A whole number stays one as long as only whole numbers are combined; as
soon as a double takes part, it becomes the double nearest to it, or fails when it lies
beyond the range. Comparisons convert nothing : a whole number and a double are compared
as the numbers they are.
-/

namespace Confinement

/-- A whole number of any size, or a double. -/
inductive Number where
  /-- A whole number. -/
  | int (value : Int)
  /-- A double. -/
  | real (value : Float)

namespace Number

/-- The double nearest to a whole number. -/
def floatOfInt (i : Int) : Except ArithmeticError Float :=
  match Binary.round? (decide (i < 0)) i.natAbs 1 with
  | some x => .ok x
  | none => .error .beyondRange

/-- The number as a double. -/
def toFloat : Number → Except ArithmeticError Float
  | .int i => floatOfInt i
  | .real x => .ok x

/-! ## Comparison -/

/-- Equality of the two numbers. A double that is not a number equals nothing. -/
def eq : Number → Number → Bool
  | .int a, .int b => decide (a = b)
  | .int a, .real y => (Binary.ofFloat y).equalsInt a
  | .real x, .int b => (Binary.ofFloat x).equalsInt b
  | .real x, .real y => x == y

/-- Strictly less. A double that is not a number is less than nothing, nor is anything
less than it. -/
def lt : Number → Number → Bool
  | .int a, .int b => decide (a < b)
  | .int a, .real y => (Binary.ofFloat y).greaterInt a
  | .real x, .int b => (Binary.ofFloat x).lessInt b
  | .real x, .real y => decide (x < y)

/-- Less or equal. -/
def le (a b : Number) : Bool :=
  lt a b || eq a b

/-! ## Arithmetic -/

/-- An operation that has one meaning on whole numbers and another on doubles. -/
def combine (onInts : Int → Int → Int) (onFloats : Float → Float → Float) :
    Number → Number → Except ArithmeticError Number
  | .int a, .int b => .ok (.int (onInts a b))
  | a, b => do
    let x ← a.toFloat
    let y ← b.toFloat
    return .real (onFloats x y)

/-- The quotient, always a double. -/
def div (a b : Number) : Except ArithmeticError Number := do
  let x ← a.toFloat
  let y ← b.toFloat
  if y == 0 then throw .divisionByZero
  return .real (x / y)

/-- The greatest whole number not above the number. -/
def floor : Number → Except ArithmeticError Int
  | .int i => .ok i
  | .real x =>
    match Binary.ofFloat x with
    | .nan => .error .floorOfNaN
    | .infinity _ => .error .floorOfInfinity
    | .finite negative m e => .ok (Binary.floor negative m e)

/-- Whether the number is one, short of infinity. -/
def isFinite : Number → Bool
  | .int _ => true
  | .real x => x.isFinite

/-! ## Text -/

/-- Numbers are written with the fewest digits that read back, positionally from 0.0001 to
below 10 ^ 16. -/
def plain : Decimal.Layout :=
  ⟨-4, 16, true⟩

/-- In listings, numbers are rounded to six significant digits and written positionally from
0.0001 to below a million. -/
def brief : Decimal.Layout :=
  ⟨-4, 6, false⟩

/-- The text of a double in a layout, with the digits that `select` chooses. -/
def floatText (layout : Decimal.Layout) (select : Nat → Int → Decimal) (x : Float) : String :=
  match Binary.ofFloat x with
  | .nan => "nan"
  | .infinity negative => if negative then "-inf" else "inf"
  | .finite negative m e => layout.text negative (if m = 0 then ⟨0, 0⟩ else select m e)

/-- The text of a double that reads back to it. -/
def textOfFloat (x : Float) : String :=
  floatText plain (Decimal.shortest x.abs.toBits) x

/-- The text of a number : a whole number with all its digits, a double with as many as it
needs. -/
def text : Number → String
  | .int i => toString i
  | .real x => textOfFloat x

/-- The text of a number in a listing. Whole numbers are listed as doubles. -/
def briefText (a : Number) : Except ArithmeticError String := do
  let x ← a.toFloat
  let select := fun m e =>
    let (num, den) := Binary.ratio m e
    Decimal.significant num den 6
  return floatText brief select x

end Number

instance : Scalar Number where
  lt a b := Number.lt a b = true
  le a b := Number.le a b = true
  beq := Number.eq
  ofInt i := .int i
  decLt a b := instDecidableEqBool (Number.lt a b) true
  decLe a b := instDecidableEqBool (Number.le a b) true
  add := Number.combine (fun a b => a + b) (fun x y => x + y)
  text := Number.text
  sub := Number.combine (fun a b => a - b) (fun x y => x - y)
  mul := Number.combine (fun a b => a * b) (fun x y => x * y)
  div := Number.div
  floor := Number.floor
  isFinite := Number.isFinite
  zero := .real 0.0
  wireStep := .real 0.00390625

end Confinement
