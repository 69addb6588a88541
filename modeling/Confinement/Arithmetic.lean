/-!
# Coordinates and their arithmetic

Regions live on a grid, pointers move between its lines. The geometry is written once over a
type of coordinates : `Coordinate` embeds the whole numbers, compares and adds, `Scalar` has
the rest of the arithmetic. Sums and products may fail, because a grid line can lie beyond
what a machine number holds, so every operation answers in `Except ArithmeticError`.

A coordinate that was written down somewhere need not be a number. Values of different kinds
may have no order, and some have no negative or cannot serve as a key; a type of coordinates
names such faults, and by default has none. What is not a number is neither before nor after
anything, and does not equal itself; but it is identical to itself when it is met again.

Two instances stand here. `Int` is the grid of whole pixels. `Rat` is exact arithmetic : there
only division can fail, at zero.
-/

namespace Confinement

/-! ## Failures -/

/-- The sorts of failures that a caller can tell apart. -/
inductive ErrorSort where
  /-- A value is not an acceptable one. -/
  | value
  /-- A value is of a kind that is not taken. -/
  | kind
  /-- A value of its kind has no member of a name. -/
  | member
  /-- A number is out of range. -/
  | range
  /-- A divisor is zero. -/
  | division
  /-- A list has no entry at a position. -/
  | index
  /-- What the program takes for granted does not hold. -/
  | assertion
  /-- There is nothing at a path. -/
  | missing
  /-- There is a directory at a path. -/
  | directory
  /-- A path leads through a file. -/
  | notDirectory
  /-- A path is refused by the system. -/
  | system
  deriving DecidableEq, Repr

/-- Why an operation on coordinates has no answer. -/
inductive ArithmeticError where
  /-- A whole number lies beyond the range of binary floating point. -/
  | beyondRange
  /-- A position that is not a number lies in no pixel. -/
  | floorOfNaN
  /-- A position at infinity lies in no pixel. -/
  | floorOfInfinity
  /-- The divisor is zero. -/
  | divisionByZero
  /-- Values of these kinds have no order. -/
  | unordered (comparison left right : String)
  /-- Values of these kinds cannot be combined. -/
  | unsupported (operation left right : String)
  /-- A value is joined only to values of its own kind. -/
  | notJoined (left right : String)
  /-- A value of this kind has no negative. -/
  | noNegative (kind : String)
  /-- A value of this kind cannot serve as a key. -/
  | noKey (kind : String)
  /-- A value of this kind is no real number. -/
  | notReal (kind : String)
  deriving DecidableEq, Repr

/-- The wording of each failure. -/
def ArithmeticError.message : ArithmeticError → String
  | .beyondRange => "int too large to convert to float"
  | .floorOfNaN => "cannot convert float NaN to integer"
  | .floorOfInfinity => "cannot convert float infinity to integer"
  | .divisionByZero => "float division by zero"
  | .unordered comparison left right =>
    s!"'{comparison}' not supported between instances of '{left}' and '{right}'"
  | .unsupported operation left right =>
    s!"unsupported operand type(s) for {operation}: '{left}' and '{right}'"
  | .notJoined left right => s!"can only concatenate {left} (not \"{right}\") to {left}"
  | .noNegative kind => s!"bad operand type for unary -: '{kind}'"
  | .noKey kind => s!"unhashable type: '{kind}'"
  | .notReal kind => s!"must be real number, not {kind}"

/-- The sort of each failure. -/
def ArithmeticError.sort : ArithmeticError → ErrorSort
  | .beyondRange => .range
  | .floorOfNaN => .value
  | .floorOfInfinity => .range
  | .divisionByZero => .division
  | _ => .kind

/-! ## Coordinates -/

/-- A type of coordinates : it holds the whole numbers, is compared and has sums. Nothing is
asked of the comparisons, so that a type whose values need not be comparable fits too. -/
class Coordinate (α : Type) extends LT α, LE α, BEq α where
  /-- The coordinate of a whole number. -/
  ofInt : Int → α
  /-- Strictly before. -/
  decLt : DecidableLT α
  /-- Not after. -/
  decLe : DecidableLE α
  /-- The sum. -/
  add : α → α → Except ArithmeticError α
  /-- Whether two coordinates are equal, or one value met twice. -/
  identical : α → α → Bool := fun a b => a == b
  /-- Why two coordinates have no order, if they have none, in the words of a comparison. -/
  orderFault? : String → α → α → Option ArithmeticError := fun _ _ _ => none
  /-- Why a coordinate has no negative, if it has none. -/
  negativeFault? : α → Option ArithmeticError := fun _ => none
  /-- Why a coordinate cannot serve as a key, if it cannot. -/
  keyFault? : α → Option ArithmeticError := fun _ => none
  /-- The coordinate inside a message. -/
  text : α → String
  /-- The coordinate as a text of its own. -/
  display : α → String := text

namespace Coordinate

variable {α : Type} [Coordinate α]

instance (priority := low) : DecidableLT α :=
  decLt

instance (priority := low) : DecidableLE α :=
  decLe

/-- Whether a coordinate has a place in the order. -/
def isOrdered (a : α) : Bool :=
  decide (a ≤ a)

/-- The second argument where it is strictly greater, else the first. Which of two
incomparable or equal values is taken is part of the rule. -/
def max (a b : α) : α :=
  if a < b then b else a

/-- The second argument where it is strictly smaller, else the first. -/
def min (a b : α) : α :=
  if b < a then b else a

/-- `a` brought to at least `low`, and then to at most `high`. -/
def clamp (a low high : α) : α :=
  min (max a low) high

/-! ### Faults -/

/-- Fails with a fault, if there is one. -/
def refuse? : Option ArithmeticError → Except ArithmeticError Unit
  | some e => .error e
  | none => .ok ()

/-- Whether `a` is strictly before `b`, which must be comparable. -/
def before? (a b : α) : Except ArithmeticError Bool := do
  refuse? (orderFault? "<" a b)
  return decide (a < b)

/-- Whether in every pair the first coordinate is strictly before the second. The pairs are
looked at in order, up to the first in which it is not. -/
def allBefore? : List (α × α) → Except ArithmeticError Bool
  | [] => .ok true
  | (a, b) :: rest => do
    if ← before? a b then allBefore? rest else return false

/-- `clamp` of coordinates that must be comparable. -/
def clamp? (a low high : α) : Except ArithmeticError α := do
  refuse? (orderFault? ">" low a)
  refuse? (orderFault? "<" high (max a low))
  return clamp a low high

end Coordinate

instance : Coordinate Int where
  toLT := Int.instLTInt
  toLE := Int.instLEInt
  toBEq := instBEqOfDecidableEq
  ofInt i := i
  decLt := Int.decLt
  decLe := Int.decLe
  add a b := .ok (Int.add a b)
  text i := Int.repr i

/-- Every whole number has a place in the order. -/
theorem Coordinate.isOrdered_int (a : Int) : Coordinate.isOrdered a = true := by
  simp [Coordinate.isOrdered]

/-! ## Scalars -/

/-- Coordinates that can be computed with. -/
class Scalar (α : Type) extends Coordinate α where
  /-- The difference. -/
  sub : α → α → Except ArithmeticError α
  /-- The product. -/
  mul : α → α → Except ArithmeticError α
  /-- The quotient. -/
  div : α → α → Except ArithmeticError α
  /-- The pixel row or column that holds the coordinate. -/
  floor : α → Except ArithmeticError Int
  /-- Whether the coordinate is a number short of infinity. -/
  isFinite : α → Bool
  /-- The distance nothing is apart. -/
  zero : α
  /-- One 256th, the finest step of a coordinate sent as 24.8 fixed point. -/
  wireStep : α

/-- The text of a quotient of whole numbers. -/
def textOfRat (a : Rat) : String :=
  if a.den = 1 then Int.repr a.num else Int.repr a.num ++ "/" ++ Nat.repr a.den

/-- Exact arithmetic. -/
instance : Scalar Rat where
  toLT := Rat.instLT
  toLE := Rat.instLE
  toBEq := instBEqOfDecidableEq
  ofInt i := (i : Rat)
  decLt := Rat.instDecidableLt
  decLe := Rat.instDecidableLe
  add a b := .ok (Rat.add a b)
  text := textOfRat
  sub a b := .ok (Rat.sub a b)
  mul a b := .ok (Rat.mul a b)
  div a b := if b = 0 then .error .divisionByZero else .ok (Rat.div a b)
  floor a := .ok (Rat.floor a)
  isFinite _ := true
  zero := 0
  wireStep := mkRat 1 256

/-! ## From one type of coordinates to another -/

/-- Coordinates of one type that stand for coordinates of another. -/
class Lift (κ α : Type) where
  /-- The coordinate in the other type. -/
  lift : κ → α

/-- Whole numbers stand for coordinates of any type. -/
instance {α : Type} [Coordinate α] : Lift Int α where
  lift := Coordinate.ofInt

end Confinement
