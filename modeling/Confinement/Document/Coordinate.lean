import Confinement.Document.Basic

/-!
# Documents as coordinates

A region may be written down with any values in place of numbers. Numbers and truth values are
coordinates as they stand : they are compared and computed as the numbers they are, and a
result is a number again. Texts are ordered character by character, lists item by item; the
first items that differ decide. Values of different kinds have no order, and there is no
arithmetic but on numbers.

A document has one value that is not a number. As it equals nothing, it is equal to itself
only where it is an item or an entry; there, and as a coordinate met again, it is identical.
-/

namespace Confinement

namespace Document

/-! ## Numbers -/

/-- The number that a number or a truth value stands for. -/
def number? : Document → Option Number
  | .bool value => some (.int (if value then 1 else 0))
  | .int value => some (.int value)
  | .real value => some (.real value)
  | _ => none

/-- A number as a document. -/
def ofNumber : Number → Document
  | .int value => .int value
  | .real value => .real value

/-- An operation on numbers. -/
def compute (operation : Number → Number → Except ArithmeticError Number)
    (otherwise : ArithmeticError) (a b : Document) : Except ArithmeticError Document :=
  match a.number?, b.number? with
  | some x, some y => ofNumber <$> operation x y
  | _, _ => .error otherwise

/-! ## Equality -/

/-- Equality of values that are not made up of others. -/
def sameScalar (a b : Document) : Bool :=
  match a, b with
  | .null, .null => true
  | .text s, .text t => s == t
  | a, b =>
    match a.number?, b.number? with
    | some x, some y => Number.eq x y
    | _, _ => false

/-- Whether two documents are both the value that is not a number. -/
def areNaN : Document → Document → Bool
  | .real x, .real y => x.isNaN && y.isNaN
  | _, _ => false

mutual

/-- Equality of documents : of numbers, whatever they are written as. -/
def same : Document → Document → Bool
  | .list xs, .list ys => sameItems xs ys
  | .mapping xs, .mapping ys => xs.length == ys.length && sameEntries xs ys
  | a, b => sameScalar a b

/-- Equality item by item. -/
def sameItems : List Document → List Document → Bool
  | [], [] => true
  | x :: xs, y :: ys => (same x y || areNaN x y) && sameItems xs ys
  | _, _ => false

/-- Whether every entry has an equal one under its key. -/
def sameEntries : List (String × Document) → List (String × Document) → Bool
  | [], _ => true
  | (key, x) :: rest, ys =>
    (match find? key ys with
      | some y => same x y || areNaN x y
      | none => false) && sameEntries rest ys

end

/-- Whether two documents are equal, or the same value met twice. -/
def identical (a b : Document) : Bool :=
  same a b || areNaN a b

/-! ## Order -/

/-- The order of texts. -/
def charsBefore : List Char → List Char → Bool
  | _, [] => false
  | [], _ :: _ => true
  | a :: as, b :: bs => if a = b then charsBefore as bs else decide (a.toNat < b.toNat)

mutual

/-- Strictly before. -/
def before : Document → Document → Bool
  | .list xs, .list ys => itemsBefore xs ys
  | .text s, .text t => charsBefore s.toList t.toList
  | a, b =>
    match a.number?, b.number? with
    | some x, some y => Number.lt x y
    | _, _ => false

/-- Strictly before by the first items that differ; if none do, the shorter list is. -/
def itemsBefore : List Document → List Document → Bool
  | _, [] => false
  | [], _ :: _ => true
  | x :: xs, y :: ys => if identical x y then itemsBefore xs ys else before x y

end

mutual

/-- Why two documents have no order, in the words of a comparison. -/
def orderFault? (comparison : String) : Document → Document → Option ArithmeticError
  | .list xs, .list ys => itemsFault? comparison xs ys
  | .text _, .text _ => none
  | a, b =>
    if a.number?.isSome && b.number?.isSome then none
    else some (.unordered comparison a.kind b.kind)

/-- Why the first items that differ have no order. -/
def itemsFault? (comparison : String) : List Document → List Document → Option ArithmeticError
  | x :: xs, y :: ys =>
    if identical x y then itemsFault? comparison xs ys else orderFault? comparison x y
  | _, _ => none

end

/-! ## Coordinates -/

/-- The sum of numbers; texts and lists are joined. -/
def add (a b : Document) : Except ArithmeticError Document :=
  match a, b with
  | .text s, .text t => .ok (.text (s ++ t))
  | .list xs, .list ys => .ok (.list (xs ++ ys))
  | .text _, b => .error (.notJoined a.kind b.kind)
  | .list _, b => .error (.notJoined a.kind b.kind)
  | a, b => compute Coordinate.add (.unsupported "+" a.kind b.kind) a b

/-- Why a document has no negative. -/
def negativeFault? (d : Document) : Option ArithmeticError :=
  if d.number?.isSome then none else some (.noNegative d.kind)

/-- Why a document cannot serve as a key. -/
def keyFault? : Document → Option ArithmeticError
  | .list items => some (.noKey (Document.list items).kind)
  | .mapping entries => some (.noKey (Document.mapping entries).kind)
  | _ => none

/-- The pixel that holds a number. -/
def floor? (d : Document) : Except ArithmeticError Int :=
  match d.number? with
  | some x => x.floor
  | none => .error (.notReal d.kind)

instance : Scalar Document where
  lt a b := before a b = true
  le a b := (before a b || same a b) = true
  beq := same
  ofInt i := .int i
  decLt a b := instDecidableEqBool (before a b) true
  decLe a b := instDecidableEqBool (before a b || same a b) true
  add := add
  identical := identical
  orderFault? := orderFault?
  negativeFault? := negativeFault?
  keyFault? := keyFault?
  text := quoted
  display := display
  sub a b := compute Scalar.sub (.unsupported "-" a.kind b.kind) a b
  mul a b := compute Scalar.mul (.unsupported "*" a.kind b.kind) a b
  div a b := compute Scalar.div (.unsupported "/" a.kind b.kind) a b
  floor := floor?
  isFinite d := d.number?.any Number.isFinite
  zero := .real 0.0
  wireStep := .real 0.00390625

/-- A document stands for itself. -/
instance : Lift Document Document where
  lift d := d

end Document

end Confinement
