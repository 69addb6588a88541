import Confinement.Geometry.Box

/-!
# The order in which boxes are delivered

Boxes that are handed over as they are must come in rows, from top to bottom and in a row
from left to right, and no two may overlap. `rowMajor?` names the first offence : offences
against the order come before overlaps, and each kind is reported for the earliest box.
-/

namespace Confinement

/-- How a list of boxes breaks the order of delivery. -/
inductive RowMajorError (κ : Type) [Coordinate κ] where
  /-- A box starts above the one before it. -/
  | above (index : Nat) (box before : Box κ)
  /-- A box does not lie to the right of the one before it in its row. -/
  | beside (index : Nat) (box before : Box κ)
  /-- Two boxes overlap. -/
  | overlap (i : Nat) (first : Box κ) (j : Nat) (second : Box κ)
  /-- Two boxes cannot be compared. -/
  | arithmetic (reason : ArithmeticError)
  deriving DecidableEq, Repr

variable {κ : Type} [Coordinate κ]

/-- The wording of each offence. -/
def RowMajorError.message : RowMajorError κ → String
  | .above index box before =>
    s!"Box {index} {box.text} starts above box {index - 1} {before.text}: " ++
      "rows must be ordered top to bottom"
  | .beside index box before =>
    s!"Box {index} {box.text} is not to the right of box {index - 1} {before.text}: " ++
      "boxes within a row must be ordered left to right and disjoint"
  | .overlap i first j second =>
    s!"Box {i} {first.text} overlaps box {j} {second.text}"
  | .arithmetic reason => reason.message

/-- Checks the box number `index` against the one before it. -/
def follows? (index : Nat) (before box : Box κ) : Except (RowMajorError κ) Unit := do
  if ← (Coordinate.before? box.top before.top).mapError .arithmetic then
    throw (.above index box before)
  if box.top == before.top then
    if ← (Coordinate.before? box.left before.right).mapError .arithmetic then
      throw (.beside index box before)

/-- Checks every box against the one before it, from the box number `index` on. -/
def ordered? (index : Nat) (before : Box κ) : List (Box κ) → Except (RowMajorError κ) Unit
  | [] => .ok ()
  | box :: rest => do
    follows? index before box
    ordered? (index + 1) box rest

/-- Checks a box against later ones, from the box number `j` on. The first that starts below
its bottom settles the rest. -/
def apart? (i : Nat) (first : Box κ) (j : Nat) : List (Box κ) → Except (RowMajorError κ) Unit
  | [] => .ok ()
  | second :: rest => do
    (Coordinate.refuse? (Coordinate.orderFault? ">=" second.top first.bottom)).mapError
      .arithmetic
    if first.bottom ≤ second.top then return
    if ← (first.overlaps? second).mapError .arithmetic then throw (.overlap i first j second)
    apart? i first (j + 1) rest

/-- Checks every box against all later ones, from the box number `i` on. -/
def disjoint? (i : Nat) : List (Box κ) → Except (RowMajorError κ) Unit
  | [] => .ok ()
  | first :: rest => do
    apart? i first (i + 1) rest
    disjoint? (i + 1) rest

/-- Checks the order of delivery. -/
def rowMajor? (boxes : List (Box κ)) : Except (RowMajorError κ) Unit := do
  match boxes with
  | [] => pure ()
  | first :: rest => ordered? 1 first rest
  disjoint? 0 boxes

end Confinement
