import Confinement.Region.Banding
import Confinement.Region.RowMajor

/-!
# Regions

A region is a set of positions, kept as boxes in banded form : rows of boxes with the same top
and bottom, the boxes of a row from left to right with gaps between them, rows from top to
bottom, and no two touching rows with the same columns. `Region.ofBoxes?` takes boxes in the
order of delivery, `Region.ofRectangles?` rectangles in any order; both bring them into that
form. A region may also be put together from boxes as they are.
-/

namespace Confinement

/-- A rectangle by its first position and its size. -/
structure Rectangle (κ : Type) where
  /-- The first column. -/
  x : κ
  /-- The first row. -/
  y : κ
  /-- How many columns it has. -/
  width : κ
  /-- How many rows it has. -/
  height : κ
  deriving DecidableEq, Repr

/-- Why no region can be built. -/
inductive RegionError (κ : Type) [Coordinate κ] where
  /-- The boxes break the order of delivery. -/
  | order (reason : RowMajorError κ)
  /-- A rectangle has a negative size. -/
  | negativeSize (rectangle : Rectangle κ)
  /-- A rectangle has no size or no end that can be computed. -/
  | arithmetic (reason : ArithmeticError)
  /-- There is no box between two corners. -/
  | box (reason : BoxError κ)
  deriving DecidableEq, Repr

variable {κ : Type} [Coordinate κ]

/-- The wording of each failure. -/
def RegionError.message : RegionError κ → String
  | .order reason => reason.message
  | .negativeSize r =>
    let text : κ → String := Coordinate.display
    s!"Rectangle ({text r.x}, {text r.y}, {text r.width}, {text r.height}) has negative size"
  | .arithmetic reason => reason.message
  | .box reason => reason.message

/-- Refuses a rectangle of negative size. The width is looked at first. -/
def Rectangle.checkSize? (r : Rectangle κ) : Except (RegionError κ) Unit := do
  let zero : κ := Coordinate.ofInt 0
  if ← (Coordinate.before? r.width zero).mapError .arithmetic then throw (.negativeSize r)
  if ← (Coordinate.before? r.height zero).mapError .arithmetic then throw (.negativeSize r)

/-- The box of a rectangle, none if the rectangle is empty. -/
def Rectangle.box? (r : Rectangle κ) : Except (RegionError κ) (Option (Box κ)) := do
  r.checkSize?
  if r.width == Coordinate.ofInt 0 || r.height == Coordinate.ofInt 0 then return none
  let right ← (Coordinate.add r.x r.width).mapError .arithmetic
  let bottom ← (Coordinate.add r.y r.height).mapError .arithmetic
  some <$> (Box.ofCorners? r.x r.y right bottom).mapError .box

/-- A set of positions, as boxes. -/
structure Region (κ : Type) [Coordinate κ] where
  /-- The boxes, row by row. -/
  boxes : List (Box κ) := []
  deriving DecidableEq, Repr

namespace Region

/-- The region of boxes in any order. -/
def ofUnordered? (boxes : List (Box κ)) : Except (RegionError κ) (Region κ) :=
  match bandBoxes? boxes with
  | .ok banded => .ok ⟨banded⟩
  | .error reason => .error (.box reason)

/-- The region of boxes in the order of delivery. -/
def ofBoxes? (boxes : List (Box κ)) : Except (RegionError κ) (Region κ) :=
  match rowMajor? boxes with
  | .ok _ => ofUnordered? boxes
  | .error reason => .error (.order reason)

/-- The region of rectangles in any order. Empty rectangles are left out. -/
def ofRectangles? (rectangles : List (Rectangle κ)) : Except (RegionError κ) (Region κ) := do
  let boxes ← rectangles.mapM Rectangle.box?
  ofUnordered? (boxes.filterMap id)

/-- Whether the region has no box. -/
def isEmpty (r : Region κ) : Bool :=
  r.boxes.isEmpty

/-- How many boxes the region has. -/
def size (r : Region κ) : Nat :=
  r.boxes.length

/-- The positions a region covers. -/
def Covers (r : Region κ) (x y : κ) : Prop :=
  ∃ b ∈ r.boxes, b.Covers x y

instance (r : Region κ) (x y : κ) : Decidable (r.Covers x y) :=
  inferInstanceAs (Decidable (∃ b ∈ r.boxes, b.Covers x y))

/-- Whether one of the boxes covers a position. They come row by row, so the search ends at
the first one that starts below the position. -/
def coveredBy? (x y : κ) : List (Box κ) → Except ArithmeticError Bool
  | [] => .ok false
  | b :: rest => do
    Coordinate.refuse? (Coordinate.orderFault? ">" b.top y)
    if y < b.top then return false
    Coordinate.refuse? (Coordinate.orderFault? "<=" b.left x)
    if b.Covers x y then return true else coveredBy? x y rest

/-- Whether the region covers the pixel a point lies in. -/
def contains {α : Type} [Scalar α] (r : Region κ) (p : Point α) : Except ArithmeticError Bool := do
  let x ← Scalar.floor p.x
  let y ← Scalar.floor p.y
  coveredBy? (Coordinate.ofInt x) (Coordinate.ofInt y) r.boxes

/-- The least box around the region, none around the empty one. The rows come from top to
bottom, so its top and bottom are those of the first and the last box. -/
def extents? (r : Region κ) : Except (BoxError κ) (Option (Box κ)) :=
  match r.boxes with
  | [] => .ok none
  | first :: rest =>
    let left := rest.foldl (fun least b => Coordinate.min least b.left) first.left
    let right := rest.foldl (fun greatest b => Coordinate.max greatest b.right) first.right
    some <$> Box.ofCorners? left first.top right (rest.getLastD first).bottom

/-- The region moved by whole pixels. -/
def shift (r : Region Int) (dx dy : Int) : Region Int :=
  ⟨r.boxes.map fun b => b.shift dx dy⟩

end Region

end Confinement
