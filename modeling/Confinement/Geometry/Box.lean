import Confinement.Geometry.Point

/-!
# Boxes

A box is a non-empty rectangle : it covers the columns from `left` to before `right` and the
rows from `top` to before `bottom`. That it does not end where it starts or before is part of
the type; `Box.ofCorners?` checks it. Between whole numbers a box has a column and a row
(`left_lt_right`, `top_lt_bottom`).
-/

namespace Confinement

/-- A non-empty rectangle, without its right and bottom edge. -/
structure Box (κ : Type) [Coordinate κ] where
  /-- The first column. -/
  left : κ
  /-- The first row. -/
  top : κ
  /-- The column after the last. -/
  right : κ
  /-- The row after the last. -/
  bottom : κ
  /-- The columns do not end at the first one or before it. -/
  not_right_le_left : ¬ right ≤ left := by omega
  /-- The rows do not end at the first one or before it. -/
  not_bottom_le_top : ¬ bottom ≤ top := by omega
  deriving DecidableEq, Repr

/-- Why there is no box between two corners. -/
inductive BoxError (κ : Type) where
  /-- The rectangle between them is empty. -/
  | degenerate (left top right bottom : κ)
  /-- They cannot be compared. -/
  | arithmetic (reason : ArithmeticError)
  deriving DecidableEq, Repr

/-- The wording of each failure. -/
def BoxError.message {κ : Type} [Coordinate κ] : BoxError κ → String
  | .degenerate left top right bottom =>
    let text : κ → String := Coordinate.display
    s!"Degenerate box ({text left}, {text top})-({text right}, {text bottom}): " ++
      "requires x1 < x2 and y1 < y2"
  | .arithmetic reason => reason.message

namespace Box

variable {κ : Type} [Coordinate κ]

/-- The box between two corners. The columns are compared first. -/
def ofCorners? (left top right bottom : κ) : Except (BoxError κ) (Box κ) :=
  match Coordinate.orderFault? ">=" left right with
  | some e => .error (.arithmetic e)
  | none =>
    if hx : right ≤ left then .error (.degenerate left top right bottom)
    else
      match Coordinate.orderFault? ">=" top bottom with
      | some e => .error (.arithmetic e)
      | none =>
        if hy : bottom ≤ top then .error (.degenerate left top right bottom)
        else .ok ⟨left, top, right, bottom, hx, hy⟩

/-- Whether a point lies in the box. The right and bottom edge do not belong to it. -/
def contains {α : Type} [Coordinate α] [Lift κ α] (b : Box κ) (p : Point α) : Bool :=
  decide (Lift.lift b.left ≤ p.x ∧ p.x < Lift.lift b.right ∧
    Lift.lift b.top ≤ p.y ∧ p.y < Lift.lift b.bottom)

/-- Whether two boxes overlap. -/
def overlaps (b c : Box κ) : Bool :=
  decide (b.left < c.right ∧ c.left < b.right ∧ b.top < c.bottom ∧ c.top < b.bottom)

/-- Whether two boxes overlap, where their coordinates need not be comparable. -/
def overlaps? (b c : Box κ) : Except ArithmeticError Bool :=
  Coordinate.allBefore?
    [(b.left, c.right), (c.left, b.right), (b.top, c.bottom), (c.top, b.bottom)]

/-- A box in a message. -/
def text (b : Box κ) : String :=
  let text : κ → String := Coordinate.text
  s!"Box(x1={text b.left}, y1={text b.top}, x2={text b.right}, y2={text b.bottom})"

/-- The positions a box covers. -/
def Covers (b : Box κ) (x y : κ) : Prop :=
  b.left ≤ x ∧ x < b.right ∧ b.top ≤ y ∧ y < b.bottom

instance (b : Box κ) (x y : κ) : Decidable (b.Covers x y) :=
  inferInstanceAs (Decidable (b.left ≤ x ∧ x < b.right ∧ b.top ≤ y ∧ y < b.bottom))

/-! ## Boxes of pixels -/

/-- There is a column. -/
theorem left_lt_right (b : Box Int) : b.left < b.right := by
  have := b.not_right_le_left
  omega

/-- There is a row. -/
theorem top_lt_bottom (b : Box Int) : b.top < b.bottom := by
  have := b.not_bottom_le_top
  omega

/-- The box with this first pixel and size. -/
def ofRectangle? (x y width height : Int) : Except (BoxError Int) (Box Int) :=
  ofCorners? x y (x + width) (y + height)

/-- How many columns a box covers. -/
def width (b : Box Int) : Int :=
  b.right - b.left

/-- How many rows a box covers. -/
def height (b : Box Int) : Int :=
  b.bottom - b.top

/-- The box moved by whole pixels. -/
def shift (b : Box Int) (dx dy : Int) : Box Int where
  left := b.left + dx
  top := b.top + dy
  right := b.right + dx
  bottom := b.bottom + dy
  not_right_le_left := by have := b.left_lt_right; omega
  not_bottom_le_top := by have := b.top_lt_bottom; omega

theorem contains_iff (b : Box Int) (p : Point Int) :
    b.contains p = true ↔ b.Covers p.x p.y := by
  simp only [contains, Covers, Lift.lift, Coordinate.ofInt, decide_eq_true_eq]

/-- Whole numbers make a box as soon as the corners are apart. -/
theorem ofCorners?_eq_ok {left top right bottom : Int} (hx : left < right) (hy : top < bottom) :
    ofCorners? left top right bottom = .ok ⟨left, top, right, bottom, by omega, by omega⟩ := by
  have hx : ¬ right ≤ left := by omega
  have hy : ¬ bottom ≤ top := by omega
  simp [ofCorners?, Coordinate.orderFault?, hx, hy]

end Box

end Confinement
