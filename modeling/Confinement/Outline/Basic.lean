import Confinement.Geometry.Border
import Confinement.Region.Basic

/-!
# Outlines and rows

The outline of a region is the list of the borders around it. A region in banded form is read
row by row (`rowsOf`). Every box of a row has a left and a right side, and a top and a bottom
edge; a top or left border blocks motion out of the first row or column, a bottom or right
border lies one past the last. A side at a column that is not a number is no border, nor is an
edge at such a row, so sides and edges are checked (`Border.checked?`). Only a row under a gap
whose top is not a number is given no top edges to begin with (`Row.roof`), and its region may
still have an outline.
-/

namespace Confinement

/-- Borders, in the order in which they are searched. -/
abbrev Outline (α : Type) := List (Border α)

namespace Outline

/-- An outline in another type of coordinates. -/
def lift {κ α : Type} [Lift κ α] (outline : Outline κ) : Outline α :=
  outline.map fun b => b.map Lift.lift

end Outline

namespace Border

variable {κ : Type}

/-- The border along the top of row `y`, from column `left` to before `right`. -/
def horizontal (left right y : κ) (blocked : Direction) : Border κ :=
  ⟨⟨⟨left, y⟩, ⟨right, y⟩⟩, Directions.only blocked⟩

/-- The border along the left of column `x`, from row `top` to before `bottom`. -/
def vertical (x top bottom : κ) (blocked : Direction) : Border κ :=
  ⟨⟨⟨x, top⟩, ⟨x, bottom⟩⟩, Directions.only blocked⟩

/-- Fails with the first border that is slanted or a single point. -/
def checked? [Coordinate κ] (borders : List (Border κ)) :
    Except (SkewBorder κ) (List (Border κ)) :=
  borders.mapM fun b => Border.ofSegment? b.line b.blocks

theorem checked?_eq_ok [Coordinate κ] {borders : List (Border κ)}
    (h : ∀ b ∈ borders, ofSegment? b.line b.blocks = .ok b) :
    checked? borders = .ok borders := by
  induction borders with
  | nil => rfl
  | cons b rest ih =>
    have hb := h b List.mem_cons_self
    have hrest : checked? rest = .ok rest := ih fun b hb => h b (List.mem_cons_of_mem _ hb)
    unfold checked? at hrest
    simp [checked?, List.mapM_cons, hb, hrest, bind, Except.bind, pure, Except.pure]

end Border

/-- Boxes side by side, with the same top. -/
abbrev Row (κ : Type) [Coordinate κ] := List (Box κ)

variable {κ : Type} [Coordinate κ]

/-- The runs of boxes with the same top. -/
def rowsOf (boxes : List (Box κ)) : List (Row κ) :=
  boxes.splitBy fun a b => a.top == b.top

namespace Row

/-- The top edges of a row. -/
def tops (row : Row κ) : List (Border κ) :=
  row.map fun b => Border.horizontal b.left b.right b.top .up

/-- The top edges of a row under a gap. There are none at a top that is not a number, as it does
not even equal itself. -/
def roof (row : Row κ) : List (Border κ) :=
  match row with
  | [] => []
  | b :: _ => if b.top == b.top then row.tops else []

theorem roof_eq_tops [ReflBEq κ] (row : Row κ) : row.roof = row.tops := by
  cases row with
  | nil => rfl
  | cons b rest => exact if_pos (beq_self_eq_true b.top)

/-- The bottom edges of a row. -/
def bottoms (row : Row κ) : List (Border κ) :=
  row.map fun b => Border.horizontal b.left b.right b.bottom .down

/-- The left and the right side of every box of a row. -/
def sides (row : Row κ) : List (Border κ) :=
  row.flatMap fun b =>
    [Border.vertical b.left b.top b.bottom .left, Border.vertical b.right b.top b.bottom .right]

end Row

end Confinement
