import Confinement.Outline.Run
import Confinement.Outline.Seam

/-!
# The outline of a region

The rows of a region are walked from top to bottom. Left and right sides always belong to the
outline. Between two rows that touch, the seam remains; where there is a gap, the bottom of
the upper row and the top of the lower one; and the first row has its top, the last its
bottom. Runs of vertical borders are joined at the end.
-/

namespace Confinement

/-- Why no outline can be extracted. -/
inductive OutlineError (κ : Type) where
  /-- A side or an edge of a box is no border. -/
  | skew (border : SkewBorder κ)
  /-- Two rows cannot be joined. -/
  | seam (reason : SeamError)
  /-- Vertical borders cannot be joined. -/
  | run (reason : RunError κ)
  deriving DecidableEq, Repr

/-- Why boxes in the order of delivery have no outline. -/
inductive DeliveryError (κ : Type) [Coordinate κ] where
  /-- The boxes make no region. -/
  | region (reason : RegionError κ)
  /-- The region has no outline. -/
  | outline (reason : OutlineError κ)
  deriving DecidableEq, Repr

variable {κ : Type} [Coordinate κ]

/-- The wording of each failure. -/
def OutlineError.message : OutlineError κ → String
  | .skew border => border.message
  | .seam reason => reason.message
  | .run reason => reason.message

/-- The sort of each failure. -/
def OutlineError.sort {κ : Type} : OutlineError κ → ErrorSort
  | .skew border => border.sort
  | .seam reason => reason.sort
  | .run reason => reason.sort

/-- The wording of each failure. -/
def DeliveryError.message : DeliveryError κ → String
  | .region reason => reason.message
  | .outline reason => reason.message

namespace Outline

/-- Sides or edges of boxes, which must be borders. -/
def checked? (borders : List (Border κ)) : Except (OutlineError κ) (List (Border κ)) :=
  (Border.checked? borders).mapError .skew

/-- The borders between a row and the next one. -/
def between? (above row : Row κ) : Except (OutlineError κ) (List (Border κ)) :=
  match above, row with
  | a :: _, b :: _ =>
    if b.top == a.bottom then (Seam.borders? above row).mapError .seam
    else checked? (above.bottoms ++ row.roof)
  | _, _ => .error (.seam .emptyRow)

/-- The borders of all that lies under a row. -/
def under? (above : Row κ) : List (Row κ) → Except (OutlineError κ) (List (Border κ))
  | [] => checked? above.bottoms
  | row :: rest => do
    let between ← between? above row
    let sides ← checked? row.sides
    let below ← under? row rest
    return between ++ sides ++ below

/-- The borders of rows from top to bottom. -/
def ofRows? : List (Row κ) → Except (OutlineError κ) (List (Border κ))
  | [] => .ok []
  | row :: rest => do
    let top ← checked? (row.roof ++ row.sides)
    let below ← under? row rest
    return top ++ below

/-- The outline of a region. -/
def ofRegion? (r : Region κ) : Except (OutlineError κ) (Outline κ) := do
  let borders ← ofRows? (rowsOf r.boxes)
  (Run.join? borders).mapError .run

/-- The outline of boxes in the order of delivery. -/
def ofBoxes? (boxes : List (Box κ)) : Except (DeliveryError κ) (Outline κ) :=
  match Region.ofBoxes? boxes with
  | .ok r => (ofRegion? r).mapError .outline
  | .error reason => .error (.region reason)

end Outline

end Confinement
