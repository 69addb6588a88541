import Confinement.Geometry.Box
import Confinement.Region.Span

/-!
# Banding

Boxes in any order, overlapping or not, are brought into banded form. Every top and bottom
edge cuts the plane into slabs (`slabs`); in a slab the boxes that reach across it cover the
union of their columns; slabs that touch and cover the same columns are joined into one band
(`Band.join`). The boxes of the bands, read row by row, cover the same positions as the boxes
given (`bandBoxes?`).

Coordinates that are equal need not look the same. Of equal edges the one met first stands for
all : tops are met before bottoms, and each of them in the order of the boxes.

Edges that are not numbers come last and cut no slab; a box that starts or ends at one reaches
across no slab. Columns that are not numbers stay where sorting puts them. A slab goes on
below another only if their columns are identical, which such columns are if they come from
the same place.
-/

namespace Confinement

/-- Rows that all cover the same columns. -/
structure Band (κ : Type) where
  /-- The first row. -/
  top : κ
  /-- The row after the last. -/
  bottom : κ
  /-- The columns covered, from left to right. -/
  spans : List (Span κ)
  deriving DecidableEq, Repr

namespace Band

variable {κ : Type} [Coordinate κ]

/-- Whether a band goes on below another : it touches it and covers the same columns. -/
def continues (b above : Band κ) : Bool :=
  above.bottom == b.top && above.spans.isEqv b.spans Span.same

/-- Joins each band to the open one above it where it goes on below that. -/
def joinFrom (current : Band κ) : List (Band κ) → List (Band κ)
  | [] => [current]
  | b :: rest =>
    if b.continues current then joinFrom ⟨current.top, b.bottom, b.spans⟩ rest
    else current :: joinFrom b rest

/-- Joins bands that touch and cover the same columns. -/
def join : List (Band κ) → List (Band κ)
  | [] => []
  | b :: rest => joinFrom b rest

/-- The boxes of a band, from left to right. -/
def boxes? (b : Band κ) : Except (BoxError κ) (List (Box κ)) :=
  b.spans.mapM fun s => Box.ofCorners? s.left b.top s.right b.bottom

end Band

variable {κ : Type} [Coordinate κ]

/-- Whether an edge comes before another. One that is not a number comes after those that
are. -/
def edgeBefore (a b : κ) : Bool :=
  decide (a < b) || (Coordinate.isOrdered a && !Coordinate.isOrdered b)

/-- The rows at which a box starts or has ended, each once, in ascending order. -/
def horizontalEdges (boxes : List (Box κ)) : List κ :=
  ((boxes.map Box.top ++ boxes.map Box.bottom).eraseDupsBy Coordinate.identical).mergeSort
    fun a b => !edgeBefore b a

/-- Fails with the first top or bottom that cannot serve as a key : the edges are told apart
as keys. -/
def checkEdges? (boxes : List (Box κ)) : Except ArithmeticError Unit :=
  (boxes.map Box.top ++ boxes.map Box.bottom).forM fun y =>
    Coordinate.refuse? (Coordinate.keyFault? y)

/-- The columns covered by the boxes that reach across the rows from `top` on. The boxes come
in the order of their tops, so the first that does not start at `top` or above ends the
search. No box ends inside a slab, so one that has not ended at its top covers it. -/
def coveredAt (boxes : List (Box κ)) (top : κ) : List (Span κ) :=
  let started := boxes.takeWhile fun b => decide (b.top ≤ top)
  Span.union ((started.filter fun b => decide (top < b.bottom)).map fun b => ⟨b.left, b.right⟩)

/-- The slabs between consecutive edges in which a position is covered. -/
def slabs (boxes : List (Box κ)) : List κ → List (Band κ)
  | top :: bottom :: rest =>
    let spans := coveredAt boxes top
    if spans.isEmpty then slabs boxes (bottom :: rest)
    else ⟨top, bottom, spans⟩ :: slabs boxes (bottom :: rest)
  | _ => []

/-- The boxes in the order of their tops. -/
def byTop (boxes : List (Box κ)) : List (Box κ) :=
  Sorting.sort (fun a b => decide (a.top < b.top)) (fun b => Coordinate.isOrdered b.top) boxes

/-- The bands of the area that boxes cover. -/
def bandsOf (boxes : List (Box κ)) : List (Band κ) :=
  Band.join (slabs (byTop boxes) (horizontalEdges boxes))

/-- The boxes of the area in banded form. -/
def bandBoxes? (boxes : List (Box κ)) : Except (BoxError κ) (List (Box κ)) := do
  (checkEdges? boxes).mapError .arithmetic
  let bands ← (bandsOf boxes).mapM Band.boxes?
  return bands.flatten

end Confinement
