import Confinement.Document.Coordinate
import Confinement.Geometry.Border

/-!
# Listings

Points and borders are listed with numbers of six significant digits; other values cannot be
listed. A border is listed with its ends, its kind, and the directions it blocks.
-/

namespace Confinement

namespace Listing

/-- A coordinate in a listing. -/
def coordinate (d : Document) : Except Document.AccessError String :=
  match d.number? with
  | some x => x.briefText.mapError .arithmetic
  | none =>
    match d with
    | .text _ => .error (.notListed d.kind)
    | d => .error (.noForm d.kind)

/-- A point in a listing. -/
def point (p : Point Document) : Except Document.AccessError String := do
  let x ← coordinate p.x
  let y ← coordinate p.y
  return "(" ++ x ++ ", " ++ y ++ ")"

/-- The directions a border blocks, in the order in which they are listed. -/
def blocked (s : Directions) : List Direction :=
  [Direction.right, .left, .down, .up].filter s.contains

/-- The kind of a border, in a column of ten characters. -/
def kind (b : Border Document) : String :=
  if b.isHorizontal then "horizontal" else "vertical  "

/-- A border in a listing. -/
def border (b : Border Document) : Except Document.AccessError String := do
  let start ← point b.line.start
  let stop ← point b.line.stop
  let labels := ",".intercalate ((blocked b.blocks).map Direction.label)
  return start ++ " -> " ++ stop ++ "  " ++ kind b ++ "  blocks " ++ labels

end Listing

end Confinement
