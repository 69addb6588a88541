import Confinement.Geometry.Direction
import Confinement.Geometry.Segment

/-!
# Borders

A border is a horizontal or vertical piece of the edge of an area, with the directions of
motion it blocks. Only directions across it count : a horizontal border never blocks a
motion along the x axis, whatever its set says.
-/

namespace Confinement

/-- A piece of an edge, with the directions it blocks. -/
structure Border (α : Type) where
  /-- Where it lies. -/
  line : Segment α
  /-- The directions it blocks. -/
  blocks : Directions
  deriving DecidableEq, Repr

/-- End points between which there is no horizontal or vertical border : a slanted line or a
single point. -/
structure SkewBorder (α : Type) where
  /-- The line in question. -/
  line : Segment α
  deriving DecidableEq, Repr

/-- A point in a message. -/
def Point.text {α : Type} [Coordinate α] (p : Point α) : String :=
  s!"Point(x={Coordinate.text p.x}, y={Coordinate.text p.y})"

/-- The wording of the refusal. -/
def SkewBorder.message {α : Type} [Coordinate α] (b : SkewBorder α) : String :=
  s!"Border must be strictly horizontal or vertical: {b.line.start.text} -> {b.line.stop.text}"

/-- The sort of the failure. -/
def SkewBorder.sort {α : Type} (_ : SkewBorder α) : ErrorSort :=
  .value

namespace Border

variable {α : Type}

/-- The border with all coordinates mapped. -/
def map {β : Type} (f : α → β) (b : Border α) : Border β :=
  ⟨b.line.map f, b.blocks⟩

section Coordinate

variable [Coordinate α]

/-- The border between two points, which must differ in exactly one coordinate. -/
def ofSegment? (line : Segment α) (blocks : Directions) : Except (SkewBorder α) (Border α) :=
  if (line.start.x == line.stop.x) == (line.start.y == line.stop.y) then .error ⟨line⟩
  else .ok ⟨line, blocks⟩

/-- Whether the border runs along the x axis. -/
def isHorizontal (b : Border α) : Bool :=
  b.line.start.y == b.line.stop.y

/-- The axis across the border, on which it blocks. -/
def axis (b : Border α) : Axis :=
  if b.isHorizontal then .y else .x

/-- Whether the border blocks one of the directions on its own axis. -/
def blocksAny (b : Border α) (directions : Directions) : Bool :=
  !((b.blocks.inter directions).along b.axis).isEmpty

/-- The directions the border lets through. -/
def allowed (b : Border α) : Directions :=
  b.blocks.compl

/-- What a border blocks of a motion are directions across the border. -/
theorem blocksAny_iff {b : Border α} {directions : Directions} :
    b.blocksAny directions = true ↔
      ∃ d : Direction, b.blocks.contains d = true ∧ directions.contains d = true ∧
        d.axis = b.axis := by
  simp only [blocksAny, Bool.not_eq_true', Directions.isEmpty_eq_false_iff,
    Directions.contains_along, Directions.contains_inter, Bool.and_eq_true, decide_eq_true_eq,
    and_assoc]

/-- A blocked motion has a direction on the border's own axis. -/
theorem along_of_blocksAny {b : Border α} {directions : Directions}
    (h : b.blocksAny directions = true) : (directions.along b.axis).isEmpty = false := by
  obtain ⟨d, -, hd, haxis⟩ := blocksAny_iff.mp h
  refine Directions.isEmpty_eq_false_iff.mpr ⟨d, ?_⟩
  rw [Directions.contains_along, hd, decide_eq_true haxis, Bool.and_true]

end Coordinate

/-- The square of the distance from a point to the nearest point of the border. -/
def squaredDistance [Scalar α] (b : Border α) (p : Point α) : Except ArithmeticError α := do
  let a := b.line.start
  let z := b.line.stop
  if b.isHorizontal then
    let x ← Coordinate.clamp? p.x a.x z.x
    Point.squaredDistance ⟨x, a.y⟩ p
  else
    let y ← Coordinate.clamp? p.y a.y z.y
    Point.squaredDistance ⟨a.x, y⟩ p

end Border

namespace Segment

/-- The directions in which a motion goes. A coordinate that stays where it is, or that
cannot be compared, adds none. -/
def directions {α : Type} [Coordinate α] (motion : Segment α) : Directions :=
  let right := decide (motion.start.x < motion.stop.x)
  let down := decide (motion.start.y < motion.stop.y)
  { right := right
    left := !right && decide (motion.stop.x < motion.start.x)
    down := down
    up := !down && decide (motion.stop.y < motion.start.y) }

end Segment

end Confinement
