import Confinement.Geometry.Point

/-!
# Directed segments

A segment runs from one point to another. Two segments meet in at most one point unless they
are parallel, and parallel segments are taken never to meet.
-/

namespace Confinement

/-- A directed straight segment. -/
structure Segment (α : Type) where
  /-- Where it starts. -/
  start : Point α
  /-- Where it ends. -/
  stop : Point α
  deriving DecidableEq, Repr

namespace Segment

variable {α : Type}

/-- The segment with all coordinates mapped. -/
def map {β : Type} (f : α → β) (s : Segment α) : Segment β :=
  ⟨s.start.map f, s.stop.map f⟩

/-- Whether a parameter lies on the segment, its ends included. -/
def holds [Coordinate α] (t : α) : Bool :=
  decide (Coordinate.ofInt 0 ≤ t ∧ t ≤ Coordinate.ofInt 1)

/-- The point where two segments meet. With `p + t r` on this segment and `q + u s` on the
other, both parameters follow from cross products, and the point is taken from this one. -/
def intersection [Scalar α] (a b : Segment α) :
    Except ArithmeticError (Option (Point α)) := do
  let p := a.start
  let q := b.start
  let r ← a.stop.sub p
  let s ← b.stop.sub q
  let area ← r.cross s
  if area == Coordinate.ofInt 0 then return none
  let t ← Scalar.div (← (← q.sub p).cross s) area
  let u ← Scalar.div (← (← p.sub q).cross r) (← s.cross r)
  if holds t && holds u then
    return some (← p.add (← r.scale t))
  else return none

end Segment

end Confinement
