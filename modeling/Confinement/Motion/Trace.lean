import Confinement.Motion.Search

/-!
# Confining a motion

A pointer asks to move from one point to another. As long as the motion hits a border that
blocks it, its end is pinned to that border (`Border.stop`) and the axis across the border is
settled; what is left of the motion is searched again (`Outline.clamp`). With two axes, at
most two borders stop a motion.

Bottom and right borders lie outside the area, so a motion towards them ends a margin short.
Growing coordinates are nudged by a step before the search, lest a motion that ends exactly on
such a border passes it when its coordinates are rounded to that step. A coordinate no border
has changed comes back as it was asked for, without the nudge.
-/

namespace Confinement

/-- Where a motion ends, and the borders that stopped it. -/
structure Confined (α : Type) where
  /-- The position the pointer may move to. -/
  position : Point α
  /-- The borders that stopped the motion, the first one hit first. -/
  stoppedBy : List (Border α)
  deriving DecidableEq, Repr

variable {α : Type} [Scalar α]

/-- The coordinate of a border across it, a margin short of it if motion towards growing
coordinates is still free. -/
def Border.stopAt (coordinate margin : α) (growing : Bool) : Except ArithmeticError α :=
  if growing then Scalar.sub coordinate margin else .ok coordinate

/-- The motion with its end pinned to a border. Along the border the end is kept between the
border's own ends, so that it does not slide past them into the open. -/
def Border.stop (b : Border α) (motion : Segment α) (free : Directions) (margin : α) :
    Except ArithmeticError (Segment α) :=
  let a := b.line.start
  let z := b.line.stop
  if b.isHorizontal then do
    let y ← Border.stopAt a.y margin free.down
    return ⟨motion.start, ⟨Coordinate.clamp motion.stop.x a.x z.x, y⟩⟩
  else do
    let x ← Border.stopAt a.x margin free.right
    return ⟨motion.start, ⟨x, Coordinate.clamp motion.stop.y a.y z.y⟩⟩

namespace Outline

/-- Stops a motion at the borders it hits, one axis at a time. -/
def clamp (outline : Outline α) (margin : α) (motion : Segment α) (free : Directions) :
    Except ArithmeticError (Segment α × List (Border α)) :=
  if free.isEmpty then .ok (motion, [])
  else
    match _h : outline.firstHit? motion free with
    | .error e => .error e
    | .ok none => .ok (motion, [])
    | .ok (some b) =>
      match b.stop motion free margin with
      | .error e => .error e
      | .ok stopped =>
        match outline.clamp margin stopped (free.without b.axis) with
        | .error e => .error e
        | .ok (last, borders) => .ok (last, b :: borders)
termination_by free.size
decreasing_by
  exact Directions.size_without_lt (Border.along_of_blocksAny (blocksAny_of_firstHit? ‹_›))

/-- A coordinate of the motion's end, nudged by a step if it grows. -/
def nudge (step before asked : α) : Except ArithmeticError α := do
  Coordinate.refuse? (Coordinate.orderFault? ">" asked before)
  if before < asked then Coordinate.add asked step else return asked

/-- Confines a motion to the area inside an outline, which lies at `origin`. Where there is
no border at all there is no area, and the pointer goes to the origin. -/
def confine (outline : Outline α) (origin before asked : Point α) (margin step : α) :
    Except ArithmeticError (Confined α) :=
  if outline.isEmpty then .ok ⟨origin, []⟩
  else do
    let x ← nudge step before.x asked.x
    let y ← nudge step before.y asked.y
    let requested ← Point.sub ⟨x, y⟩ origin
    let start ← before.sub origin
    let motion : Segment α := ⟨start, requested⟩
    let (last, borders) ← outline.clamp margin motion motion.directions
    if borders.isEmpty then return ⟨asked, []⟩
    let stopped ← last.stop.add origin
    let position : Point α :=
      ⟨if last.stop.x == requested.x then asked.x else stopped.x,
        if last.stop.y == requested.y then asked.y else stopped.y⟩
    return ⟨position, borders⟩

end Outline

end Confinement
