import Confinement.Arithmetic

/-!
# Points

A point of the plane, with the arithmetic of vectors on its two coordinates. Each operation
works on x first.
-/

namespace Confinement

/-- A point of the plane, x to the right and y downwards. -/
structure Point (α : Type) where
  /-- Distance to the right. -/
  x : α
  /-- Distance downwards. -/
  y : α
  deriving DecidableEq, Repr

namespace Point

variable {α : Type}

/-- The point with both coordinates mapped. -/
def map {β : Type} (f : α → β) (p : Point α) : Point β :=
  ⟨f p.x, f p.y⟩

/-- Whether two points have the same coordinates. -/
def same [Coordinate α] (p q : Point α) : Bool :=
  p.x == q.x && p.y == q.y

variable [Scalar α]

/-- The sum of two vectors. -/
def add (p q : Point α) : Except ArithmeticError (Point α) := do
  let x ← Coordinate.add p.x q.x
  let y ← Coordinate.add p.y q.y
  return ⟨x, y⟩

/-- The vector from `q` to `p`. -/
def sub (p q : Point α) : Except ArithmeticError (Point α) := do
  let x ← Scalar.sub p.x q.x
  let y ← Scalar.sub p.y q.y
  return ⟨x, y⟩

/-- The vector stretched by a factor. -/
def scale (p : Point α) (factor : α) : Except ArithmeticError (Point α) := do
  let x ← Scalar.mul p.x factor
  let y ← Scalar.mul p.y factor
  return ⟨x, y⟩

/-- The signed area that two vectors span. -/
def cross (p q : Point α) : Except ArithmeticError α := do
  let forward ← Scalar.mul p.x q.y
  let backward ← Scalar.mul p.y q.x
  Scalar.sub forward backward

/-- The square of the distance between two points. -/
def squaredDistance (p q : Point α) : Except ArithmeticError α := do
  let dx ← Scalar.sub p.x q.x
  let dy ← Scalar.sub p.y q.y
  let x ← Scalar.mul dx dx
  let y ← Scalar.mul dy dy
  Coordinate.add x y

end Point

end Confinement
