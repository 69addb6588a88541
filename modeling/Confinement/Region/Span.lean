import Confinement.Arithmetic
import Confinement.Sorting.Natural

/-!
# Spans of columns

A span is a run of columns in one row. `Span.union` joins spans that overlap or touch : it
sorts them and goes through them once, with one span open that the next one either widens
or closes.
-/

namespace Confinement

/-- The columns from `left` to before `right`, none if `right ≤ left`. -/
structure Span (κ : Type) where
  /-- The first column. -/
  left : κ
  /-- The column after the last. -/
  right : κ
  deriving DecidableEq, Repr

namespace Span

variable {κ : Type} [Coordinate κ]

/-- The columns of a span. -/
def Covers (s : Span κ) (x : κ) : Prop :=
  s.left ≤ x ∧ x < s.right

instance (s : Span κ) (x : κ) : Decidable (s.Covers x) :=
  inferInstanceAs (Decidable (s.left ≤ x ∧ x < s.right))

/-- Whether two spans have the same ends. -/
def same (s t : Span κ) : Bool :=
  Coordinate.identical s.left t.left && Coordinate.identical s.right t.right

/-- Spans are sorted by their left ends, and where these agree by their right ends. -/
def before (s t : Span κ) : Bool :=
  if Coordinate.identical s.left t.left then decide (s.right < t.right)
  else decide (s.left < t.left)

/-- Whether both ends have a place in the order. -/
def isOrdered (s : Span κ) : Bool :=
  Coordinate.isOrdered s.left && Coordinate.isOrdered s.right

/-- The span widened to the right end of another, if that lies further right. -/
def widen (s t : Span κ) : Span κ :=
  ⟨s.left, if s.right < t.right then t.right else s.right⟩

/-- Joins sorted spans to the one that is open. -/
def joinFrom (current : Span κ) : List (Span κ) → List (Span κ)
  | [] => [current]
  | s :: rest =>
    if s.left ≤ current.right then joinFrom (current.widen s) rest
    else current :: joinFrom s rest

/-- The spans with overlapping and touching ones joined, from left to right. -/
def union (spans : List (Span κ)) : List (Span κ) :=
  match Sorting.sort before isOrdered spans with
  | [] => []
  | s :: rest => joinFrom s rest

end Span

end Confinement
