import Confinement.Motion.Recovery
import Confinement.Motion.Trace
import Confinement.Text.Case

/-!
# Constraints

A constraint keeps a pointer inside a region. It holds the region together with its outline,
the place of both on the screen, the margin kept from right and bottom borders and the step by
which coordinates are resolved. The region has coordinates of its own type `κ`, the pointer
moves in coordinates of type `α`. `Constraint.create?` refuses negative margins and steps;
`Constraint.withBackend?` creates a constraint by the name of its strategy, of which there is
one.
-/

namespace Confinement

/-- A region that confines a pointer. -/
structure Constraint (κ α : Type) [Coordinate κ] where
  /-- The region, relative to the origin. -/
  region : Region κ
  /-- Its outline. -/
  outline : Outline κ
  /-- The position of the region's coordinates. -/
  origin : Point α
  /-- The distance kept from right and bottom borders. -/
  margin : α
  /-- The step by which growing coordinates are nudged and stray pointers moved inside. -/
  step : α
  deriving DecidableEq, Repr

/-- Why there is no constraint. -/
inductive ConstraintError (κ α : Type) where
  /-- The margin is negative. -/
  | negativeMargin (value : α)
  /-- The step is negative. -/
  | negativeStep (value : α)
  /-- The region has no outline. -/
  | outline (reason : OutlineError κ)
  /-- No strategy has this name. -/
  | unsupported (backend : String)
  /-- A value of this kind names no strategy. -/
  | noName (kind : String)
  deriving DecidableEq, Repr

/-- The wording of each failure. -/
def ConstraintError.message {κ α : Type} [Coordinate κ] [Coordinate α] :
    ConstraintError κ α → String
  | .negativeMargin value => s!"min_edge_distance must be >= 0, got {Coordinate.display value}"
  | .negativeStep value => s!"fixed_step must be >= 0, got {Coordinate.display value}"
  | .outline reason => reason.message
  | .unsupported backend =>
    s!"Unsupported constraint backend '{backend}'. Supported: native."
  | .noName kind => s!"'{kind}' object has no attribute 'lower'"

/-- The sort of each failure. -/
def ConstraintError.sort {κ α : Type} : ConstraintError κ α → ErrorSort
  | .outline reason => reason.sort
  | .noName _ => .member
  | _ => .value

namespace Constraint

/-- The name of the strategy that searches the outline. -/
def native : String := "native"

variable {κ α : Type} [Coordinate κ] [Scalar α]

/-- Whether a number is below zero. -/
def isNegative (a : α) : Bool :=
  decide (a < Coordinate.ofInt 0)

/-- A constraint to a region at `origin`. -/
def create? (region : Region κ) (origin : Point α) (margin : α := Scalar.zero)
    (step : α := Scalar.wireStep) : Except (ConstraintError κ α) (Constraint κ α) :=
  if isNegative margin then .error (.negativeMargin margin)
  else if isNegative step then .error (.negativeStep step)
  else
    match Outline.ofRegion? region with
    | .ok outline => .ok ⟨region, outline, origin, margin, step⟩
    | .error reason => .error (.outline reason)

/-- A constraint with the strategy of this name, which is compared without regard to case. -/
def withBackend? (backend : String) (region : Region κ) (origin : Point α) (margin step : α) :
    Except (ConstraintError κ α) (Constraint κ α) :=
  if Text.lower backend = native then create? region origin margin step
  else .error (.unsupported backend)

variable [Lift κ α]

/-- Confines a motion. -/
def trace (c : Constraint κ α) (before asked : Point α) : Except ArithmeticError (Confined α) :=
  c.outline.lift.confine c.origin before asked c.margin c.step

/-- The position a motion may end at. -/
def confine (c : Constraint κ α) (before asked : Point α) : Except ArithmeticError (Point α) :=
  Confined.position <$> c.trace before asked

/-- What becomes of a pointer that may be outside. -/
def recover (c : Constraint κ α) (p : Point α) : Except (RecoveryError κ) (Recovery α) :=
  c.region.recoverWith (.ok c.outline.lift) c.origin p c.step

/-- The position a pointer is to be at. -/
def ensure (c : Constraint κ α) (p : Point α) : Except (RecoveryError κ) (Point α) :=
  Recovery.position <$> c.recover p

/-- The position a pointer has to be warped to, if it is not where it is to be. -/
def correction? (c : Constraint κ α) (p : Point α) :
    Except (RecoveryError κ) (Option (Point α)) := do
  let safe ← c.ensure p
  return if safe.same p then none else some safe

end Constraint

end Confinement
