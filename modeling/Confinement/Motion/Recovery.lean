import Confinement.Motion.Search
import Confinement.Outline.OfRegion

/-!
# Recovering a stray pointer

A pointer found outside the region is moved just inside the nearest border : one step off the
border towards the area, and along the border no nearer than one step to its ends. A pointer
inside stays, and where the region is empty it goes to the origin.
-/

namespace Confinement

/-- Why a pointer cannot be recovered. -/
inductive RecoveryError (κ : Type) where
  /-- A coordinate cannot be computed. -/
  | arithmetic (reason : ArithmeticError)
  /-- No border has a distance to the pointer. -/
  | noBorder
  /-- The region has no outline. -/
  | outline (reason : OutlineError κ)
  deriving DecidableEq, Repr

/-- The wording of each failure. -/
def RecoveryError.message {κ : Type} [Coordinate κ] : RecoveryError κ → String
  | .arithmetic reason => reason.message
  | .noBorder => "non-empty region has an empty outline"
  | .outline reason => reason.message

/-- What becomes of a pointer. -/
inductive Recovery (α : Type) where
  /-- There is no area; the pointer goes to the origin. -/
  | noArea (origin : Point α)
  /-- The pointer is inside and stays. -/
  | inside (position : Point α)
  /-- The pointer is outside and is moved. -/
  | moved (position : Point α)
  deriving DecidableEq, Repr

/-- Where the pointer is to be. -/
def Recovery.position {α : Type} : Recovery α → Point α
  | .noArea p => p
  | .inside p => p
  | .moved p => p

variable {κ α : Type} [Coordinate κ] [Scalar α]

/-- A coordinate one step off a border : before it if the border blocks growing coordinates,
after it otherwise. -/
def Border.stepOff (coordinate step : α) (growing : Bool) : Except ArithmeticError α :=
  if growing then Scalar.sub coordinate step else Coordinate.add coordinate step

/-- The point nearest to `p` that is one step inside a border and one step off its ends. -/
def Border.behind (b : Border α) (p : Point α) (step : α) : Except ArithmeticError (Point α) :=
  let a := b.line.start
  let z := b.line.stop
  if b.isHorizontal then do
    let y ← Border.stepOff a.y step b.blocks.down
    let low ← Coordinate.add a.x step
    let high ← Scalar.sub z.x step
    return ⟨Coordinate.clamp p.x low high, y⟩
  else do
    let x ← Border.stepOff a.x step b.blocks.right
    let low ← Coordinate.add a.y step
    let high ← Scalar.sub z.y step
    return ⟨x, Coordinate.clamp p.y low high⟩

/-- The step by which a pointer is moved inside. With none given the finest one is taken, as a
pointer on a right or bottom border is still outside. -/
def recoveryStep (step : α) : α :=
  if Coordinate.ofInt 0 < step then step else Scalar.wireStep

namespace Outline

/-- The point inside the border nearest to `p`. -/
def moveInside (outline : Outline α) (p : Point α) (step : α) :
    Except (RecoveryError κ) (Point α) :=
  match outline.nearest? p with
  | .error e => .error (.arithmetic e)
  | .ok none => .error .noBorder
  | .ok (some b) => (b.behind p (recoveryStep step)).mapError .arithmetic

end Outline

namespace Region

/-- What becomes of a pointer, by the region and an outline for it; the outline is needed only
where the pointer is outside. -/
def recoverWith (r : Region κ) (outline : Except (OutlineError κ) (Outline α))
    (origin p : Point α) (step : α) : Except (RecoveryError κ) (Recovery α) :=
  if r.isEmpty then .ok (.noArea origin)
  else do
    let relative ← (p.sub origin).mapError .arithmetic
    if ← (r.contains relative).mapError .arithmetic then return .inside p
    let outline ← outline.mapError .outline
    let inside ← outline.moveInside relative step
    let position ← (inside.add origin).mapError .arithmetic
    return .moved position

/-- What becomes of a pointer. -/
def recover [Lift κ α] (r : Region κ) (origin p : Point α) (step : α) :
    Except (RecoveryError κ) (Recovery α) :=
  r.recoverWith ((Outline.ofRegion? r).map Outline.lift) origin p step

end Region

end Confinement
