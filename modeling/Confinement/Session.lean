import Confinement.Constraint

/-!
# Sessions

A session is a constraint together with a pointer that moves under it. A step reads and writes
the session as it goes, and answers or fails (`Session.perform`).

A pointer that was put to the origin is at the origin itself (`PointerPlace`). So where there
is no area it needs no warp, even if the origin is not made of numbers and equals nothing.
-/

namespace Confinement

/-- Where a pointer is. -/
inductive PointerPlace (α : Type) where
  /-- At the origin of the constraint, where it was put. -/
  | origin
  /-- At a position. -/
  | position (position : Point α)
  deriving DecidableEq, Repr

/-- The place of a recovered pointer. -/
def Recovery.place {α : Type} : Recovery α → PointerPlace α
  | .noArea _ => .origin
  | .inside p => .position p
  | .moved p => .position p

/-- A constraint and the pointer under it. -/
structure Session (κ α : Type) [Coordinate κ] where
  /-- The constraint in force. -/
  constraint : Constraint κ α
  /-- Where the pointer is. -/
  place : PointerPlace α
  /-- How often it has been warped. -/
  warps : Nat
  deriving DecidableEq, Repr

/-- What can happen in a session. -/
inductive SessionStep (κ α : Type) [Coordinate κ] where
  /-- A motion is asked about. -/
  | confine (before asked : Point α)
  /-- A position is asked about. -/
  | ensure (position : Point α)
  /-- The region is replaced. -/
  | update (region : Region κ)
  /-- The pointer is put somewhere. -/
  | place (position : Point α)
  /-- The pointer moves by a vector, as far as it may. -/
  | move (vector : Point α)
  /-- The pointer is warped back if it is outside. -/
  | recheck
  deriving DecidableEq, Repr

/-- What a step answers. -/
inductive SessionAnswer (α : Type) where
  /-- Nothing. -/
  | done
  /-- A position. -/
  | position (position : Point α)
  /-- Whether the pointer was warped. -/
  | warped (value : Bool)
  deriving DecidableEq, Repr

/-- Why a step fails. -/
inductive SessionError (κ : Type) where
  /-- A coordinate cannot be computed. -/
  | arithmetic (reason : ArithmeticError)
  /-- The pointer cannot be recovered. -/
  | recovery (reason : RecoveryError κ)
  /-- The new region has no outline. -/
  | outline (reason : OutlineError κ)
  deriving DecidableEq, Repr

/-- The wording of each failure. -/
def SessionError.message {κ : Type} [Coordinate κ] : SessionError κ → String
  | .arithmetic reason => reason.message
  | .recovery reason => reason.message
  | .outline reason => reason.message

namespace Session

variable {κ α : Type} [Coordinate κ] [Scalar α]

/-- A session with a fresh constraint. -/
def start (c : Constraint κ α) (pointer : Point α) : Session κ α :=
  ⟨c, .position pointer, 0⟩

/-- The position of the pointer. -/
def pointer (s : Session κ α) : Point α :=
  match s.place with
  | .origin => s.constraint.origin
  | .position p => p

/-- The place a motion ends at. Where there is no outline, every motion ends at the origin. -/
def endOfMotion (s : Session κ α) (confined : Point α) : PointerPlace α :=
  if s.constraint.outline.isEmpty then .origin else .position confined

/-- Whether the pointer is where it is to be. -/
def isSettled (s : Session κ α) (r : Recovery α) : Bool :=
  match s.place, r with
  | .origin, .noArea _ => true
  | _, r => r.position.same s.pointer

variable [Lift κ α]

/-- What a step does. It reads and writes the session as it goes, and what it has written when it
fails stays written. -/
def perform :
    SessionStep κ α → ExceptT (SessionError κ) (StateM (Session κ α)) (SessionAnswer α)
  | .confine before asked => do
    let s ← get
    let p ← ofExcept ((s.constraint.confine before asked).mapError .arithmetic)
    return .position p
  | .ensure position => do
    let s ← get
    let p ← ofExcept ((s.constraint.ensure position).mapError .recovery)
    return .position p
  | .update region => do
    let outline ← ofExcept ((Outline.ofRegion? region).mapError .outline)
    modify fun s => { s with constraint := { s.constraint with region := region } }
    modify fun s => { s with constraint := { s.constraint with outline := outline } }
    return .done
  | .place position => do
    modify fun s => { s with place := .position position }
    return .done
  | .move vector => do
    let s ← get
    let asked ← ofExcept ((s.pointer.add vector).mapError .arithmetic)
    let p ← ofExcept ((s.constraint.confine s.pointer asked).mapError .arithmetic)
    modify fun s => { s with place := s.endOfMotion p }
    return .position p
  | .recheck => do
    let s ← get
    let r ← ofExcept ((s.constraint.recover s.pointer).mapError .recovery)
    if s.isSettled r then return .warped false
    modify fun s => { s with place := r.place }
    modify fun s => { s with warps := s.warps + 1 }
    return .warped true

/-- The answer of a step and the session after it, if it does not fail. -/
def step (s : Session κ α) (action : SessionStep κ α) :
    Except (SessionError κ) (SessionAnswer α × Session κ α) :=
  match (perform action).run.run s with
  | (.ok answer, after) => .ok (answer, after)
  | (.error e, _) => .error e

/-- The session after a step, whether it fails or not. -/
def next (s : Session κ α) (action : SessionStep κ α) : Session κ α :=
  ((perform action).run.run s).2

/-- The session after steps in order. -/
def run (s : Session κ α) (actions : List (SessionStep κ α)) : Session κ α :=
  actions.foldl next s

end Session

end Confinement
