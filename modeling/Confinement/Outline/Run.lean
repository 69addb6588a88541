import Confinement.Outline.Basic

/-!
# Runs of vertical borders

The sides of boxes in touching rows often continue each other. Going through the borders in
order, a vertical border that starts where a run of the same blocking ends lengthens that run
in its place; any other border takes a place of its own. A run is open at its lower end until
another run ends at the same point with the same blocking, which then takes its part.
-/

namespace Confinement

/-- A border in its place, and whether a later one may continue it. -/
structure Run (α : Type) where
  /-- The border so far. -/
  border : Border α
  /-- Whether it is open at its lower end. -/
  isOpen : Bool
  deriving DecidableEq, Repr

/-- Why a vertical border cannot be joined to others. -/
inductive RunError (α : Type) where
  /-- The longer border is slanted, or a single point. -/
  | skew (border : SkewBorder α)
  /-- One of its ends cannot serve as a key : open runs are found by their ends. -/
  | arithmetic (reason : ArithmeticError)
  deriving DecidableEq, Repr

/-- The wording of each failure. -/
def RunError.message {α : Type} [Coordinate α] : RunError α → String
  | .skew border => border.message
  | .arithmetic reason => reason.message

/-- The sort of each failure. -/
def RunError.sort {α : Type} : RunError α → ErrorSort
  | .skew border => border.sort
  | .arithmetic reason => reason.sort

namespace Run

variable {α : Type} [Coordinate α]

/-- Whether the run is open at this point with this blocking. -/
def endsAt (r : Run α) (p : Point α) (blocks : Directions) : Bool :=
  r.isOpen && r.border.line.stop.same p && decide (r.border.blocks = blocks)

/-- The run, closed if it is open at this point with this blocking. -/
def closeAt (p : Point α) (blocks : Directions) (r : Run α) : Run α :=
  if r.endsAt p blocks then ⟨r.border, false⟩ else r

/-- Lengthens the run that is open where `b` starts, if there is one. -/
def lengthen? (b : Border α) : List (Run α) → Except (RunError α) (Option (List (Run α)))
  | [] => .ok none
  | r :: rest =>
    if r.endsAt b.line.start b.blocks then
      match Border.ofSegment? ⟨r.border.line.start, b.line.stop⟩ r.border.blocks with
      | .ok longer => .ok (some (⟨longer, true⟩ :: rest))
      | .error skew => .error (.skew skew)
    else
      match lengthen? b rest with
      | .ok found => .ok (found.map (r :: ·))
      | .error e => .error e

/-- Why a point cannot serve as a key, if it cannot. -/
def keyFault? (p : Point α) : Option ArithmeticError :=
  (Coordinate.keyFault? p.x).or (Coordinate.keyFault? p.y)

/-- Takes in the next vertical border. -/
def stepVertical (runs : List (Run α)) (b : Border α) : Except (RunError α) (List (Run α)) :=
  let others := runs.map (closeAt b.line.stop b.blocks)
  match lengthen? b others with
  | .ok (some longer) => .ok longer
  | .ok none => .ok (others ++ [⟨b, true⟩])
  | .error e => .error e

/-- Takes in the next border. -/
def step (runs : List (Run α)) (b : Border α) : Except (RunError α) (List (Run α)) :=
  if b.isHorizontal then .ok (runs ++ [⟨b, false⟩])
  else
    match keyFault? b.line.start with
    | some e => .error (.arithmetic e)
    | none => stepVertical runs b

/-- The borders with every run of vertical ones joined, each in the place of its first. -/
def join? (borders : List (Border α)) : Except (RunError α) (List (Border α)) :=
  match borders.foldlM step [] with
  | .ok runs => .ok (runs.map Run.border)
  | .error e => .error e

end Run

end Confinement
