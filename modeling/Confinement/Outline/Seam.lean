import Confinement.Outline.Basic

/-!
# Seams between touching rows

Where one row ends and the next begins, the bottom edges of the upper row and the top edges of
the lower one lie on one line. Columns covered on both sides are open there; what is covered
on one side only stays, as a border of the row it comes from.

`Seam.borders?` sweeps the edges of both rows from left to right with one edge pending. The
next edge lies apart from it, continues it, or overlaps it; an overlap cancels, and what
sticks out to the right on either side is pending next. The sweep checks what it relies on :
that the rows touch, and that edges come in and borders go out from left to right.
-/

namespace Confinement

/-- Why two rows cannot be joined. -/
inductive SeamError where
  /-- One of the rows has no box. -/
  | emptyRow
  /-- The lower row does not start where the upper one ends. -/
  | apart
  /-- An edge starts to the left of the pending one. -/
  | unswept
  /-- A border starts to the left of the one before it. -/
  | unordered
  /-- A column has no negative, by which wider edges would come first. -/
  | arithmetic (reason : ArithmeticError)
  deriving DecidableEq, Repr

/-- The wording of each failure. -/
def SeamError.message : SeamError → String
  | .emptyRow => "list index out of range"
  | .apart => "bands must touch to be merged"
  | .unswept => "band edges must be swept left to right"
  | .unordered => "merge output out of order"
  | .arithmetic reason => reason.message

/-- The sort of each failure. -/
def SeamError.sort : SeamError → ErrorSort
  | .emptyRow => .index
  | .arithmetic reason => reason.sort
  | _ => .assertion

namespace Seam

/-- An edge of one of the two rows, with the direction it blocks. -/
structure Edge (κ : Type) where
  /-- The first column. -/
  left : κ
  /-- The column after the last. -/
  right : κ
  /-- Down for an edge of the upper row, up for one of the lower row. -/
  blocked : Direction
  deriving DecidableEq, Repr

variable {κ : Type} [Coordinate κ]

/-- The bottom edge of a box. -/
def Edge.bottomOf (b : Box κ) : Edge κ :=
  ⟨b.left, b.right, .down⟩

/-- The top edge of a box. -/
def Edge.topOf (b : Box κ) : Edge κ :=
  ⟨b.left, b.right, .up⟩

/-- Edges are swept by their left ends, the wider first where these agree. -/
def Edge.before (a b : Edge κ) : Bool :=
  if Coordinate.identical a.left b.left then decide (b.right < a.right)
  else decide (a.left < b.left)

/-- Whether both ends have a place in the order. -/
def Edge.isOrdered (e : Edge κ) : Bool :=
  Coordinate.isOrdered e.left && Coordinate.isOrdered e.right

/-- The state of the sweep. -/
structure Sweep (κ : Type) where
  /-- The edge whose fate is still open. -/
  pending : Option (Edge κ)
  /-- The borders found, the last one first. -/
  found : List (Border κ)
  deriving DecidableEq, Repr

/-- Adds an edge to the borders found, unless it is empty. -/
def keep (y : κ) (found : List (Border κ)) (e : Edge κ) :
    Except SeamError (List (Border κ)) :=
  if e.left < e.right then
    match found with
    | [] => .ok [Border.horizontal e.left e.right y e.blocked]
    | last :: _ =>
      if last.line.start.x ≤ e.left then
        .ok (Border.horizontal e.left e.right y e.blocked :: found)
      else .error .unordered
  else .ok found

/-- What stays pending of two edges that overlap : the right end of the one that sticks out. -/
def remainder (p e : Edge κ) : Option (Edge κ) :=
  if e.right < p.right then some ⟨e.right, p.right, p.blocked⟩
  else if p.right < e.right then some ⟨p.right, e.right, e.blocked⟩
  else none

/-- Takes in the next edge. -/
def step (y : κ) (sweep : Sweep κ) (e : Edge κ) : Except SeamError (Sweep κ) :=
  match sweep.pending with
  | none => .ok ⟨some e, sweep.found⟩
  | some p =>
    if ¬ p.left ≤ e.left then .error .unswept
    else if e.left == p.right && decide (e.blocked = p.blocked) then
      .ok ⟨some ⟨p.left, e.right, p.blocked⟩, sweep.found⟩
    else if p.right ≤ e.left then do
      let found ← keep y sweep.found p
      return ⟨some e, found⟩
    else do
      let found ← keep y sweep.found ⟨p.left, e.left, p.blocked⟩
      return ⟨remainder p e, found⟩

/-- The edges of the two rows that face each other. -/
def facing (above below : Row κ) : List (Edge κ) :=
  above.map Edge.bottomOf ++ below.map Edge.topOf

/-- The edges in the order of the sweep. -/
def sorted? (edges : List (Edge κ)) : Except SeamError (List (Edge κ)) := do
  edges.forM fun e =>
    (Coordinate.refuse? (Coordinate.negativeFault? e.right)).mapError .arithmetic
  return Sorting.sort Edge.before Edge.isOrdered edges

/-- Sweeps the edges that face each other at `y`. -/
def sweep? (y : κ) (edges : List (Edge κ)) : Except SeamError (List (Border κ)) := do
  let sweep ← edges.foldlM (step y) ⟨none, []⟩
  let found ←
    match sweep.pending with
    | some p => keep y sweep.found p
    | none => .ok sweep.found
  return found.reverse

/-- The borders that remain between two touching rows, from left to right. -/
def borders? (above below : Row κ) : Except SeamError (List (Border κ)) :=
  match above, below with
  | a :: _, b :: _ =>
    if b.top == a.bottom then sorted? (facing above below) >>= sweep? a.bottom
    else .error .apart
  | _, _ => .error .emptyRow

end Seam

end Confinement
