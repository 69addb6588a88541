/-!
# Directions of motion

A pointer moves along two axes, x to the right and y downwards. A border lets some of the
four directions through and blocks others, so sets of directions (`Directions`) are combined
and restricted to one axis. The number of a set adds up one bit per direction.
-/

namespace Confinement

/-- An axis of the plane. -/
inductive Axis where
  /-- Left and right. -/
  | x
  /-- Up and down. -/
  | y
  deriving DecidableEq, Repr

/-- One of the four directions, on a plane whose y grows downwards. -/
inductive Direction where
  /-- Growing x. -/
  | right
  /-- Growing y. -/
  | down
  /-- Falling x. -/
  | left
  /-- Falling y. -/
  | up
  deriving DecidableEq, Repr

namespace Direction

/-- The axis a direction runs along. -/
def axis : Direction → Axis
  | .right => .x
  | .left => .x
  | .down => .y
  | .up => .y

/-- The bit of a direction in the number of a set. -/
def bit : Direction → Nat
  | .right => 1
  | .down => 2
  | .left => 4
  | .up => 8

/-- The sign and axis of a direction. -/
def label : Direction → String
  | .right => "+X"
  | .left => "-X"
  | .down => "+Y"
  | .up => "-Y"

end Direction

/-- A set of directions. -/
structure Directions where
  /-- Whether growing x is in the set. -/
  right : Bool := false
  /-- Whether growing y is in the set. -/
  down : Bool := false
  /-- Whether falling x is in the set. -/
  left : Bool := false
  /-- Whether falling y is in the set. -/
  up : Bool := false
  deriving DecidableEq, Repr

namespace Directions

/-- The empty set. -/
def empty : Directions := ⟨false, false, false, false⟩

/-- The set of one direction. -/
def only : Direction → Directions
  | .right => ⟨true, false, false, false⟩
  | .down => ⟨false, true, false, false⟩
  | .left => ⟨false, false, true, false⟩
  | .up => ⟨false, false, false, true⟩

/-- Whether a direction is in the set. -/
def contains (s : Directions) : Direction → Bool
  | .right => s.right
  | .down => s.down
  | .left => s.left
  | .up => s.up

/-- The directions that are in both sets. -/
def inter (s t : Directions) : Directions :=
  ⟨s.right && t.right, s.down && t.down, s.left && t.left, s.up && t.up⟩

/-- The directions that are not in the set. -/
def compl (s : Directions) : Directions :=
  ⟨!s.right, !s.down, !s.left, !s.up⟩

/-- The directions of the set on one axis. -/
def along (s : Directions) : Axis → Directions
  | .x => ⟨s.right, false, s.left, false⟩
  | .y => ⟨false, s.down, false, s.up⟩

/-- The set without the directions on one axis. -/
def without (s : Directions) : Axis → Directions
  | .x => ⟨false, s.down, false, s.up⟩
  | .y => ⟨s.right, false, s.left, false⟩

/-- Whether the set has no direction. -/
def isEmpty (s : Directions) : Bool :=
  !(s.right || s.down || s.left || s.up)

/-- How many directions the set has. -/
def size (s : Directions) : Nat :=
  s.right.toNat + s.down.toNat + s.left.toNat + s.up.toNat

/-- The number of the set. -/
def toNat (s : Directions) : Nat :=
  s.right.toNat + 2 * s.down.toNat + 4 * s.left.toNat + 8 * s.up.toNat

/-- The set with this number. -/
def ofNat (n : Nat) : Directions :=
  ⟨n.testBit 0, n.testBit 1, n.testBit 2, n.testBit 3⟩

@[simp]
theorem ofNat_toNat (s : Directions) : ofNat s.toNat = s := by
  obtain ⟨_ | _, _ | _, _ | _, _ | _⟩ := s <;> rfl

@[simp]
theorem contains_inter (s t : Directions) (d : Direction) :
    (s.inter t).contains d = (s.contains d && t.contains d) := by
  cases d <;> rfl

@[simp]
theorem contains_along (s : Directions) (axis : Axis) (d : Direction) :
    (s.along axis).contains d = (s.contains d && decide (d.axis = axis)) := by
  cases axis <;> cases d <;> simp [along, contains, Direction.axis]

@[simp]
theorem contains_without (s : Directions) (axis : Axis) (d : Direction) :
    (s.without axis).contains d = (s.contains d && decide (d.axis ≠ axis)) := by
  cases axis <;> cases d <;> simp [without, contains, Direction.axis]

/-- A set is not empty if and only if it has a direction. -/
theorem isEmpty_eq_false_iff {s : Directions} :
    s.isEmpty = false ↔ ∃ d, s.contains d = true := by
  constructor
  · intro h
    simp only [isEmpty, Bool.not_eq_false', Bool.or_eq_true] at h
    rcases h with ((h | h) | h) | h
    · exact ⟨.right, h⟩
    · exact ⟨.down, h⟩
    · exact ⟨.left, h⟩
    · exact ⟨.up, h⟩
  · rintro ⟨d, hd⟩
    cases d <;> simp_all only [isEmpty, contains, Bool.true_or, Bool.or_true, Bool.not_true]

/-- Taking away an axis on which the set has a direction leaves fewer directions. -/
theorem size_without_lt {s : Directions} {axis : Axis} (h : (s.along axis).isEmpty = false) :
    (s.without axis).size < s.size := by
  obtain ⟨_ | _, _ | _, _ | _, _ | _⟩ := s <;> cases axis <;> revert h <;> decide

end Directions

end Confinement
