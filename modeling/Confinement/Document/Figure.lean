import Confinement.Document.Coordinate
import Confinement.Region.Basic

/-!
# Figures

A region file is computed with before its region is built : the end of a rectangle is its
first position and its size together. Where the sum is not a number, it is identical only to
itself, not to what another rectangle ends with. So a figure is a coordinate that remembers
the size it was computed with.
-/

namespace Confinement

/-- A coordinate of a region file. -/
structure Figure where
  /-- The coordinate. -/
  value : Document
  /-- The number of the size that it is or was computed with, if there is one. -/
  size : Option Nat := none

namespace Figure

instance : Coordinate Figure where
  lt a b := a.value < b.value
  le a b := a.value ≤ b.value
  beq a b := a.value == b.value
  ofInt i := ⟨.int i, none⟩
  decLt a b := Coordinate.decLt a.value b.value
  decLe a b := Coordinate.decLe a.value b.value
  add a b := (⟨·, b.size⟩) <$> Coordinate.add a.value b.value
  identical a b :=
    a.value == b.value || (a.size == b.size && Coordinate.identical a.value b.value)
  orderFault? comparison a b := Coordinate.orderFault? comparison a.value b.value
  negativeFault? a := Coordinate.negativeFault? a.value
  keyFault? a := Coordinate.keyFault? a.value
  text a := Coordinate.text a.value
  display a := Coordinate.display a.value

/-- A box with the coordinates alone. -/
def plainBox (b : Box Figure) : Box Document :=
  ⟨b.left.value, b.top.value, b.right.value, b.bottom.value, b.not_right_le_left,
    b.not_bottom_le_top⟩

/-- A region with the coordinates alone. -/
def plain (r : Region Figure) : Region Document :=
  ⟨r.boxes.map plainBox⟩

end Figure

end Confinement
