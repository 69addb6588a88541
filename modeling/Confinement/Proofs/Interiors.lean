import Confinement.Proofs.Confining

/-!
# Motions in the interior

A point is in the interior of a region if all pixels that it lies in or on the edge of are covered.
The outline of a region is what separates its interior from the rest : the points of the closure
that are not in the interior are those of its borders, the ends of the borders included
(`Outline.Exact.interior_iff`). So no border is left over where bands of different columns join.

A motion that stays in the interior up to its nudged end is therefore never at a border, and ends
where it asks to go (`Region.Built.confine_interior`).
-/

namespace Confinement

/-- Whether all pixels at a point are covered. -/
def Region.Interior (r : Region Int) (p : Point Rat) : Prop :=
  ∀ x y, InPixel x y p → r.Covers x y

theorem Region.Interior.closure {r : Region Int} {p : Point Rat} (h : r.Interior p) :
    r.Closure p :=
  have hpixel : InPixel ⌊p.x⌋ ⌊p.y⌋ p := ⟨inCell_floor p.x, inCell_floor p.y⟩
  (r.closure_iff p).mpr ⟨_, _, h _ _ hpixel, hpixel⟩

/-- A coordinate in two cells can only be in neighbouring ones, and moves on into the second one if
it moves by what they are apart. -/
theorem InCell.next {c c' : Int} {z : Rat} (h : InCell c z) (h' : InCell c' z) :
    c' = c ∨ 0 < z + (c' - c) - z ∧ c' = c + 1 ∨ z + (c' - c) - z < 0 ∧ c' = c - 1 := by
  have hle : c ≤ c' + 1 := by exact_mod_cast h.1.trans h'.2
  have hle' : c' ≤ c + 1 := by exact_mod_cast h'.1.trans h.2
  rw [add_sub_cancel_left, sub_pos, sub_neg, Int.cast_lt, Int.cast_lt]
  omega

namespace Outline.Exact

variable {outline : Outline Int} {r : Region Int} {p : Point Rat}

/-- At a point of a border is a pixel that is not covered. -/
theorem not_interior_of_holds (h : Exact outline r) {b : Border Int} (hb : b ∈ outline)
    (hp : b.Holds p) : ¬r.Interior p := by
  intro hinterior
  rcases h.proper b hb with ⟨hy, hx⟩ | ⟨hx, hy⟩
  · obtain ⟨x, halong, hcell, hline⟩ := b.exists_alongTop hy hx hp
    refine (h.beside_top hb halong).2 (hinterior _ _ ⟨hcell, ?_⟩)
    rw [hline]
    split
    · exact inCell_line _
    · exact inCell_before_line _
  · obtain ⟨y, halong, hline, hcell⟩ := b.exists_alongLeft hx hy hp
    refine (h.beside_left hb halong).2 (hinterior _ _ ⟨?_, hcell⟩)
    rw [hline]
    split
    · exact inCell_line _
    · exact inCell_before_line _

/-- The interior of a region is what its borders leave of its closure. -/
theorem interior_iff (h : Exact outline r) :
    r.Interior p ↔ r.Closure p ∧ ∀ b ∈ outline, ¬b.Holds p := by
  refine ⟨fun hinterior => ⟨hinterior.closure, fun b hb hp =>
    h.not_interior_of_holds hb hp hinterior⟩, ?_⟩
  rintro ⟨hclosure, hfree⟩ x' y' ⟨hx', hy'⟩
  obtain ⟨x, y, hcovers, hx, hy⟩ := (r.closure_iff p).mp hclosure
  -- A motion from the covered pixel to the other one would be blocked if that one were not covered.
  let motion : Segment Rat := ⟨p, ⟨p.x + (x' - x), p.y + (y' - y)⟩⟩
  have hahead : r.Covers x' y' ∨ ∃ b ∈ outline, b.Holds p ∧ b.blocksAny motion.directions = true :=
    h.covers_or_blocked hcovers hx hx' hy hy' (hx.next hx') (hy.next hy')
  refine hahead.resolve_right ?_
  rintro ⟨b, hb, hp, -⟩
  exact hfree b hb hp

end Outline.Exact

/-- A motion that is in the interior of a region that is built up to its nudged end is stopped by no
border, and ends where it asks to go. -/
theorem Region.Built.confine_interior {r : Region Int} (h : r.Built)
    {origin before asked : Point Rat} {step : Rat} (hstep : 0 ≤ step)
    (hinterior : ∀ t, 0 ≤ t → t ≤ 1 →
      r.Interior ((Outline.requested step origin before asked).along t)) (margin : Rat) :
    ∃ outline, Outline.ofRegion? r = .ok outline ∧
      (outline.lift : Outline Rat).confine origin before asked margin step = .ok ⟨asked, []⟩ := by
  obtain ⟨outline, houtline, hexact⟩ := Outline.exists_ofRegion? h.banded
  have hne := hexact.lift_ne_nil (hinterior 0 le_rfl zero_le_one).closure
  refine ⟨outline, houtline, hexact.confine_unhindered hne hstep ?_ margin⟩
  intro t ht ht1 b hb hp
  exact absurd hp ((hexact.interior_iff.mp (hinterior t ht ht1)).2 b hb)

/-- In a cross of two bars, a motion from the left arm into the lower one passes close to the corner
between them, and ends where it asks to go. -/
theorem Region.confine_interior_cross : ∃ r : Region Int,
    ofRectangles? [⟨-3, -1, 6, 2⟩, ⟨-1, -3, 2, 6⟩] = .ok r ∧ (0 : Rat) ≤ 1 / 256 ∧
      (∀ t, 0 ≤ t → t ≤ 1 →
        r.Interior ((Outline.requested (1 / 256) ⟨2, 4⟩ ⟨0, 7 / 2⟩ ⟨5 / 2, 6⟩).along t)) ∧
      ∃ outline, Outline.ofRegion? r = .ok outline ∧
        (outline.lift : Outline Rat).confine ⟨2, 4⟩ ⟨0, 7 / 2⟩ ⟨5 / 2, 6⟩ 3 (1 / 256) =
          .ok ⟨⟨5 / 2, 6⟩, []⟩ := by
  have hsizes : ∀ rect ∈ ([⟨-3, -1, 6, 2⟩, ⟨-1, -3, 2, 6⟩] : List (Rectangle Int)),
      0 ≤ rect.width ∧ 0 ≤ rect.height := by simp
  obtain ⟨r, hr, hcovers⟩ := ofRectangles?_eq_ok hsizes
  have hstep : (0 : Rat) ≤ 1 / 256 := by norm_num
  have hinterior : ∀ t, 0 ≤ t → t ≤ 1 →
      r.Interior ((Outline.requested (1 / 256) ⟨2, 4⟩ ⟨0, 7 / 2⟩ ⟨5 / 2, 6⟩).along t) := by
    rintro t ht ht1 x y ⟨⟨hx, hx'⟩, hy, hy'⟩
    norm_num [Segment.along, Outline.requested, Outline.nudged, Point.relativeTo] at hx hx' hy hy'
    have hleft : -4 < x := by exact_mod_cast (show (-4 : Rat) < x by linarith)
    have hright : x < 1 := by exact_mod_cast (show (x : Rat) < 1 by linarith)
    have htop : -2 < y := by exact_mod_cast (show (-2 : Rat) < y by linarith)
    have hbottom : y < 3 := by exact_mod_cast (show (y : Rat) < 3 by linarith)
    -- The motion goes down as fast as to the right, so below the arm it is in the middle columns.
    have hcorner : y < x + 3 := by exact_mod_cast (show (y : Rat) < x + 3 by linarith)
    rw [hcovers]
    simp only [Rectangle.Covers, List.exists_mem_cons_iff, List.not_mem_nil, false_and,
      exists_false, or_false]
    omega
  exact ⟨r, hr, hstep, hinterior, (Built.ofRectangles hr).confine_interior hstep hinterior 3⟩

end Confinement
