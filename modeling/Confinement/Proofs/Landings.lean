import Confinement.Proofs.Corners

/-!
# Motions over covered pixels

The closure of a region has its right and bottom edge, the region itself does not. A motion that
starts in a pixel that is covered, and is at no border that blocks it, is over covered pixels all
the way (`Outline.Exact.covers_along`). Leaving a point of a covered pixel, it is over a covered
pixel for a while (`Outline.Exact.exists_covers_ahead`). And where it is in a box, it is over a
covered pixel, also at a right or bottom edge of the box if it moves towards that
(`Outline.Exact.covers_of_admits`). The boxes are finitely many, so there is a last moment at which
it is over a covered pixel, and that is the end.
-/

namespace Confinement

/-! ## The next pixel -/

/-- A coordinate that moves is soon in one cell for a while : in the one that starts last before
it, or in the one before that if it falls from a grid line. -/
theorem exists_floor_ahead (z d : Rat) : ∃ c, InCell c z ∧ (c = ⌊z⌋ ∨ d < 0 ∧ c = ⌊z⌋ - 1) ∧
    ∃ ε > 0, ∀ t, 0 < t → t ≤ ε → ⌊z + t * d⌋ = c := by
  have hfloor := Int.floor_le z
  have hnext := Int.lt_floor_add_one z
  rcases le_or_gt 0 d with hd | hd
  · obtain ⟨ε, hε, hahead⟩ := exists_between_ahead ⟨(sub_one_lt _).trans_le hfloor, hnext⟩ d
    refine ⟨⌊z⌋, inCell_floor z, Or.inl rfl, ε, hε, fun t ht hle => Int.floor_eq_iff.mpr ⟨?_, ?_⟩⟩
    · exact hfloor.trans (le_add_of_nonneg_right (mul_nonneg ht.le hd))
    · exact (hahead t ht.le hle).2
  · rcases hfloor.lt_or_eq with hlt | heq
    · obtain ⟨ε, hε, hahead⟩ := exists_between_ahead ⟨hlt, hnext⟩ d
      refine ⟨⌊z⌋, inCell_floor z, Or.inl rfl, ε, hε, fun t ht hle => Int.floor_eq_iff.mpr ?_⟩
      exact ⟨(hahead t ht.le hle).1.le, (hahead t ht.le hle).2⟩
    · obtain ⟨ε, hε, hahead⟩ := exists_between_ahead ⟨(sub_one_lt _).trans_le hfloor, hnext⟩ d
      refine ⟨⌊z⌋ - 1, heq ▸ inCell_before_line _, Or.inr ⟨hd, rfl⟩, ε, hε, fun t ht hle => ?_⟩
      have hfalls := mul_neg_of_pos_of_neg ht hd
      have hbefore := (hahead t ht.le hle).1
      rw [Int.floor_eq_iff]
      push_cast
      constructor <;> linarith

/-! ## Boxes that a motion is in -/

/-- Whether a box holds a point of a motion. Its right and bottom edge belong to it only if the
motion goes there. -/
structure Box.Admits (b : Box Int) (motion : Segment Rat) (p : Point Rat) : Prop where
  closure : b.Closure p
  x_lt : ¬motion.start.x < motion.stop.x → p.x < b.right
  y_lt : ¬motion.start.y < motion.stop.y → p.y < b.bottom

variable {motion : Segment Rat} {p : Point Rat}

theorem Box.admits_of_covers {b : Box Int} (h : b.Covers ⌊p.x⌋ ⌊p.y⌋) : b.Admits motion p := by
  obtain ⟨hleft, hright, htop, hbottom⟩ := h
  have hx : p.x < b.right := Int.floor_lt.mp hright
  have hy : p.y < b.bottom := Int.floor_lt.mp hbottom
  exact ⟨⟨⟨Int.le_floor.mp hleft, hx.le⟩, Int.le_floor.mp htop, hy.le⟩, fun _ => hx, fun _ => hy⟩

/-- A coordinate of a box lies in one of its cells, which is the one that starts last before it,
or the last one of the box if the coordinate is the end of the box and grows. -/
theorem exists_cell_behind {low high : Int} (h : low < high) {z d : Rat}
    (hlow : (low : Rat) ≤ z) (hhigh : z ≤ high) (hlt : ¬0 < d → z < high) :
    ∃ c, (low ≤ c ∧ c < high) ∧ InCell c z ∧ (⌊z⌋ = c ∨ 0 < d ∧ ⌊z⌋ = c + 1) := by
  rcases hhigh.lt_or_eq with hinside | rfl
  · exact ⟨⌊z⌋, ⟨Int.le_floor.mpr hlow, Int.floor_lt.mpr hinside⟩, inCell_floor z, Or.inl rfl⟩
  · refine ⟨high - 1, ⟨by omega, by omega⟩, inCell_before_line high, Or.inr ⟨?_, ?_⟩⟩
    · exact not_not.mp fun hd => lt_irrefl _ (hlt hd)
    · rw [Int.floor_intCast, Int.sub_add_cancel]

namespace Outline.Exact

variable {outline : Outline Int} {r : Region Int}

/-- Where no border blocks a motion, the next pixel in its directions is covered as well. -/
theorem covers_next (h : Exact outline r)
    (hfree : ∀ b ∈ outline, b.Holds p → ¬b.blocksAny motion.directions = true) {x y x' y' : Int}
    (hin : r.Covers x y) (hx : InCell x p.x) (hx' : InCell x' p.x) (hy : InCell y p.y)
    (hy' : InCell y' p.y)
    (hnextx : x' = x ∨ 0 < motion.stop.x - motion.start.x ∧ x' = x + 1 ∨
      motion.stop.x - motion.start.x < 0 ∧ x' = x - 1)
    (hnexty : y' = y ∨ 0 < motion.stop.y - motion.start.y ∧ y' = y + 1 ∨
      motion.stop.y - motion.start.y < 0 ∧ y' = y - 1) : r.Covers x' y' := by
  refine (h.covers_or_blocked hin hx hx' hy hy' hnextx hnexty).resolve_right ?_
  rintro ⟨b, hb, hholds, hblocks⟩
  exact hfree b hb hholds hblocks

/-- A motion that is in a box, and at no border that blocks it, is over a covered pixel. -/
theorem covers_of_admits (h : Exact outline r) {box : Box Int} (hbox : box ∈ r.boxes)
    (hadmits : box.Admits motion p)
    (hfree : ∀ b ∈ outline, b.Holds p → ¬b.blocksAny motion.directions = true) :
    r.Covers ⌊p.x⌋ ⌊p.y⌋ := by
  obtain ⟨⟨⟨hleft, hright⟩, htop, hbottom⟩, hx, hy⟩ := hadmits
  rw [← sub_pos] at hx hy
  obtain ⟨x, ⟨hlow, hhigh⟩, hcellx, hnextx⟩ := exists_cell_behind box.left_lt_right hleft hright hx
  obtain ⟨y, ⟨hlow', hhigh'⟩, hcelly, hnexty⟩ :=
    exists_cell_behind box.top_lt_bottom htop hbottom hy
  exact h.covers_next hfree ⟨box, hbox, hlow, hhigh, hlow', hhigh'⟩
    hcellx (inCell_floor p.x) hcelly (inCell_floor p.y)
    (hnextx.imp_right Or.inl) (hnexty.imp_right Or.inl)

/-- A motion that leaves a point over a covered pixel, and is at no border that blocks it there,
stays over a covered pixel for a while. -/
theorem exists_covers_ahead (h : Exact outline r) {t : Rat}
    (hcovers : r.Covers ⌊(motion.along t).x⌋ ⌊(motion.along t).y⌋)
    (hfree : ∀ b ∈ outline, b.Holds (motion.along t) → ¬b.blocksAny motion.directions = true) :
    ∃ ε > 0, ∀ s, 0 < s → s ≤ ε →
      r.Covers ⌊(motion.along (t + s)).x⌋ ⌊(motion.along (t + s)).y⌋ := by
  obtain ⟨x, hcellx, hnextx, ε, hε, haheadx⟩ :=
    exists_floor_ahead (motion.along t).x (motion.stop.x - motion.start.x)
  obtain ⟨y, hcelly, hnexty, ε', hε', haheady⟩ :=
    exists_floor_ahead (motion.along t).y (motion.stop.y - motion.start.y)
  have hahead := h.covers_next hfree hcovers
    (inCell_floor _) hcellx (inCell_floor _) hcelly
    (hnextx.imp_right Or.inr) (hnexty.imp_right Or.inr)
  refine ⟨ε ⊓ ε', lt_inf_iff.mpr ⟨hε, hε'⟩, fun s hs hle => ?_⟩
  rw [Segment.along_add, haheadx s hs (hle.trans inf_le_left),
    haheady s hs (hle.trans inf_le_right)]
  exact hahead

/-! ## All the way -/

/-- A coordinate that does not grow has been no less before. -/
theorem le_of_not_growing {z d s u : Rat} (hd : ¬0 < d) (hsu : s ≤ u) : z + u * d ≤ z + s * d :=
  add_le_add_right (mul_le_mul_of_nonpos_right hsu (not_lt.mp hd)) z

/-- A motion that starts over a covered pixel, and up to some moment is at no border that blocks
it, is over a covered pixel at that moment. -/
theorem covers_along (h : Exact outline r) {τ : Rat} (hτ : 0 ≤ τ)
    (hstart : r.Covers ⌊motion.start.x⌋ ⌊motion.start.y⌋)
    (hfree : ∀ t, 0 ≤ t → t ≤ τ → ∀ b ∈ outline, b.Holds (motion.along t) →
      ¬b.blocksAny motion.directions = true) :
    r.Covers ⌊(motion.along τ).x⌋ ⌊(motion.along τ).y⌋ := by
  rcases Segment.endsOrNever_boxes r.boxes
    (fun b => ∃ t, 0 ≤ t ∧ t ≤ τ ∧ b.Admits motion (motion.along t)) motion 0 τ with
    hnever | ⟨u, hu, huτ, ⟨b, hb, ⟨s, hs, hsτ, hadmits⟩, hin⟩, hlast⟩
  · obtain ⟨b, hb, hcovers⟩ := hstart
    rw [← motion.along_zero] at hcovers
    have hadmits : b.Admits motion (motion.along 0) := Box.admits_of_covers hcovers
    exact absurd ⟨b, hb, ⟨0, le_rfl, hτ, hadmits⟩, hadmits.closure⟩ (hnever 0 le_rfl hτ)
  · -- A box that admits the motion once still does so at the last moment.
    have hsu : s ≤ u := hlast s hs hsτ ⟨b, hb, ⟨s, hs, hsτ, hadmits⟩, hadmits.closure⟩
    have hadmits' : b.Admits motion (motion.along u) := by
      refine ⟨hin, fun hx => ?_, fun hy => ?_⟩
      · exact (le_of_not_growing (mt sub_pos.mp hx) hsu).trans_lt (hadmits.x_lt hx)
      · exact (le_of_not_growing (mt sub_pos.mp hy) hsu).trans_lt (hadmits.y_lt hy)
    have hcovers := h.covers_of_admits hb hadmits' (hfree u hu huτ)
    rcases huτ.lt_or_eq with hlt | rfl
    · -- From there the motion would stay over covered pixels, and so be in a box later still.
      obtain ⟨ε, hε, hahead⟩ := h.exists_covers_ahead hcovers (hfree u hu huτ)
      have hpos : 0 < ε ⊓ (τ - u) := lt_inf_iff.mpr ⟨hε, sub_pos.mpr hlt⟩
      have hlater : u + ε ⊓ (τ - u) ≤ τ := by linarith [inf_le_right (a := ε) (b := τ - u)]
      obtain ⟨c, hc, hcovers'⟩ := hahead _ hpos inf_le_left
      have hadmits' : c.Admits motion (motion.along (u + ε ⊓ (τ - u))) :=
        Box.admits_of_covers hcovers'
      have hnonneg : 0 ≤ u + ε ⊓ (τ - u) := add_nonneg hu hpos.le
      have hle := hlast _ hnonneg hlater ⟨c, hc, ⟨_, hnonneg, hlater, hadmits'⟩, hadmits'.closure⟩
      exact absurd hle (not_le.mpr (lt_add_of_pos_right u hpos))
    · exact hcovers

end Outline.Exact

end Confinement
