import Confinement.Proofs.Stops
import Mathlib.Order.Interval.Set.UnorderedInterval

/-!
# The reach of stopped motions

Without a margin, a motion that borders stop neither turns back nor goes beyond the point it was
aimed at : its end lies between its start and that point, in each coordinate
(`Outline.Clamped.between`). A border pins the coordinate across it to where the motion meets the
border, and the one along it no further than the motion was aimed (`Border.Aligned.pin_mem`).

So a confined motion never goes against the direction asked for, nor further than asked
(`Outline.confine_between`). Of the borders nothing is asked but that they run from left to right or
from top to bottom.
-/

namespace Confinement

/-- Whether a point lies between two others, in each coordinate. -/
def Point.Between (p a z : Point Rat) : Prop :=
  p.x ∈ Set.uIcc a.x z.x ∧ p.y ∈ Set.uIcc a.y z.y

theorem Point.Between.trans_right {p q a z : Point Rat} (hp : p.Between a q)
    (hq : q.Between a z) : p.Between a z :=
  ⟨Set.uIcc_subset_uIcc_left hq.1 hp.1, Set.uIcc_subset_uIcc_left hq.2 hp.2⟩

theorem Point.Between.trans_left {p q a z : Point Rat} (hp : p.Between q z)
    (hq : q.Between a z) : p.Between a z :=
  ⟨Set.uIcc_subset_uIcc_right hq.1 hp.1, Set.uIcc_subset_uIcc_right hq.2 hp.2⟩

/-- A coordinate that is clamped to a range comes to lie between where it was and any coordinate
of the range. -/
theorem Coordinate.clamp_mem_uIcc {a low high z : Rat} (h : low ≤ z ∧ z ≤ high) :
    clamp a low high ∈ Set.uIcc z a := by
  rw [clamp_rat]
  rcases le_total z a with hza | haz
  · refine Set.mem_uIcc_of_le (le_inf (hza.trans le_sup_left) h.2) ?_
    exact inf_le_left.trans (sup_le le_rfl (h.1.trans hza))
  · refine Set.mem_uIcc_of_ge (le_inf le_sup_left (haz.trans h.2)) ?_
    exact inf_le_left.trans (sup_le haz h.1)

/-- A coordinate of a range is clamped to itself. -/
theorem Coordinate.clamp_of_mem {a low high : Rat} (h : low ≤ a ∧ a ≤ high) :
    clamp a low high = a := by
  rw [clamp_rat, sup_eq_left.mpr h.1, inf_eq_left.mpr h.2]

namespace Segment

theorem share_mem_uIcc {a z t : Rat} (ht : 0 ≤ t ∧ t ≤ 1) : a + t * (z - a) ∈ Set.uIcc a z := by
  rcases le_total a z with h | h
  · obtain ⟨hlow, hhigh⟩ := share_mem ht h
    exact Set.mem_uIcc_of_le hlow hhigh
  · have hback : a + t * (z - a) = z + (1 - t) * (a - z) := by ring
    obtain ⟨hlow, hhigh⟩ := share_mem ⟨sub_nonneg.mpr ht.2, sub_le_self 1 ht.1⟩ h
    rw [hback]
    exact Set.mem_uIcc_of_ge hlow hhigh

theorem along_between (motion : Segment Rat) {t : Rat} (ht : 0 ≤ t ∧ t ≤ 1) :
    (motion.along t).Between motion.start motion.stop :=
  ⟨share_mem_uIcc ht, share_mem_uIcc ht⟩

end Segment

namespace Border

/-- Whether a border goes from left to right or from top to bottom. -/
structure Aligned (b : Border Rat) : Prop where
  x_le : b.line.start.x ≤ b.line.stop.x
  y_le : b.line.start.y ≤ b.line.stop.y
  x_eq : ¬b.isHorizontal = true → b.line.start.x = b.line.stop.x

theorem Proper.aligned {b : Border Int} (h : b.Proper) :
    (b.map (Lift.lift : Int → Rat)).Aligned := by
  rcases h with ⟨hy, hx⟩ | ⟨hx, hy⟩
  · refine ⟨Int.cast_le.mpr hx.le, Int.cast_le.mpr hy.le, fun hvertical => ?_⟩
    rw [isHorizontal_lift] at hvertical
    exact absurd (beq_iff_eq.mpr hy) hvertical
  · exact ⟨Int.cast_le.mpr hx.le, Int.cast_le.mpr hy.le, fun _ => Int.cast_inj.mpr hx⟩

/-- A border between two points of which the second one is nowhere before the first one. -/
theorem aligned_of_ofSegment? {b : Border Rat} (h : ofSegment? b.line b.blocks = .ok b)
    (hle : b.line.start.x ≤ b.line.stop.x ∧ b.line.start.y ≤ b.line.stop.y) : b.Aligned := by
  refine ⟨hle.1, hle.2, fun hvertical => ?_⟩
  unfold ofSegment? at h
  split at h
  · cases h
  · rename_i hskew
    have hrow : (b.line.start.y == b.line.stop.y) = false := Bool.eq_false_iff.mpr hvertical
    simpa [hrow] using hskew

variable {b : Border Rat} {motion : Segment Rat} {t u : Rat}

/-- Without a margin a border leaves an end that lies on it where it is. -/
theorem Aligned.pin_eq (hb : b.Aligned) {p : Point Rat}
    (hx : b.line.start.x ≤ p.x ∧ p.x ≤ b.line.stop.x)
    (hy : b.line.start.y ≤ p.y ∧ p.y ≤ b.line.stop.y) (free : Directions) :
    b.pin p free 0 = p := by
  unfold pin
  simp only [ite_self, sub_zero]
  split
  · rename_i hhorizontal
    have hline : b.line.start.y = b.line.stop.y := beq_iff_eq.mp hhorizontal
    exact congrArg₂ Point.mk (Coordinate.clamp_of_mem hx) (le_antisymm hy.1 (hline ▸ hy.2))
  · rename_i hvertical
    have hline : b.line.start.x = b.line.stop.x := hb.x_eq hvertical
    exact congrArg₂ Point.mk (le_antisymm hx.1 (hline ▸ hx.2)) (Coordinate.clamp_of_mem hy)

/-- Where a motion meets a border it lies between the ends of the border. -/
theorem Aligned.mem_of_meetAt (hb : b.Aligned) (h : b.line.MeetAt motion u t) :
    (b.line.start.x ≤ (motion.along t).x ∧ (motion.along t).x ≤ b.line.stop.x) ∧
      b.line.start.y ≤ (motion.along t).y ∧ (motion.along t).y ≤ b.line.stop.y := by
  obtain ⟨-, hu, -, heq⟩ := h
  rw [← heq]
  exact ⟨share_mem hu hb.x_le, share_mem hu hb.y_le⟩

/-- Without a margin, a border pins the coordinate across it to where the motion meets it. -/
theorem Aligned.pin_across (hb : b.Aligned) (h : b.line.MeetAt motion u t) (free : Directions) :
    if b.isHorizontal then (b.pin motion.stop free 0).y = (motion.along t).y
    else (b.pin motion.stop free 0).x = (motion.along t).x := by
  obtain ⟨⟨hx, hx'⟩, hy, hy'⟩ := hb.mem_of_meetAt h
  unfold pin
  split
  · rename_i hhorizontal
    have hline : b.line.start.y = b.line.stop.y := beq_iff_eq.mp hhorizontal
    simp only [ite_self, sub_zero]
    exact le_antisymm hy (hline ▸ hy')
  · rename_i hvertical
    simp only [ite_self, sub_zero]
    exact le_antisymm hx (hb.x_eq hvertical ▸ hx')

/-- Without a margin, a border pins the end of a motion between where the motion meets the border
and where it was aimed. -/
theorem Aligned.pin_mem (hb : b.Aligned) (h : b.line.MeetAt motion u t) (free : Directions) :
    (b.pin motion.stop free 0).Between (motion.along t) motion.stop := by
  obtain ⟨hx, hy⟩ := hb.mem_of_meetAt h
  have hacross := hb.pin_across h free
  unfold Point.Between
  split at hacross
  · rename_i hhorizontal
    rw [hacross]
    unfold pin
    rw [if_pos hhorizontal]
    exact ⟨Coordinate.clamp_mem_uIcc hx, Set.left_mem_uIcc⟩
  · rename_i hvertical
    rw [hacross]
    unfold pin
    rw [if_neg hvertical]
    exact ⟨Set.left_mem_uIcc, Coordinate.clamp_mem_uIcc hy⟩

end Border

namespace Outline

theorem Exact.aligned_lift {outline : Outline Int} {r : Region Int} (h : Exact outline r) :
    ∀ b ∈ (outline.lift : Outline Rat), b.Aligned := by
  intro b hb
  obtain ⟨c, hc, rfl⟩ := List.mem_map.mp hb
  exact (h.proper c hc).aligned

/-- Without a margin, a motion that borders stop ends between its start and where it was aimed. -/
theorem Clamped.between {outline : Outline Rat} (haligned : ∀ b ∈ outline, b.Aligned)
    {motion last : Segment Rat} {free : Directions} {borders : List (Border Rat)}
    (h : Clamped outline 0 motion free last borders) :
    last.stop.Between motion.start motion.stop := by
  induction h with
  | unhindered => exact ⟨Set.right_mem_uIcc, Set.right_mem_uIcc⟩
  | pinned hit _ ih =>
    obtain ⟨t, hit⟩ := exists_hitAt hit
    obtain ⟨u, hmeet⟩ := hit.meets
    have hpin := (haligned _ hit.mem).pin_mem hmeet
    exact ih.trans_right ((hpin _).trans_left (Segment.along_between _ hmeet.on_way))

/-! ## Positions that come back -/

/-- What is asked for lies between where the pointer is and what is searched for. -/
theorem asked_mem_uIcc {step : Rat} (h : 0 ≤ step) (before asked : Rat) :
    asked ∈ Set.uIcc before (nudged step before asked) := by
  unfold nudged
  split
  · rename_i hgrows
    exact Set.mem_uIcc_of_le hgrows.le (le_add_of_nonneg_right h)
  · rw [add_zero]
    exact Set.right_mem_uIcc

/-- A coordinate that is stopped on the way comes back on the way. -/
theorem settled_mem_uIcc {step : Rat} (h : 0 ≤ step) {before asked origin last : Rat}
    (hlast : last ∈ Set.uIcc (before - origin) (nudged step before asked - origin)) :
    settled step before asked origin last ∈ Set.uIcc before (nudged step before asked) := by
  unfold settled
  split
  · exact asked_mem_uIcc h before asked
  · rcases Set.mem_uIcc.mp hlast with ⟨hlow, hhigh⟩ | ⟨hlow, hhigh⟩
    · exact Set.mem_uIcc_of_le (sub_le_iff_le_add.mp hlow) (le_sub_iff_add_le.mp hhigh)
    · exact Set.mem_uIcc_of_ge (sub_le_iff_le_add.mp hlow) (le_sub_iff_add_le.mp hhigh)

/-- Whatever borders there are, without a margin a confined motion neither turns back nor goes
further than it was asked to, up to the step by which growing coordinates are nudged. -/
theorem confine_between {outline : Outline Rat} (hne : outline ≠ [])
    (haligned : ∀ b ∈ outline, b.Aligned) {step : Rat} (hstep : 0 ≤ step)
    (origin before asked : Point Rat) :
    ∃ confined, outline.confine origin before asked 0 step = .ok confined ∧
      confined.position.Between before
        ⟨nudged step before.x asked.x, nudged step before.y asked.y⟩ := by
  obtain ⟨last, borders, hclamp, hclamped⟩ := outline.exists_clamp 0
    (requested step origin before asked) (requested step origin before asked).directions
  refine ⟨_, confine_of_clamp hne hclamp, ?_⟩
  obtain ⟨hx, hy⟩ := hclamped.between haligned
  cases borders with
  | nil => exact ⟨asked_mem_uIcc hstep _ _, asked_mem_uIcc hstep _ _⟩
  | cons b borders => exact ⟨settled_mem_uIcc hstep hx, settled_mem_uIcc hstep hy⟩

/-- Two borders that cross and block all directions. -/
def crossing : Outline Rat :=
  [⟨⟨⟨10, 0⟩, ⟨10, 20⟩⟩, ⟨true, true, true, true⟩⟩, ⟨⟨⟨0, 10⟩, ⟨20, 10⟩⟩, ⟨true, true, true, true⟩⟩]

/-- A motion across the crossing stops there, on its way. -/
theorem confine_between_crossing :
    crossing ≠ [] ∧ (∀ b ∈ crossing, b.Aligned) ∧ (0 : Rat) ≤ 1 / 256 ∧
    crossing.confine ⟨2, 4⟩ ⟨7, 9⟩ ⟨22, 24⟩ 0 (1 / 256) = .ok ⟨⟨12, 14⟩, crossing⟩ ∧
    Point.Between ⟨12, 14⟩ ⟨7, 9⟩ ⟨nudged (1 / 256) 7 22, nudged (1 / 256) 9 24⟩ := by
  have hne : crossing ≠ [] := List.cons_ne_nil _ _
  have hborders : ∀ b ∈ crossing, Border.ofSegment? b.line b.blocks = .ok b ∧
      b.line.start.x ≤ b.line.stop.x ∧ b.line.start.y ≤ b.line.stop.y := by decide +kernel
  have haligned : ∀ b ∈ crossing, b.Aligned := fun b hb =>
    Border.aligned_of_ofSegment? (hborders b hb).1 (hborders b hb).2
  have hstep : (0 : Rat) ≤ 1 / 256 := by norm_num
  have hconfine : crossing.confine ⟨2, 4⟩ ⟨7, 9⟩ ⟨22, 24⟩ 0 (1 / 256) =
      .ok ⟨⟨12, 14⟩, crossing⟩ := by decide +kernel
  obtain ⟨confined, hconfined, hbetween⟩ :=
    confine_between hne haligned hstep ⟨2, 4⟩ ⟨7, 9⟩ ⟨22, 24⟩
  cases hconfined.symm.trans hconfine
  exact ⟨hne, haligned, hstep, hconfine, hbetween⟩

end Outline

end Confinement
