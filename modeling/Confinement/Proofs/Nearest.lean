import Confinement.Proofs.Reach
import Confinement.Proofs.Recoveries
import Mathlib.Algebra.Order.Group.Pointwise.Interval

/-!
# Nearest places

A pointer outside a region is recovered next to the nearest point of the region
(`Region.Built.recover_nearest`). The search goes through borders only, and along each of them the
clamped coordinate gives the nearest point (`Border.Proper.squaredLength_pin_le`). That is enough :
from any point of the region the way to a point outside leads over a border, which is nearer
(`Outline.Exact.exists_nearer`). A point on the right or bottom edge lies outside although the
closure has it; such a point is at a border itself (`Outline.Exact.exists_holds`).

The step inside takes the pointer off the nearest point by at most one step in each coordinate,
across the border and along it, also where the border is shorter than two steps
(`Border.inner_within_pin`).
-/

namespace Confinement

/-- Whether no point of a region is nearer to a point than this one. -/
structure Region.IsNearest (r : Region Int) (p n : Point Rat) : Prop where
  closure : r.Closure n
  le : ∀ c, r.Closure c → (Segment.mk p n).squaredLength ≤ (Segment.mk p c).squaredLength

/-! ## Nearest points of borders -/

/-- A clamped coordinate is the nearest one of the range. -/
theorem Coordinate.clamp_sub_mul_self_le {a low high z : Rat} (h : low ≤ z ∧ z ≤ high) :
    (clamp a low high - a) * (clamp a low high - a) ≤ (z - a) * (z - a) := by
  rw [← abs_le_iff_mul_self_le, abs_sub_comm, abs_sub_comm z]
  exact Set.abs_sub_right_of_mem_uIcc (clamp_mem_uIcc h)

/-- Clamping to a range that is a step shorter at both ends makes a difference of one step at
most, even if nothing is left of the range. -/
theorem Coordinate.abs_clamp_sub_clamp_le {step : Rat} (hstep : 0 ≤ step) (a low high : Rat) :
    |clamp a (low + step) (high - step) - clamp a low high| ≤ step := by
  rw [clamp_rat, clamp_rat, abs_sub_le_iff, sub_le_iff_le_add, sub_le_iff_le_add,
    ← min_add_add_left, ← min_add_add_left, ← max_add_add_left, ← max_add_add_left]
  constructor
  · exact inf_le_inf (sup_le_sup (by linarith) (by linarith)) (by linarith)
  · exact inf_le_inf (sup_le_sup (by linarith) (by linarith)) (by linarith)

namespace Border

/-- Of the points of a border, none is nearer to a point than the one to which it is pinned. -/
theorem Proper.squaredLength_pin_le {b : Border Int} (hb : b.Proper) {p q : Point Rat}
    (hq : b.Holds q) :
    (Segment.mk p ((b.map (Lift.lift : Int → Rat)).pin p Directions.empty 0)).squaredLength ≤
      (Segment.mk p q).squaredLength := by
  obtain ⟨hx, hy⟩ := hq
  unfold Segment.squaredLength pin
  rw [isHorizontal_lift]
  simp only [ite_self, sub_zero]
  rcases hb with ⟨hline, -⟩ | ⟨hline, hlt⟩
  · have hhorizontal : b.isHorizontal = true := beq_iff_eq.mpr hline
    have hqy : q.y = b.line.start.y := le_antisymm (hline ▸ hy.2) hy.1
    rw [if_pos hhorizontal, hqy]
    exact add_le_add_left (Coordinate.clamp_sub_mul_self_le hx) _
  · have hvertical : ¬b.isHorizontal = true := fun heq => hlt.ne (beq_iff_eq.mp heq)
    have hqx : q.x = b.line.start.x := le_antisymm (hline ▸ hx.2) hx.1
    rw [if_neg hvertical, hqx]
    exact add_le_add_right (Coordinate.clamp_sub_mul_self_le hy) _

/-- The point next to a border is at most a step away from the nearest point of the border. -/
theorem inner_within_pin (b : Border Rat) (p : Point Rat) {step : Rat} (hstep : 0 ≤ step) :
    (b.inner p step).Within (b.pin p Directions.empty 0) step := by
  have hacross (line : Rat) (growing : Bool) :
      |(if growing then line - step else line + step) - line| ≤ step := by
    split
    · rw [sub_sub_cancel_left, abs_neg, abs_of_nonneg hstep]
    · rw [add_sub_cancel_left, abs_of_nonneg hstep]
  unfold inner pin
  simp only [ite_self, sub_zero]
  split
  · exact ⟨Coordinate.abs_clamp_sub_clamp_le hstep _ _ _, hacross _ _⟩
  · exact ⟨hacross _ _, Coordinate.abs_clamp_sub_clamp_le hstep _ _ _⟩

end Border

/-! ## Borders on the way -/

namespace Segment

theorem squaredLength_nonneg (s : Segment Rat) : 0 ≤ s.squaredLength :=
  add_nonneg (mul_self_nonneg _) (mul_self_nonneg _)

/-- On the way to a point one only comes nearer. -/
theorem squaredLength_along_le (motion : Segment Rat) {t : Rat} (ht : 0 ≤ t ∧ t ≤ 1) :
    (Segment.mk motion.stop (motion.along t)).squaredLength ≤
      (Segment.mk motion.stop motion.start).squaredLength := by
  have hshare : (Segment.mk motion.stop (motion.along t)).squaredLength =
      (1 - t) * (1 - t) * (Segment.mk motion.stop motion.start).squaredLength := by
    unfold squaredLength along
    ring
  have hrest : 0 ≤ 1 - t ∧ 1 - t ≤ 1 := ⟨sub_nonneg.mpr ht.2, sub_le_self 1 ht.1⟩
  rw [hshare]
  exact mul_le_of_le_one_left (squaredLength_nonneg _) (mul_le_one₀ hrest.2 hrest.1 hrest.2)

end Segment

namespace Outline.Exact

variable {outline : Outline Int} {r : Region Int} {p : Point Rat}

/-- A point of the closure whose pixel is not covered is at a border. -/
theorem exists_holds (h : Exact outline r) (hp : r.Closure p) (hout : ¬r.Covers ⌊p.x⌋ ⌊p.y⌋) :
    ∃ b ∈ outline, b.Holds p := by
  -- A box in which a motion to the lower right goes on has the pixel in which the motion starts.
  have hstart : r.Closure ((Segment.mk p ⟨p.x + 1, p.y + 1⟩).along 0) := by rwa [Segment.along_zero]
  rcases h.goes_on_or_blocked hstart with ⟨box, hbox, hin, t, ht, hin'⟩ | ⟨b, hb, hholds, -⟩
  · rw [Segment.along_zero] at hin
    have hx : p.x + t * (p.x + 1 - p.x) ≤ box.right := hin'.1.2
    have hy : p.y + t * (p.y + 1 - p.y) ≤ box.bottom := hin'.2.2
    rw [add_sub_cancel_left, mul_one] at hx hy
    exact absurd ⟨box, hbox, Int.le_floor.mpr hin.1.1, Int.floor_lt.mpr (by linarith),
      Int.le_floor.mpr hin.2.1, Int.floor_lt.mpr (by linarith)⟩ hout
  · rw [Segment.along_zero] at hholds
    exact ⟨b, hb, hholds⟩

/-- From any point of the closure the way to a point outside leads over a border. -/
theorem exists_nearer (h : Exact outline r) (hout : ¬r.Covers ⌊p.x⌋ ⌊p.y⌋) {c : Point Rat}
    (hc : r.Closure c) : ∃ b ∈ outline, ∃ q, b.Holds q ∧
      (Segment.mk p q).squaredLength ≤ (Segment.mk p c).squaredLength := by
  by_cases hfree : ∀ t, 0 ≤ t → t ≤ 1 → ∀ b ∈ outline, b.Holds ((Segment.mk c p).along t) →
      ¬b.blocksAny (Segment.mk c p).directions = true
  · have hjoined := h.joined_of_unhindered hc (Or.inr (h.firstHit?_eq_none hfree))
    obtain ⟨b, hb, hholds⟩ := h.exists_holds hjoined.closure_right hout
    have hp := (Segment.mk c p).squaredLength_along_le ⟨zero_le_one, le_rfl⟩
    rw [Segment.along_one] at hp
    exact ⟨b, hb, p, hholds, hp⟩
  · push Not at hfree
    obtain ⟨t, ht, ht1, b, hb, hholds, -⟩ := hfree
    exact ⟨b, hb, _, hholds, (Segment.mk c p).squaredLength_along_le ⟨ht, ht1⟩⟩

/-- The nearest point of the nearest border is the nearest point of the region. -/
theorem isNearest_pin (h : Exact outline r) (hout : ¬r.Covers ⌊p.x⌋ ⌊p.y⌋) {b : Border Rat}
    {m : Rat} (hfirst : IsFirst (fun b => some <$> b.squaredDistance p) outline.lift b m) :
    r.IsNearest p (b.pin p Directions.empty 0) := by
  have hmeasure (c : Border Rat) : some <$> c.squaredDistance p =
      .ok (some (Segment.mk p (c.pin p Directions.empty 0)).squaredLength) := by
    rw [Border.squaredDistance_rat]
    rfl
  obtain ⟨d, hd, rfl⟩ := List.mem_map.mp hfirst.mem
  refine ⟨?_, fun c hc => ?_⟩
  · have hholds := (h.proper d hd).holds_pin p Directions.empty
    exact (h.joined_of_holds hd hholds hholds).closure_right
  · obtain ⟨e, he, q, hq, hle⟩ := h.exists_nearer hout hc
    cases hfirst.measure_eq.symm.trans (hmeasure _)
    calc _ ≤ _ := hfirst.le (List.mem_map_of_mem he) (hmeasure _)
      _ ≤ (Segment.mk p q).squaredLength := (h.proper e he).squaredLength_pin_le hq
      _ ≤ (Segment.mk p c).squaredLength := hle

end Outline.Exact

namespace Region

theorem recoveryStep_rat (step : Rat) :
    recoveryStep step = if 0 < step then step else 1 / 256 := by
  have hwire : (Scalar.wireStep : Rat) = 1 / 256 := by decide +kernel
  unfold recoveryStep
  rw [hwire]
  rfl

/-- A pointer outside a region that is built is recovered at most a step away from the nearest
point of the region, in each coordinate. -/
theorem Built.recover_nearest {r : Region Int} (h : r.Built) (hne : r.isEmpty = false)
    {origin p : Point Rat} (hp : r.contains (p.relativeTo origin) = .ok false) (step : Rat) :
    ∃ position n, r.recover origin p step = .ok (.moved position) ∧
      r.IsNearest (p.relativeTo origin) n ∧
      (position.relativeTo origin).Within n (if 0 < step then step else 1 / 256) := by
  obtain ⟨outline, hexact, b, -, m, hfirst, q, hq, hinner⟩ := h.exists_moved hne hp step
  have hout : ¬r.Covers ⌊(p.relativeTo origin).x⌋ ⌊(p.relativeTo origin).y⌋ := fun hcovers => by
    cases hp.symm.trans ((h.contains_iff _).mpr hcovers)
  refine ⟨q, _, hq, hexact.isNearest_pin hout hfirst, ?_⟩
  rw [← recoveryStep_rat, hinner]
  exact Border.inner_within_pin _ (p.relativeTo origin) (recoveryStep_pos step).le

/-- A pointer in the hole of a frame, with a step of more than half a pixel. -/
theorem recover_nearest_frame : frame.Built ∧ frame.isEmpty = false ∧
    frame.contains (Point.relativeTo ⟨13 / 4, 11 / 2⟩ ⟨2, 4⟩) = .ok false ∧
    ∃ position n, frame.recover ⟨2, 4⟩ ⟨13 / 4, 11 / 2⟩ (3 / 4) = .ok (.moved position) ∧
      frame.IsNearest (Point.relativeTo ⟨13 / 4, 11 / 2⟩ ⟨2, 4⟩) n ∧
      (position.relativeTo ⟨2, 4⟩).Within n (if (0 : Rat) < 3 / 4 then 3 / 4 else 1 / 256) := by
  have hout : frame.contains (Point.relativeTo ⟨13 / 4, 11 / 2⟩ ⟨2, 4⟩) = .ok false := by
    decide +kernel
  exact ⟨built_frame, rfl, hout, built_frame.recover_nearest rfl hout (3 / 4)⟩

end Region

end Confinement
