import Confinement.Proofs.Corners
import Confinement.Proofs.Seats

/-!
# Margins and steps that keep pointers

A constraint is created with any margin and any step that is not negative. Not all of them keep a
pointer, as neither is compared with how wide the region is where it is taken off
(`Constraint.keeps_iff`). Motions are confined to within a step of every region if and only if the
margin is at most one and the step together, and pointers are brought into every region if and only
if the step is less than one. That the bounds are enough holds of every region; that no greater
margin or step will do is seen in a region of one pixel : a motion to the right ends a margin before
its right side (`Region.exists_confine_pixel`), and a pointer to the left of it is brought a step
past its left side (`Region.exists_recover_pixel`).
-/

namespace Confinement

namespace Constraint

/-- Whether a constraint with this margin and this step is created for every region. -/
def Accepts (margin step : Rat) : Prop :=
  ∀ r : Region Int, r.Built → ∀ origin : Point Rat, ∃ c, create? r origin margin step = .ok c

/-- Whether a constraint with this margin and this step, whatever its region is, confines every
motion that starts in the region to within a step of it. -/
def Confines (margin step : Rat) : Prop :=
  ∀ r : Region Int, r.Built → ∀ origin before asked : Point Rat,
    r.contains (before.relativeTo origin) = .ok true →
      ∃ c position, create? r origin margin step = .ok c ∧ c.confine before asked = .ok position ∧
        r.Near (position.relativeTo origin) step

/-- Whether a constraint with this margin and this step, whatever its region is, brings every
pointer to a point of the region. -/
def Recovers (margin step : Rat) : Prop :=
  ∀ r : Region Int, r.Built → r.isEmpty = false → ∀ origin p : Point Rat,
    ∃ c q, create? r origin margin step = .ok c ∧ c.ensure p = .ok q ∧
      r.contains (q.relativeTo origin) = .ok true

variable {margin step : Rat}

theorem isNegative_eq_false_iff (a : Rat) : isNegative a = false ↔ 0 ≤ a := by
  simp [isNegative]

theorem confines_of_le (hmargin : 0 ≤ margin) (hstep : 0 ≤ step) (hle : margin ≤ 1 + step) :
    Confines margin step := by
  intro r h origin before asked hbefore
  obtain ⟨outline, hexact, hc⟩ := h.exists_create origin hmargin hstep
  obtain ⟨confined, hconfined, hnear⟩ := hexact.confine_near_of_le (h.closure_of_contains hbefore)
    ⟨hmargin, hle⟩ hstep asked
  exact ⟨_, _, hc, confine_eq_ok hconfined, hnear⟩

theorem recovers_of_lt (hmargin : 0 ≤ margin) (hstep : 0 ≤ step) (hlt : step < 1) :
    Recovers margin step := by
  intro r h hne origin p
  obtain ⟨outline, -, hc⟩ := h.exists_create origin hmargin hstep
  obtain ⟨recovery, hrecovery, -, hallows, -⟩ := (Sound.of_create? h hlt hc).exists_recover p
  exact ⟨_, _, hc, ensure_eq_ok hrecovery, (allows_of_not_isEmpty hne _).mp hallows⟩

end Constraint

/-! ## A region of one pixel -/

namespace Region

/-- The four borders around the pixel. -/
def pixelOutline : Outline Int :=
  [.horizontal 0 1 0 .up, .vertical 0 0 1 .left, .vertical 1 0 1 .right, .horizontal 0 1 1 .down]

theorem ofRegion?_pixel : Outline.ofRegion? pixel = .ok pixelOutline := by
  rfl

theorem exact_pixelOutline : Outline.Exact pixelOutline pixel := by
  obtain ⟨outline, houtline, hexact⟩ := Outline.exists_ofRegion? built_pixel.banded
  cases ofRegion?_pixel.symm.trans houtline
  exact hexact

theorem closure_pixel_iff (p : Point Rat) :
    pixel.Closure p ↔ (0 ≤ p.x ∧ p.x ≤ 1) ∧ 0 ≤ p.y ∧ p.y ≤ 1 := by
  simp [Closure, pixel, Box.Closure]

variable {margin step : Rat}

/-- A motion from the middle of the pixel to the right, to a step past the next one. -/
def pixelExit (step : Rat) : Segment Rat :=
  ⟨⟨1 / 2, 1 / 2⟩, ⟨2 + step, 1 / 2⟩⟩

theorem directions_pixelExit (hstep : 0 ≤ step) :
    (pixelExit step).directions = .only .right := by
  have hlong : (1 / 2 : Rat) < 2 + step := by linarith
  simp only [Segment.directions, pixelExit, hlong, lt_irrefl, decide_true, decide_false,
    Bool.not_true, Bool.false_and, Bool.and_false]
  rfl

/-- The motion is pinned a margin before the right side of the pixel. -/
theorem stop_eq_of_clamped_pixelExit (hstep : 0 ≤ step) {last : Segment Rat}
    {borders : List (Border Rat)}
    (h : Outline.Clamped pixelOutline.lift margin (pixelExit step) (pixelExit step).directions last
      borders) :
    borders.isEmpty = false ∧ last.stop.x = 1 - margin := by
  cases h with
  | unhindered hfree =>
    have hstart : pixel.Closure (pixelExit step).start := by norm_num [closure_pixel_iff, pixelExit]
    have hend := (exact_pixelOutline.joined_of_unhindered hstart hfree).closure_right
    have hshort : 2 + step ≤ 1 := ((closure_pixel_iff _).mp hend).1.2
    linarith
  | pinned hit rest =>
    rw [directions_pixelExit hstep] at hit rest
    obtain ⟨t, hit⟩ := Outline.exists_hitAt hit
    obtain ⟨b, hb, rfl, hblocks⟩ := hit.exists_mem
    simp only [pixelOutline, List.mem_cons, List.not_mem_nil, or_false] at hb
    rcases hb with rfl | rfl | rfl | rfl
    · cases hblocks
    · cases hblocks
    · cases rest with
      | unhindered =>
        refine ⟨rfl, ?_⟩
        rw [Border.pin, Border.isHorizontal_lift]
        exact congrArg (· - margin) Int.cast_one
      | pinned hit' =>
        exact absurd (Outline.blocksAny_of_firstHit? hit') (Border.not_blocksAny_of_isEmpty rfl)
    · cases hblocks

/-- A motion from the middle of the pixel to the right ends a margin before its right side. -/
theorem exists_confine_pixel (hmargin : 0 ≤ margin) (hstep : 0 ≤ step) : ∃ confined,
    (pixelOutline.lift : Outline Rat).confine ⟨0, 0⟩ ⟨1 / 2, 1 / 2⟩ ⟨2, 1 / 2⟩ margin step =
      .ok confined ∧ confined.position.x = 1 - margin := by
  have hmotion : Outline.requested step ⟨0, 0⟩ ⟨1 / 2, 1 / 2⟩ ⟨2, 1 / 2⟩ = pixelExit step := by
    norm_num [Outline.requested, Outline.nudged, Point.relativeTo, pixelExit]
  obtain ⟨last, borders, hclamp, hclamped⟩ := Outline.exists_clamp pixelOutline.lift margin
    (pixelExit step) (pixelExit step).directions
  rw [← hmotion] at hclamp
  obtain ⟨hpinned, hstop⟩ := stop_eq_of_clamped_pixelExit hstep hclamped
  refine ⟨_, Outline.confine_of_clamp (by decide) hclamp, ?_⟩
  -- what is asked for is two and a step, which is not where the motion ends
  have hkept : ¬(last.stop.x == Outline.nudged step (1 / 2) 2 - 0) = true := by
    rw [hstop, beq_iff_eq, Outline.nudged, if_pos (by norm_num)]
    linarith
  rw [hpinned]
  show Outline.settled step (1 / 2) 2 0 last.stop.x = 1 - margin
  rw [Outline.settled, if_neg hkept, add_zero, hstop]

/-- A pointer before the pixel is brought a step past the left side. -/
theorem exists_recover_pixel (hstep : 0 < step) : ∃ q,
    pixel.recover ⟨0, 0⟩ ⟨-1, 1 / 2⟩ step = .ok (.moved q) ∧ q.x = step := by
  have hout : pixel.contains (Point.relativeTo ⟨-1, 1 / 2⟩ ⟨0, 0⟩) = .ok false := by decide +kernel
  have hnearest : (pixelOutline.lift : Outline Rat).nearest? (Point.relativeTo ⟨-1, 1 / 2⟩ ⟨0, 0⟩) =
      .ok (some ((Border.vertical 0 0 1 .left : Border Int).map Lift.lift)) := by decide +kernel
  have hmoved := Outline.moveInside_rat hnearest step
  refine ⟨_, recover_of_not_contains rfl hout ofRegion?_pixel hmoved, ?_⟩
  rw [recoveryStep_rat, if_pos hstep, Border.inner, Border.isHorizontal_lift]
  show (((0 : Int) : Rat) + step) + 0 = step
  rw [Int.cast_zero, zero_add, add_zero]

end Region

/-! ## Margins and steps -/

namespace Constraint

variable {margin step : Rat}

theorem accepts_iff (margin step : Rat) : Accepts margin step ↔ 0 ≤ margin ∧ 0 ≤ step := by
  constructor
  · intro h
    obtain ⟨c, hc⟩ := h Region.pixel Region.built_pixel ⟨0, 0⟩
    obtain ⟨⟨hmargin, hstep⟩, -⟩ := create?_eq_ok_iff.mp hc
    exact ⟨(isNegative_eq_false_iff _).mp hmargin, (isNegative_eq_false_iff _).mp hstep⟩
  · rintro ⟨hmargin, hstep⟩ r hr origin
    obtain ⟨outline, -, hc⟩ := hr.exists_create origin hmargin hstep
    exact ⟨_, hc⟩

theorem le_of_confines (h : Confines margin step) :
    (0 ≤ margin ∧ 0 ≤ step) ∧ margin ≤ 1 + step := by
  have hbefore : Region.pixel.contains (Point.relativeTo ⟨1 / 2, 1 / 2⟩ ⟨0, 0⟩) = .ok true := by
    decide +kernel
  obtain ⟨c, position, hc, hposition, n, hn, hx, -⟩ :=
    h Region.pixel Region.built_pixel ⟨0, 0⟩ ⟨1 / 2, 1 / 2⟩ ⟨2, 1 / 2⟩ hbefore
  obtain ⟨⟨hmargin, hstep⟩, outline, houtline, rfl⟩ := create?_eq_ok_iff.mp hc
  rw [isNegative_eq_false_iff] at hmargin hstep
  cases Region.ofRegion?_pixel.symm.trans houtline
  obtain ⟨confined, hconfined, hend⟩ := Region.exists_confine_pixel hmargin hstep
  cases hposition.symm.trans (confine_eq_ok (c := ⟨_, _, _, _, _⟩) hconfined)
  have hleft := ((Region.closure_pixel_iff n).mp hn).1.1
  rw [Point.relativeTo, hend, abs_sub_comm] at hx
  have := (le_abs_self _).trans hx
  exact ⟨⟨hmargin, hstep⟩, by linarith⟩

theorem lt_of_recovers (h : Recovers margin step) : (0 ≤ margin ∧ 0 ≤ step) ∧ step < 1 := by
  obtain ⟨c, q, hc, hq, hinside⟩ := h Region.pixel Region.built_pixel rfl ⟨0, 0⟩ ⟨-1, 1 / 2⟩
  obtain ⟨⟨hmargin, hstep⟩, outline, houtline, rfl⟩ := create?_eq_ok_iff.mp hc
  rw [isNegative_eq_false_iff] at hmargin hstep
  refine ⟨⟨hmargin, hstep⟩, lt_of_not_ge fun hge => ?_⟩
  obtain ⟨p, hp, hx⟩ := Region.exists_recover_pixel (zero_lt_one.trans_le hge)
  cases hq.symm.trans (ensure_eq_ok ((recover_eq_of_outline houtline _).trans hp))
  rw [Region.built_pixel.contains_iff, Region.covers_pixel_iff, Int.floor_eq_zero_iff] at hinside
  have hlt : p.x - 0 < 1 := hinside.1.2
  linarith

/-- Every margin and step that are not negative are accepted. Of these, motions are confined to
within a step of every region if and only if the margin is at most one and the step together, and
pointers are brought into every region if and only if the step is less than one. -/
theorem keeps_iff (margin step : Rat) :
    (Accepts margin step ↔ 0 ≤ margin ∧ 0 ≤ step) ∧
      (Confines margin step ↔ Accepts margin step ∧ margin ≤ 1 + step) ∧
      (Recovers margin step ↔ Accepts margin step ∧ step < 1) := by
  rw [accepts_iff]
  exact ⟨Iff.rfl, ⟨le_of_confines, fun h => confines_of_le h.1.1 h.1.2 h.2⟩,
    ⟨lt_of_recovers, fun h => recovers_of_lt h.1.1 h.1.2 h.2⟩⟩

/-- A margin of two does not keep motions if the step is the finest one, and a step of one does not
keep pointers, but both are accepted. -/
theorem not_keeps_two : (Accepts 2 (1 / 256) ∧ ¬Confines 2 (1 / 256)) ∧
    Accepts 0 1 ∧ ¬Recovers 0 1 := by
  obtain ⟨haccepts, hconfines, -⟩ := keeps_iff 2 (1 / 256)
  obtain ⟨haccepts', -, hrecovers⟩ := keeps_iff 0 1
  refine ⟨⟨haccepts.mpr (by norm_num), fun h => ?_⟩, haccepts'.mpr (by norm_num), fun h => ?_⟩
  · exact absurd (hconfines.mp h).2 (by norm_num)
  · exact absurd (hrecovers.mp h).2 (lt_irrefl 1)

end Constraint

end Confinement
