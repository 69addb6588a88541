import Confinement.Motion.Trace
import Confinement.Proofs.Parts

/-!
# Exact stops

Over fractions a motion can always be confined. `Border.pin` is where a border pins the end of
a motion, `Outline.Clamped` how one border after another does, and `Outline.exists_confine`
what becomes of the position : it is as far from the end of the motion as the nudge was from
what was asked for.
-/

namespace Confinement

/-! ## Pinned ends -/

/-- The end of a motion, pinned to a border. -/
def Border.pin (b : Border Rat) (p : Point Rat) (free : Directions) (margin : Rat) : Point Rat :=
  if b.isHorizontal then
    ⟨Coordinate.clamp p.x b.line.start.x b.line.stop.x,
      b.line.start.y - if free.down then margin else 0⟩
  else
    ⟨b.line.start.x - if free.right then margin else 0,
      Coordinate.clamp p.y b.line.start.y b.line.stop.y⟩

/-- Without a margin the directions that are still free do not matter. -/
theorem Border.pin_zero (b : Border Rat) (p : Point Rat) (free : Directions) :
    b.pin p free 0 = b.pin p Directions.empty 0 := by
  unfold Border.pin
  simp only [ite_self]

/-- Without a margin an end is pinned to a point of the border. -/
theorem Border.Proper.holds_pin {b : Border Int} (h : b.Proper) (p : Point Rat)
    (free : Directions) : b.Holds ((b.map (Lift.lift : Int → Rat)).pin p free 0) := by
  unfold Border.pin
  rw [Border.isHorizontal_lift]
  simp only [ite_self, sub_zero]
  rcases h with ⟨hy, hx⟩ | ⟨hx, hy⟩
  · have hhorizontal : b.isHorizontal = true := beq_iff_eq.mpr hy
    have hline : (b.line.start.y : Rat) ≤ b.line.stop.y := Int.cast_le.mpr hy.le
    rw [if_pos hhorizontal]
    exact ⟨Coordinate.clamp_mem (Int.cast_le.mpr hx.le), le_rfl, hline⟩
  · have hvertical : ¬b.isHorizontal = true := fun heq => hy.ne (beq_iff_eq.mp heq)
    have hline : (b.line.start.x : Rat) ≤ b.line.stop.x := Int.cast_le.mpr hx.le
    rw [if_neg hvertical]
    exact ⟨⟨le_rfl, hline⟩, Coordinate.clamp_mem (Int.cast_le.mpr hy.le)⟩

theorem Border.stopAt_rat (coordinate margin : Rat) (growing : Bool) :
    Border.stopAt coordinate margin growing = .ok (coordinate - if growing then margin else 0) := by
  cases growing with
  | false => exact congrArg Except.ok (sub_zero coordinate).symm
  | true => rfl

theorem Border.stop_rat (b : Border Rat) (motion : Segment Rat) (free : Directions)
    (margin : Rat) :
    b.stop motion free margin = .ok ⟨motion.start, b.pin motion.stop free margin⟩ := by
  unfold Border.stop Border.pin
  simp only [Border.stopAt_rat]
  split <;> rfl

namespace Outline

/-- How a motion is stopped at the borders that it hits, with its end and these borders. -/
inductive Clamped (outline : Outline Rat) (margin : Rat) :
    Segment Rat → Directions → Segment Rat → List (Border Rat) → Prop where
  /-- No border that blocks the motion is hit. -/
  | unhindered {motion : Segment Rat} {free : Directions}
    (h : free.isEmpty = true ∨ outline.firstHit? motion free = .ok none) :
    Clamped outline margin motion free motion []
  /-- The end is pinned to a border, and the motion to there is searched on the other axis. -/
  | pinned {motion last : Segment Rat} {free : Directions} {b : Border Rat}
    {borders : List (Border Rat)} (hit : outline.firstHit? motion free = .ok (some b))
    (rest : Clamped outline margin ⟨motion.start, b.pin motion.stop free margin⟩
      (free.without b.axis) last borders) :
    Clamped outline margin motion free last (b :: borders)

/-- A motion can always be stopped. -/
theorem exists_clamp (outline : Outline Rat) (margin : Rat) (motion : Segment Rat)
    (free : Directions) : ∃ last borders, outline.clamp margin motion free = .ok (last, borders) ∧
      Clamped outline margin motion free last borders := by
  unfold clamp
  split
  · rename_i hempty
    exact ⟨motion, [], rfl, .unhindered (Or.inl hempty)⟩
  · split
    · rename_i e he
      rcases exists_firstHit? outline motion free with ⟨hnone, -⟩ | ⟨b, -, hsome, -⟩
      · cases he.symm.trans hnone
      · cases he.symm.trans hsome
    · rename_i hnone
      exact ⟨motion, [], rfl, .unhindered (Or.inr hnone)⟩
    · rename_i b hit
      obtain ⟨last, borders, hlast, hclamped⟩ := exists_clamp outline margin
        ⟨motion.start, b.pin motion.stop free margin⟩ (free.without b.axis)
      rw [Border.stop_rat]
      simp only [hlast]
      exact ⟨last, b :: borders, rfl, .pinned hit hclamped⟩
termination_by free.size
decreasing_by
  exact Directions.size_without_lt (Border.along_of_blocksAny (blocksAny_of_firstHit? ‹_›))

end Outline

/-! ## Positions relative to the origin -/

/-- The position of a point as seen from an origin. -/
def Point.relativeTo (p origin : Point Rat) : Point Rat :=
  ⟨p.x - origin.x, p.y - origin.y⟩

/-- A motion as seen from an origin. -/
def Segment.relativeTo (s : Segment Rat) (origin : Point Rat) : Segment Rat :=
  ⟨s.start.relativeTo origin, s.stop.relativeTo origin⟩

/-- Whether two points are at most this far apart in each coordinate. -/
def Point.Within (p q : Point Rat) (distance : Rat) : Prop :=
  |p.x - q.x| ≤ distance ∧ |p.y - q.y| ≤ distance

theorem Point.Within.eq {p q : Point Rat} (h : p.Within q 0) : p = q := by
  obtain ⟨px, py⟩ := p
  obtain ⟨qx, qy⟩ := q
  rw [Point.mk.injEq]
  exact ⟨sub_eq_zero.mp (abs_nonpos_iff.mp h.1), sub_eq_zero.mp (abs_nonpos_iff.mp h.2)⟩

namespace Outline

/-- A coordinate that is asked for, nudged by a step if it grows. -/
def nudged (step before asked : Rat) : Rat :=
  asked + if before < asked then step else 0

theorem nudge_rat (step before asked : Rat) :
    nudge step before asked = .ok (nudged step before asked) := by
  unfold nudge nudged
  show (if before < asked then Coordinate.add asked step else .ok asked) = _
  split
  · rfl
  · exact congrArg Except.ok (add_zero asked).symm

theorem abs_sub_nudged_le {step : Rat} (h : 0 ≤ step) (before asked : Rat) :
    |asked - nudged step before asked| ≤ step := by
  unfold nudged
  split
  · rw [sub_add_cancel_left, abs_neg, abs_of_nonneg h]
  · rwa [add_zero, sub_self, abs_zero]

/-- A coordinate of the position that comes back from where a motion is stopped : one that no border
has changed comes back without the nudge, any other as it is. -/
def settled (step before asked origin last : Rat) : Rat :=
  if last == nudged step before asked - origin then asked else last + origin

theorem abs_settled_sub_le {step : Rat} (h : 0 ≤ step) (before asked origin last : Rat) :
    |settled step before asked origin last - origin - last| ≤ step := by
  unfold settled
  split
  · rename_i hkept
    rw [beq_iff_eq.mp hkept, sub_sub_sub_cancel_right]
    exact abs_sub_nudged_le h before asked
  · rwa [add_sub_cancel_right, sub_self, abs_zero]

/-- The motion that is searched : from the pointer to where it asks to go, nudged, as seen from
the origin. -/
def requested (step : Rat) (origin before asked : Point Rat) : Segment Rat :=
  ⟨before.relativeTo origin,
    Point.relativeTo ⟨nudged step before.x asked.x, nudged step before.y asked.y⟩ origin⟩

/-- The motion that is searched ends where the pointer asks to go, up to the nudge. -/
theorem within_requested {step : Rat} (h : 0 ≤ step) (origin before asked : Point Rat) :
    (asked.relativeTo origin).Within (requested step origin before asked).stop step := by
  constructor
  · show |asked.x - origin.x - (nudged step before.x asked.x - origin.x)| ≤ step
    rw [sub_sub_sub_cancel_right]
    exact abs_sub_nudged_le h before.x asked.x
  · show |asked.y - origin.y - (nudged step before.y asked.y - origin.y)| ≤ step
    rw [sub_sub_sub_cancel_right]
    exact abs_sub_nudged_le h before.y asked.y

/-- Without a step, what is searched is the motion itself. -/
theorem requested_zero (origin before asked : Point Rat) :
    requested 0 origin before asked = Segment.relativeTo ⟨before, asked⟩ origin := by
  simp [requested, nudged, Segment.relativeTo]

/-- A motion that no border stops comes back as it was asked for, any other from where the last
border stops it. -/
theorem confine_of_clamp {outline : Outline Rat} (hne : outline ≠ []) {step margin : Rat}
    {origin before asked : Point Rat} {last : Segment Rat} {borders : List (Border Rat)}
    (h : outline.clamp margin (requested step origin before asked)
      (requested step origin before asked).directions = .ok (last, borders)) :
    outline.confine origin before asked margin step =
      .ok (if borders.isEmpty then ⟨asked, []⟩
        else ⟨⟨settled step before.x asked.x origin.x last.stop.x,
          settled step before.y asked.y origin.y last.stop.y⟩, borders⟩) := by
  have hempty : outline.isEmpty = false := List.isEmpty_eq_false_iff.mpr hne
  simp only [requested, Point.relativeTo] at h
  simp only [confine, hempty, Bool.false_eq_true, if_false, nudge_rat, Point.sub_rat, bind,
    Except.bind]
  rw [h]
  cases borders <;> rfl

/-- A motion can always be confined, and its position is as far from where the motion is stopped
as the nudge is from what was asked for. -/
theorem exists_confine {outline : Outline Rat} (hne : outline ≠ []) {step : Rat} (h : 0 ≤ step)
    (origin before asked : Point Rat) (margin : Rat) :
    ∃ last borders position, outline.confine origin before asked margin step =
        .ok ⟨position, borders⟩ ∧
      Clamped outline margin (requested step origin before asked)
        (requested step origin before asked).directions last borders ∧
      (position.relativeTo origin).Within last.stop step ∧ (borders = [] → position = asked) := by
  obtain ⟨last, borders, hlast, hclamped⟩ := outline.exists_clamp margin
    (requested step origin before asked) (requested step origin before asked).directions
  rw [confine_of_clamp hne hlast]
  cases borders with
  | nil =>
    cases hclamped with
    | unhindered hfree =>
      exact ⟨_, [], asked, rfl, .unhindered hfree, within_requested h origin before asked,
        fun _ => rfl⟩
  | cons b borders =>
    exact ⟨last, b :: borders, _, rfl, hclamped, ⟨abs_settled_sub_le h _ _ _ _,
      abs_settled_sub_le h _ _ _ _⟩, fun hnil => by cases hnil⟩

end Outline

end Confinement
