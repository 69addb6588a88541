import Confinement.Motion.Recovery
import Confinement.Proofs.Confining
import Confinement.Proofs.Membership

/-!
# Recovered pointers

Over fractions a pointer can always be recovered. The search ends with a border of least distance
(`Outline.exists_nearest?`), and the pointer is moved to a point next to that border
(`Border.inner`), which the region contains : across the border it is in the row or column of
pixels inside, and along the border it is between the ends (`Outline.Exact.covers_inner`). There
it may be less than a step off an end, if the border is shorter than two steps.
-/

namespace Confinement

/-! ## The nearest border -/

/-- The distance to a border is that to where the border would pin the point. -/
theorem Border.squaredDistance_rat (b : Border Rat) (p : Point Rat) :
    b.squaredDistance p = (b.pin p Directions.empty 0).squaredDistance p := by
  unfold Border.squaredDistance Border.pin
  simp only [ite_self, sub_zero]
  split <;> rfl

namespace Outline

/-- The search for the nearest border ends with one of least distance. -/
theorem exists_nearest? {outline : Outline Rat} (hne : outline ≠ []) (p : Point Rat) :
    ∃ b m, outline.nearest? p = .ok (some b) ∧
      IsFirst (fun b => some <$> b.squaredDistance p) outline b m := by
  have hmeasure (b : Border Rat) : ∃ m, some <$> b.squaredDistance p = .ok (some m) := by
    rw [Border.squaredDistance_rat, Point.squaredDistance_rat]
    exact ⟨_, rfl⟩
  have htotal : ∀ c ∈ outline, ∃ found, some <$> c.squaredDistance p = .ok found := fun c _ => by
    obtain ⟨m, hm⟩ := hmeasure c
    exact ⟨some m, hm⟩
  rcases exists_least? htotal with ⟨-, hall⟩ | hfound
  · obtain ⟨c, hc⟩ := List.exists_mem_of_ne_nil outline hne
    obtain ⟨m, hm⟩ := hmeasure c
    cases (hall c hc).symm.trans hm
  · exact hfound

end Outline

/-! ## Points inside borders -/

/-- The point next to a border to which a pointer is moved. -/
def Border.inner (b : Border Rat) (p : Point Rat) (step : Rat) : Point Rat :=
  if b.isHorizontal then
    ⟨Coordinate.clamp p.x (b.line.start.x + step) (b.line.stop.x - step),
      if b.blocks.down then b.line.start.y - step else b.line.start.y + step⟩
  else
    ⟨if b.blocks.right then b.line.start.x - step else b.line.start.x + step,
      Coordinate.clamp p.y (b.line.start.y + step) (b.line.stop.y - step)⟩

theorem Border.behind_rat (b : Border Rat) (p : Point Rat) (step : Rat) :
    b.behind p step = .ok (b.inner p step) := by
  have hstep (coordinate : Rat) (growing : Bool) : Border.stepOff coordinate step growing =
      .ok (if growing then coordinate - step else coordinate + step) := by
    cases growing <;> rfl
  unfold Border.behind Border.inner
  simp only [hstep]
  split <;> rfl

theorem recoveryStep_pos (step : Rat) : 0 < recoveryStep step := by
  unfold recoveryStep
  split
  · rename_i hpos
    exact hpos
  · decide +kernel

/-- The step that is taken is positive, and less than one if the one that is given is. -/
theorem recoveryStep_mem {step : Rat} (h : step < 1) :
    0 < recoveryStep step ∧ recoveryStep step < 1 := by
  refine ⟨recoveryStep_pos step, ?_⟩
  unfold recoveryStep
  split
  · exact h
  · decide +kernel

/-- A coordinate that is kept a step off both ends of a range stays between them, even if the
range is shorter than two steps. -/
theorem floor_clamp_mem {low high : Int} (h : low < high) {step : Rat} (hstep : 0 < step ∧ step < 1)
    (a : Rat) : low ≤ ⌊Coordinate.clamp a (low + step) (high - step)⌋ ∧
      ⌊Coordinate.clamp a (low + step) (high - step)⌋ + 1 ≤ high := by
  have hwidth : (low : Rat) + 1 ≤ high := by exact_mod_cast h
  rw [Coordinate.clamp_rat]
  refine floor_mem (le_inf (le_trans ?_ le_sup_right) ?_) (inf_le_right.trans_lt ?_) <;> linarith

/-- A coordinate a step off a line is in the cell before it or in the one after it. -/
theorem floor_beside (line : Int) {step : Rat} (h : 0 < step ∧ step < 1) (growing : Bool) :
    ⌊if growing then (line : Rat) - step else line + step⌋ =
      if growing then line - 1 else line := by
  cases growing with
  | false =>
    rw [if_neg Bool.false_ne_true, if_neg Bool.false_ne_true, Int.floor_eq_iff]
    constructor <;> linarith
  | true =>
    rw [if_pos rfl, if_pos rfl, Int.floor_eq_iff]
    push_cast
    constructor <;> linarith

namespace Outline

variable {outline : Outline Int} {r : Region Int}

/-- The point next to a border lies in a pixel that is covered. -/
theorem Exact.covers_inner (h : Exact outline r) {b : Border Int} (hb : b ∈ outline) {step : Rat}
    (hstep : 0 < step ∧ step < 1) (p : Point Rat) :
    r.Covers ⌊((b.map (Lift.lift : Int → Rat)).inner p step).x⌋
      ⌊((b.map (Lift.lift : Int → Rat)).inner p step).y⌋ := by
  unfold Border.inner
  rw [Border.isHorizontal_lift]
  rcases h.proper b hb with ⟨hy, hx⟩ | ⟨hx, hy⟩
  · have hhorizontal : b.isHorizontal = true := beq_iff_eq.mpr hy
    have halong : b.AlongTop _ b.line.start.y := ⟨rfl, hy.symm, floor_clamp_mem hx hstep p.x⟩
    have hcovers := (h.beside_top hb halong).1
    rw [← floor_beside b.line.start.y hstep] at hcovers
    rw [if_pos hhorizontal]
    exact hcovers
  · have hvertical : ¬b.isHorizontal = true := fun heq => hy.ne (beq_iff_eq.mp heq)
    have halong : b.AlongLeft b.line.start.x _ := ⟨rfl, hx.symm, floor_clamp_mem hy hstep p.y⟩
    have hcovers := (h.beside_left hb halong).1
    rw [← floor_beside b.line.start.x hstep] at hcovers
    rw [if_neg hvertical]
    exact hcovers

/-- A pointer is moved to the point next to the border that is nearest. -/
theorem moveInside_rat {borders : Outline Rat} {p : Point Rat} {b : Border Rat}
    (hb : borders.nearest? p = .ok (some b)) (step : Rat) :
    borders.moveInside p step =
      (.ok (b.inner p (recoveryStep step)) : Except (RecoveryError Int) (Point Rat)) := by
  unfold moveInside
  rw [hb]
  simp only [Border.behind_rat]
  rfl

end Outline

namespace Region

/-- A region that is not empty has a point in its closure. -/
theorem exists_closure {r : Region Int} (hne : r.isEmpty = false) : ∃ p, r.Closure p := by
  obtain ⟨b, hb⟩ := List.exists_mem_of_ne_nil r.boxes (List.isEmpty_eq_false_iff.mp hne)
  exact ⟨⟨b.left, b.top⟩, b, hb, ⟨le_rfl, Int.cast_le.mpr b.left_lt_right.le⟩, le_rfl,
    Int.cast_le.mpr b.top_lt_bottom.le⟩

/-- A pointer in a region stays where it is. -/
theorem recover_of_contains {r : Region Int} (hne : r.isEmpty = false) {origin p : Point Rat}
    (hp : r.contains (p.relativeTo origin) = .ok true) (step : Rat) :
    r.recover origin p step = .ok (.inside p) := by
  unfold Point.relativeTo at hp
  simp only [recover, recoverWith, hne, Bool.false_eq_true, if_false, Point.sub_rat, bind,
    Except.bind, Except.mapError, hp]
  rfl

/-- A pointer outside a region is moved to where the outline moves it. -/
theorem recover_of_not_contains {r : Region Int} (hne : r.isEmpty = false) {origin p : Point Rat}
    (hp : r.contains (p.relativeTo origin) = .ok false) {outline : Outline Int}
    (houtline : Outline.ofRegion? r = .ok outline) {step : Rat} {q : Point Rat}
    (hq : (outline.lift : Outline Rat).moveInside (p.relativeTo origin) step =
      (.ok q : Except (RecoveryError Int) (Point Rat))) :
    r.recover origin p step = .ok (.moved ⟨q.x + origin.x, q.y + origin.y⟩) := by
  unfold Point.relativeTo at hp hq
  simp only [recover, recoverWith, hne, Bool.false_eq_true, if_false, Point.sub_rat, bind,
    Except.bind, Except.mapError, hp, houtline, Except.map, hq]
  rfl

/-- A pointer outside a region is moved to the point next to the border that is nearest. -/
theorem Built.exists_moved {r : Region Int} (h : r.Built) (hne : r.isEmpty = false)
    {origin p : Point Rat} (hp : r.contains (p.relativeTo origin) = .ok false) (step : Rat) :
    ∃ outline, Outline.Exact outline r ∧ ∃ b ∈ outline, ∃ m,
      Outline.IsFirst (fun b => some <$> b.squaredDistance (p.relativeTo origin)) outline.lift
        (b.map Lift.lift) m ∧
      ∃ q, r.recover origin p step = .ok (.moved q) ∧ q.relativeTo origin =
        (b.map (Lift.lift : Int → Rat)).inner (p.relativeTo origin) (recoveryStep step) := by
  obtain ⟨outline, houtline, hexact⟩ := Outline.exists_ofRegion? h.banded
  obtain ⟨q₀, hq₀⟩ := exists_closure hne
  obtain ⟨b, m, hb, hfirst⟩ :=
    Outline.exists_nearest? (hexact.lift_ne_nil hq₀) (p.relativeTo origin)
  obtain ⟨c, hc, rfl⟩ := List.mem_map.mp hfirst.mem
  exact ⟨outline, hexact, c, hc, m, hfirst, _,
    recover_of_not_contains hne hp houtline (Outline.moveInside_rat hb step),
    by simp [Point.relativeTo]⟩

/-- With a step of less than one, a pointer stays in a region or is moved into it. -/
theorem Built.recover_cases {r : Region Int} (h : r.Built) (hne : r.isEmpty = false)
    (origin p : Point Rat) {step : Rat} (hstep : step < 1) :
    (r.contains (p.relativeTo origin) = .ok true ∧ r.recover origin p step = .ok (.inside p)) ∨
      r.contains (p.relativeTo origin) = .ok false ∧
        ∃ q, r.recover origin p step = .ok (.moved q) ∧
          r.contains (q.relativeTo origin) = .ok true := by
  by_cases hp : r.contains (p.relativeTo origin) = .ok true
  · exact Or.inl ⟨hp, recover_of_contains hne hp step⟩
  · have hout : r.contains (p.relativeTo origin) = .ok false := by
      rw [h.contains_eq_ok, decide_eq_false (mt (h.contains_iff _).mpr hp)]
    obtain ⟨outline, hexact, b, hb, m, -, q, hq, hinner⟩ := h.exists_moved hne hout step
    refine Or.inr ⟨hout, q, hq, ?_⟩
    rw [h.contains_iff, hinner]
    exact hexact.covers_inner hb (recoveryStep_mem hstep) _

/-- A pointer that is recovered with a step of less than one is in the region, as long as there is
one, and where it was if it was in the region before. -/
theorem Built.recover_inside {r : Region Int} (h : r.Built) (hne : r.isEmpty = false)
    (origin p : Point Rat) {step : Rat} (hstep : step < 1) :
    ∃ recovery, r.recover origin p step = .ok recovery ∧
      r.contains (recovery.position.relativeTo origin) = .ok true ∧
      (r.contains (p.relativeTo origin) = .ok true → recovery.position = p) := by
  rcases h.recover_cases hne origin p hstep with ⟨hp, hrecover⟩ | ⟨hout, q, hrecover, hq⟩
  · exact ⟨_, hrecover, hp, fun _ => rfl⟩
  · exact ⟨_, hrecover, hq, fun hp => nomatch hp.symm.trans hout⟩

/-- A pointer to the lower right of two touching boxes, with a step of more than half a pixel. -/
theorem recover_inside_stairs : ∃ r : Region Int,
    ofRectangles? [⟨0, 0, 2, 1⟩, ⟨1, 1, 2, 1⟩] = .ok r ∧ r.isEmpty = false ∧
      (3 / 4 : Rat) < 1 ∧
      ∃ recovery, r.recover ⟨2, 4⟩ ⟨9, 9⟩ (3 / 4) = .ok recovery ∧
        r.contains (recovery.position.relativeTo ⟨2, 4⟩) = .ok true ∧
        (r.contains (Point.relativeTo ⟨9, 9⟩ ⟨2, 4⟩) = .ok true → recovery.position = ⟨9, 9⟩) := by
  obtain ⟨r, hr, b, hb, -⟩ := exists_stairs
  have hne : r.isEmpty = false := List.isEmpty_eq_false_iff.mpr (List.ne_nil_of_mem hb)
  have hstep : (3 / 4 : Rat) < 1 := by norm_num
  exact ⟨r, hr, hne, hstep, (Built.ofRectangles hr).recover_inside hne ⟨2, 4⟩ ⟨9, 9⟩ hstep⟩

end Region

end Confinement
