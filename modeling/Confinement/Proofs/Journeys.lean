import Confinement.Proofs.Constraints
import Mathlib.Algebra.Order.Floor.Ring

/-!
# Motions one after another

A pointer that moves on from where the last motion left it stays in its region if coordinates
are not nudged, however often it moves : every motion starts in the region and so ends in it
(`Constraint.foldlM_confine`). With a step, however small, this is lost
(`Region.keepsWithin_iff`). A motion that is not stopped gives back the position asked for without
the nudge, and that may lie outside, next to a step in the edge. The next motion starts out
there. It is blocked by no border that faces it from behind, so it leads away for good.

The region in which this happens (`Region.Ledge`) is a wide box with one pixel above its
top left corner. The first motion leaves that pixel just above the right end of its bottom; the
nudge takes it below, so that it seems to slip into the wide box. The second one leads straight
up, above the wide box.
-/

namespace Confinement

/-- Without a step, any number of motions leaves the pointer in the region. -/
theorem Constraint.foldlM_confine {r : Region Int} {outline : Outline Int} {origin : Point Rat}
    (h : Outline.Exact outline r) (requests : List (Point Rat)) {start : Point Rat}
    (hstart : r.Closure (start.relativeTo origin)) :
    ∃ p, requests.foldlM (Constraint.confine ⟨r, outline, origin, 0, 0⟩) start = .ok p ∧
      r.Closure (p.relativeTo origin) := by
  induction requests generalizing start with
  | nil => exact ⟨start, rfl, hstart⟩
  | cons asked requests ih =>
    obtain ⟨confined, hconfined, hnear⟩ :=
      h.confine_near hstart ⟨le_rfl, zero_le_one⟩ le_rfl asked
    obtain ⟨p, hp, hclosure⟩ := ih hnear.closure
    refine ⟨p, ?_, hclosure⟩
    rw [List.foldlM_cons, confine_eq_ok (c := ⟨r, outline, origin, 0, 0⟩) hconfined]
    exact hp

namespace Region

/-- Whether with this step no number of motions, without a margin, leads a pointer that starts in
a region further than this distance away from it. -/
def KeepsWithin (step distance : Rat) : Prop :=
  ∀ r : Region Int, r.Built → ∀ origin start : Point Rat, r.Closure (start.relativeTo origin) →
    ∃ c : Constraint Int Rat, Constraint.create? r origin 0 step = .ok c ∧
      ∀ requests : List (Point Rat), ∃ p, requests.foldlM c.confine start = .ok p ∧
        r.Near (p.relativeTo origin) distance

theorem keepsWithin_zero : KeepsWithin 0 0 := by
  intro r hr origin start hstart
  obtain ⟨outline, hexact, hcreate⟩ := hr.exists_create origin le_rfl le_rfl
  refine ⟨_, hcreate, fun requests => ?_⟩
  obtain ⟨p, hp, hclosure⟩ := Constraint.foldlM_confine hexact requests hstart
  exact ⟨p, hp, p.relativeTo origin, hclosure, by simp [Point.Within]⟩

/-! ## A ledge -/

/-- Whether a region is a box of this size with one pixel above its top left corner. -/
def Ledge (r : Region Int) (width height : Int) : Prop :=
  ∀ x y, r.Covers x y ↔ x = 0 ∧ y = -1 ∨ (0 ≤ x ∧ x < width) ∧ 0 ≤ y ∧ y < height

theorem exists_ledge {width height : Int} (hw : 0 ≤ width) (hh : 0 ≤ height) :
    ∃ r : Region Int, r.Built ∧ r.Ledge width height := by
  have hsizes : ∀ rect ∈ ([⟨0, -1, 1, 1⟩, ⟨0, 0, width, height⟩] : List (Rectangle Int)),
      0 ≤ rect.width ∧ 0 ≤ rect.height := by
    simp [hw, hh]
  obtain ⟨r, hr, hcovers⟩ := ofRectangles?_eq_ok hsizes
  refine ⟨r, .ofRectangles hr, fun x y => ?_⟩
  rw [hcovers]
  simp only [List.exists_mem_cons_iff, Rectangle.Covers, List.not_mem_nil, false_and,
    exists_false, or_false]
  omega

namespace Ledge

variable {r : Region Int} {width height : Int} {outline : Outline Int} {step e : Rat}

/-- Where the first motion passes the right end of the pixel, the nudge has taken it below. -/
theorem below_of_passing {t : Rat} (hstep : 0 < step) (he : 0 < e)
    (hslip : e * (2 + step) = step) (hpass : t * (2 + step) = 1) :
    0 < -e + t * (e / 2 + step) := by
  have hpos : 0 < 2 + step := by linarith
  have hbelow : (2 + step) * (-e + t * (e / 2 + step)) = e / 2 := by
    linear_combination (e / 2 + step) * hpass - hslip
  exact (mul_pos_iff_of_pos_left hpos).mp ((half_pos he).trans_eq hbelow.symm)

/-- The first motion is not stopped : its nudge lets it pass below the right end of the pixel. -/
theorem confine_first (hr : r.Ledge width height) (h : Outline.Exact outline r)
    (hne : (outline.lift : Outline Rat) ≠ []) (hstep : 0 < step) (he : 0 < e)
    (hslip : e * (2 + step) = step) (hwidth : 2 + step < width) (hheight : step < height) :
    (outline.lift : Outline Rat).confine ⟨0, 0⟩ ⟨0, -e⟩ ⟨2, -(e / 2)⟩ 0 step =
      .ok ⟨⟨2, -(e / 2)⟩, []⟩ := by
  refine h.confine_unhindered hne hstep.le (fun t ht ht' b hb hholds hblocks => ?_) 0
  have hmotion : Outline.requested step ⟨0, 0⟩ ⟨0, -e⟩ ⟨2, -(e / 2)⟩ =
      ⟨⟨0, -e⟩, ⟨2 + step, -(e / 2) + step⟩⟩ := by
    have hgrows : -e < -(e / 2) := by linarith
    simp [Outline.requested, Outline.nudged, Point.relativeTo, hgrows]
  rw [hmotion] at hholds hblocks
  have hx : (Segment.along ⟨⟨0, -e⟩, ⟨2 + step, -(e / 2) + step⟩⟩ t).x = t * (2 + step) := by
    simp [Segment.along]
  have hy : (Segment.along ⟨⟨0, -e⟩, ⟨2 + step, -(e / 2) + step⟩⟩ t).y =
      -e + t * (e / 2 + step) := by
    simp only [Segment.along]
    ring
  have hwidth' : 0 < width := by
    have : (0 : Rat) < width := by linarith
    exact_mod_cast this
  have hheight' : 0 < height := by
    have : (0 : Rat) < height := by linarith
    exact_mod_cast this
  rcases h.edge_of_blocksAny hb hholds hblocks with
    ⟨x, y, hcell, hline, ⟨-, hin, hout⟩ | ⟨hup, -⟩⟩ |
    ⟨x, y, hline, hcell, ⟨-, hin, hout⟩ | ⟨hleft, -⟩⟩
  · -- The bottom of the box is too far down.
    rw [hr] at hin hout
    have hbottom : (height : Rat) ≤ y := Int.cast_le.mpr (by omega)
    have hshare : t * (e / 2 + step) ≤ e / 2 + step :=
      mul_le_of_le_one_left (by linarith) ht'
    linarith
  · have := (Segment.contains_up _).mp hup
    simp only at this
    linarith
  · rw [hr] at hin hout
    by_cases hpixel : y = -1
    · -- The right side of the pixel ends where its bottom does, and the motion is below it.
      have hx1 : x = 1 := by omega
      subst hx1 hpixel
      have hpass : t * (2 + step) = 1 := by
        rw [← hx, hline]
        exact Int.cast_one
      have hnot : -e + t * (e / 2 + step) ≤ 0 := by
        rw [← hy]
        simpa using hcell.2
      exact absurd hnot (not_le.mpr (below_of_passing hstep he hslip hpass))
    · -- The right side of the box is too far right.
      have hright : (width : Rat) ≤ x := Int.cast_le.mpr (by omega)
      have hshare : t * (2 + step) ≤ 2 + step := mul_le_of_le_one_left (by linarith) ht'
      linarith
  · have := (Segment.contains_left _).mp hleft
    simp only at this
    linarith

/-- The second motion is not stopped : straight up from above the box there is no border that
faces it. -/
theorem confine_second (hr : r.Ledge width height) (h : Outline.Exact outline r)
    (hne : (outline.lift : Outline Rat) ≠ []) (hstep : 0 < step) (he : 0 < e) {goal : Rat}
    (hend : goal < -(e / 2)) :
    (outline.lift : Outline Rat).confine ⟨0, 0⟩ ⟨2, -(e / 2)⟩ ⟨2, goal⟩ 0 step =
      .ok ⟨⟨2, goal⟩, []⟩ := by
  refine h.confine_unhindered hne hstep.le (fun t ht ht' b hb hholds hblocks => ?_) 0
  have hmotion : Outline.requested step ⟨0, 0⟩ ⟨2, -(e / 2)⟩ ⟨2, goal⟩ =
      ⟨⟨2, -(e / 2)⟩, ⟨2, goal⟩⟩ := by
    simp [Outline.requested, Outline.nudged, Point.relativeTo, hend.not_gt]
  rw [hmotion] at hholds hblocks
  have hx : (Segment.along ⟨⟨2, -(e / 2)⟩, ⟨2, goal⟩⟩ t).x = 2 := by
    simp [Segment.along]
  have hy : (Segment.along ⟨⟨2, -(e / 2)⟩, ⟨2, goal⟩⟩ t).y < 0 := by
    have hshare : t * (goal - -(e / 2)) ≤ 0 :=
      mul_nonpos_of_nonneg_of_nonpos ht (sub_nonpos.mpr hend.le)
    simp only [Segment.along]
    linarith
  rcases h.edge_of_blocksAny hb hholds hblocks with
    ⟨x, y, hcell, hline, ⟨hdown, -⟩ | ⟨-, hin, -⟩⟩ | ⟨x, y, -, -, ⟨hright, -⟩ | ⟨hleft, -⟩⟩
  · exact absurd ((Segment.contains_down _).mp hdown) hend.not_gt
  · -- Left of the motion is the pixel, and the box is below it.
    rw [hr] at hin
    have hrow : (y : Rat) < 0 := by rwa [← hline]
    have hrow' : y < 0 := by exact_mod_cast hrow
    have hcolumn : (2 : Rat) ≤ x + 1 := by
      rw [← hx]
      exact hcell.2
    have hcolumn' : 2 ≤ x + 1 := by exact_mod_cast hcolumn
    omega
  · exact absurd ((Segment.contains_right _).mp hright) (lt_irrefl _)
  · exact absurd ((Segment.contains_left _).mp hleft) (lt_irrefl _)

/-- Far above a ledge there is nothing near. -/
theorem not_near (hr : r.Ledge width height) {p : Point Rat} {distance : Rat}
    (hp : p.y < -distance - 1) : ¬r.Near p distance := by
  rintro ⟨c, hc, -, hy⟩
  obtain ⟨x, y, hcov, -, hcell⟩ := (r.closure_iff c).mp hc
  rw [hr] at hcov
  have hrow : (-1 : Rat) ≤ y := by exact_mod_cast (show -1 ≤ y by omega)
  have := hcell.1
  have := (abs_le.mp hy).1
  linarith

end Ledge

/-- With a step, two motions lead a pointer away, as far as it wants. -/
theorem not_keepsWithin_of_pos {step : Rat} (hstep : 0 < step) (distance : Rat) :
    ¬KeepsWithin step distance := by
  intro hkeeps
  have hceil : 0 < ⌈step⌉ := Int.ceil_pos.mpr hstep
  obtain ⟨r, hbuilt, hledge⟩ :=
    exists_ledge (show 0 ≤ ⌈step⌉ + 3 by omega) (show 0 ≤ ⌈step⌉ + 1 by omega)
  have hle := Int.le_ceil step
  have hwidth : 2 + step < ((⌈step⌉ + 3 : Int) : Rat) := by
    push_cast
    linarith
  have hheight : step < ((⌈step⌉ + 1 : Int) : Rat) := by
    push_cast
    linarith
  -- The first motion starts this far above the end of the pixel.
  obtain ⟨e, he, hslip, hone⟩ : ∃ e, 0 < e ∧ e * (2 + step) = step ∧ e ≤ 1 := by
    have hpos : 0 < 2 + step := by linarith
    exact ⟨step / (2 + step), div_pos hstep hpos, div_mul_cancel₀ step hpos.ne',
      (div_le_one hpos).mpr (by linarith)⟩
  have hstart : r.Closure (Point.relativeTo ⟨0, -e⟩ ⟨0, 0⟩) := by
    refine (r.closure_iff _).mpr ⟨0, -1, (hledge 0 (-1)).mpr (Or.inl ⟨rfl, rfl⟩), ?_, ?_⟩
    · simp [Point.relativeTo, InCell]
    · simp only [Point.relativeTo, InCell, sub_zero]
      push_cast
      constructor <;> linarith
  obtain ⟨c, hc, hfollow⟩ := hkeeps r hbuilt ⟨0, 0⟩ ⟨0, -e⟩ hstart
  obtain ⟨outline, hexact, hcreate⟩ := hbuilt.exists_create ⟨0, 0⟩ le_rfl hstep.le
  cases hcreate.symm.trans hc
  have hne := hexact.lift_ne_nil hstart
  have hfar : -|distance| - 2 < -(e / 2) := by
    have := abs_nonneg distance
    linarith
  obtain ⟨p, hp, hnear⟩ := hfollow [⟨2, -(e / 2)⟩, ⟨2, -|distance| - 2⟩]
  have hfirst := Constraint.confine_eq_ok (c := ⟨r, outline, ⟨0, 0⟩, 0, step⟩)
    (hledge.confine_first hexact hne hstep he hslip hwidth hheight)
  have hsecond := Constraint.confine_eq_ok (c := ⟨r, outline, ⟨0, 0⟩, 0, step⟩)
    (hledge.confine_second hexact hne hstep he hfar)
  have hend : p = ⟨2, -|distance| - 2⟩ := by
    simp only [List.foldlM_cons, List.foldlM_nil, hfirst, hsecond, bind, Except.bind] at hp
    cases hp
    rfl
  refine hledge.not_near ?_ hnear
  have := le_abs_self distance
  show p.y - 0 < -distance - 1
  rw [hend, sub_zero]
  linarith

/-- Motions one after another keep every pointer within a step of its region if and only if there
is no step. With one there is no bound at all. -/
theorem keepsWithin_iff {step : Rat} (hstep : 0 ≤ step) :
    (KeepsWithin step step ↔ step = 0) ∧ ∀ distance, KeepsWithin step distance → step = 0 := by
  have hzero (distance : Rat) (hkeeps : KeepsWithin step distance) : step = 0 := by
    by_contra hne
    exact not_keepsWithin_of_pos (lt_of_le_of_ne hstep (Ne.symm hne)) distance hkeeps
  refine ⟨⟨hzero step, ?_⟩, hzero⟩
  rintro rfl
  exact keepsWithin_zero

/-- The step of coordinates on the wire keeps no pointer near. -/
theorem not_keepsWithin_wireStep : (0 : Rat) ≤ 1 / 256 ∧ ¬KeepsWithin (1 / 256) (1 / 256) := by
  have hstep : (0 : Rat) ≤ 1 / 256 := by norm_num
  refine ⟨hstep, fun hkeeps => ?_⟩
  have hzero := (keepsWithin_iff hstep).1.mp hkeeps
  norm_num at hzero

end Region

end Confinement
