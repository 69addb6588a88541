import Confinement.Proofs.Reach

/-!
# Confined motions

A motion that starts in a region and is confined to its outline ends within a step of the region,
as long as the margin is at most one and the step together (`Outline.Exact.confine_near_of_le`).
Either no border is hit, and then the nudged motion stays in the region up to its end; or the last
border that is hit pins the end next to itself. At most a margin of one inside are its pixels
(`Outline.Exact.closure_pin`). A greater margin leads past them by what it is greater, but then the
end is short of where the motion was aimed, since a motion does not go beyond that while it is
still free to grow (`Segment.Heads`). So what comes back is that end itself; otherwise it differs
from the end by the nudge at most.
-/

namespace Confinement

/-! ## Directions of one motion -/

/-- A set without opposite directions. -/
def Directions.OneWay (s : Directions) : Prop :=
  ¬(s.right = true ∧ s.left = true) ∧ ¬(s.down = true ∧ s.up = true)

theorem Directions.OneWay.without {s : Directions} (h : s.OneWay) (axis : Axis) :
    (s.without axis).OneWay := by
  cases axis with
  | x => exact ⟨by simp [Directions.without], h.2⟩
  | y => exact ⟨h.1, by simp [Directions.without]⟩

/-- No border blocks a motion without a direction. -/
theorem Border.not_blocksAny_of_isEmpty {α : Type} [Coordinate α] {b : Border α}
    {free : Directions} (h : free.isEmpty = true) : ¬b.blocksAny free = true := by
  intro hblocks
  obtain ⟨d, -, hd, -⟩ := Border.blocksAny_iff.mp hblocks
  cases h.symm.trans (Directions.isEmpty_eq_false_iff.mpr ⟨d, hd⟩)

/-- A border that blocks one of the directions that are left blocks one of them all. -/
theorem Border.blocksAny_of_without {α : Type} [Coordinate α] {b : Border α} {free : Directions}
    {axis : Axis} (h : b.blocksAny (free.without axis) = true) : b.blocksAny free = true := by
  obtain ⟨d, hblocks, hfree, haxis⟩ := Border.blocksAny_iff.mp h
  rw [Directions.contains_without, Bool.and_eq_true] at hfree
  exact Border.blocksAny_iff.mpr ⟨d, hblocks, hfree.1, haxis⟩

theorem Segment.oneWay_directions (motion : Segment Rat) : motion.directions.OneWay := by
  constructor <;> simp +contextual [directions]

/-! ## Ends pinned to borders -/

namespace Outline

variable {outline : Outline Int} {r : Region Int} {margin : Rat}

/-- An end that is pinned to a border lies in the region. -/
theorem Exact.closure_pin (h : Exact outline r) {b : Border Int} (hb : b ∈ outline)
    {free : Directions} (hblocks : b.blocksAny free = true) (hfree : free.OneWay)
    (hmargin : 0 ≤ margin ∧ margin ≤ 1) (p : Point Rat) :
    r.Closure ((b.map (Lift.lift : Int → Rat)).pin p free margin) := by
  unfold Border.pin
  rw [Border.isHorizontal_lift]
  rcases h.proper b hb with ⟨hy, hx⟩ | ⟨hx, hy⟩
  · have hhorizontal : b.isHorizontal = true := beq_iff_eq.mpr hy
    have hclamp := Coordinate.clamp_mem (a := p.x) (Int.cast_le (R := Rat).mpr hx.le)
    obtain ⟨x, hleft, hright, hcell⟩ := exists_inCell hx hclamp.1 hclamp.2
    rw [if_pos hhorizontal]
    have halong : b.AlongTop x b.line.start.y := ⟨rfl, hy.symm, hleft, hright⟩
    rcases h.edgeTop_of_blocksAny hb halong hblocks with ⟨-, hup, hin, -⟩ | ⟨-, hdown, hin, -⟩
    · have hnot : ¬free.down = true := fun hd => hfree.2 ⟨hd, hup⟩
      rw [if_neg hnot, sub_zero]
      exact (r.closure_iff _).mpr ⟨x, b.line.start.y, hin, hcell, inCell_line _⟩
    · rw [if_pos hdown]
      exact (r.closure_iff _).mpr
        ⟨x, b.line.start.y - 1, hin, hcell, inCell_short_of_line _ hmargin⟩
  · have hvertical : ¬b.isHorizontal = true := fun heq => hy.ne (beq_iff_eq.mp heq)
    have hclamp := Coordinate.clamp_mem (a := p.y) (Int.cast_le (R := Rat).mpr hy.le)
    obtain ⟨y, htop, hbottom, hcell⟩ := exists_inCell hy hclamp.1 hclamp.2
    rw [if_neg hvertical]
    have halong : b.AlongLeft b.line.start.x y := ⟨rfl, hx.symm, htop, hbottom⟩
    rcases h.edgeLeft_of_blocksAny hb halong hblocks with
      ⟨-, hleft, hin, -⟩ | ⟨-, hright, hin, -⟩
    · have hnot : ¬free.right = true := fun hd => hfree.1 ⟨hd, hleft⟩
      rw [if_neg hnot, sub_zero]
      exact (r.closure_iff _).mpr ⟨b.line.start.x, y, hin, inCell_line _, hcell⟩
    · rw [if_pos hright]
      exact (r.closure_iff _).mpr
        ⟨b.line.start.x - 1, y, hin, inCell_short_of_line _ hmargin, hcell⟩

/-- The border that is hit first is one among whole numbers, which blocks what it blocks. -/
theorem HitAt.exists_mem {motion : Segment Rat} {free : Directions} {b : Border Rat} {t : Rat}
    (hit : HitAt outline.lift motion free b t) :
    ∃ c ∈ outline, b = c.map Lift.lift ∧ c.blocksAny free = true := by
  obtain ⟨c, hc, rfl⟩ := List.mem_map.mp hit.mem
  refine ⟨c, hc, rfl, ?_⟩
  rw [← Border.blocksAny_lift]
  exact hit.blocks

end Outline

/-! ## Ends short of a goal -/

/-- How a coordinate of a motion's end lies to one of the region : they are the same, or the margin
leads past the region by what it is greater than one, short of the goal. -/
def Coordinate.Short (z c goal margin : Rat) : Prop :=
  z = c ∨ z < goal ∧ |z - c| ≤ margin - 1

/-- The same of a motion's end and a point of the region. -/
def Point.Short (p c goal : Point Rat) (margin : Rat) : Prop :=
  Coordinate.Short p.x c.x goal.x margin ∧ Coordinate.Short p.y c.y goal.y margin

/-- A coordinate a margin before a line, or at it, is short of a goal after the line. -/
theorem Coordinate.short_sub (margin : Rat) {goal line : Rat} {growing : Bool}
    (hgoal : growing = true → line ≤ goal) :
    Short (line - if growing then margin else 0) (line - if growing then margin ⊓ 1 else 0) goal
      margin := by
  cases growing with
  | false => exact Or.inl rfl
  | true =>
    rw [if_pos rfl, if_pos rfl]
    rcases le_total margin 1 with hle | hle
    · exact Or.inl (by rw [inf_eq_left.mpr hle])
    · have hline := hgoal rfl
      have hpast : |line - margin - (line - 1)| = margin - 1 := by
        rw [sub_sub_sub_cancel_left, abs_sub_comm, abs_of_nonneg (sub_nonneg.mpr hle)]
      rw [inf_eq_right.mpr hle]
      exact Or.inr ⟨by linarith, hpast.le⟩

/-- Whether a motion goes towards a goal, and not beyond it, as far as it is free to grow. -/
structure Segment.Heads (motion : Segment Rat) (free : Directions) (goal : Point Rat) : Prop where
  right : free.right = true → motion.start.x ≤ motion.stop.x ∧ motion.stop.x ≤ goal.x
  down : free.down = true → motion.start.y ≤ motion.stop.y ∧ motion.stop.y ≤ goal.y

theorem Segment.heads_directions (motion : Segment Rat) :
    motion.Heads motion.directions motion.stop :=
  ⟨fun h => ⟨((contains_right motion).mp h).le, le_rfl⟩,
    fun h => ⟨((contains_down motion).mp h).le, le_rfl⟩⟩

/-- A coordinate that is clamped to a range stays between one of the range before it and where it
was. -/
theorem Coordinate.clamp_mem_of_le {a low high z start : Rat} (h : low ≤ z ∧ z ≤ high)
    (hz : z ∈ Set.uIcc start a) (hle : start ≤ a) :
    start ≤ clamp a low high ∧ clamp a low high ≤ a := by
  rw [Set.uIcc_of_le hle] at hz
  have hclamp := clamp_mem_uIcc (a := a) h
  rw [Set.uIcc_of_le hz.2] at hclamp
  exact ⟨hz.1.trans hclamp.1, hclamp.2⟩

/-- A motion that is pinned to the border that it meets still heads for its goal. -/
theorem Border.Aligned.heads_pin {b : Border Rat} (hb : b.Aligned) {motion : Segment Rat}
    {t u : Rat} (hmeet : b.line.MeetAt motion u t) {free : Directions} {goal : Point Rat}
    (h : motion.Heads free goal) (margin : Rat) :
    (Segment.mk motion.start (b.pin motion.stop free margin)).Heads (free.without b.axis) goal := by
  obtain ⟨hx, hy⟩ := hb.mem_of_meetAt hmeet
  have hbetween := motion.along_between hmeet.on_way
  unfold Border.axis Border.pin
  split
  · refine ⟨fun hright => ?_, fun hdown => by cases hdown⟩
    obtain ⟨hle, hgoal⟩ := h.right hright
    obtain ⟨hlow, hhigh⟩ := Coordinate.clamp_mem_of_le hx hbetween.1 hle
    exact ⟨hlow, hhigh.trans hgoal⟩
  · refine ⟨fun hright => (by cases hright), fun hdown => ?_⟩
    obtain ⟨hle, hgoal⟩ := h.down hdown
    obtain ⟨hlow, hhigh⟩ := Coordinate.clamp_mem_of_le hy hbetween.2 hle
    exact ⟨hlow, hhigh.trans hgoal⟩

namespace Outline

variable {outline : Outline Int} {r : Region Int} {margin : Rat} {goal : Point Rat}

/-- An end that is pinned to the border that a motion meets is short of the motion's goal. -/
theorem Exact.exists_short (h : Exact outline r) {b : Border Int} (hb : b ∈ outline)
    {free : Directions} (hblocks : b.blocksAny free = true) (hfree : free.OneWay)
    (hmargin : 0 ≤ margin) {motion : Segment Rat} (hheads : motion.Heads free goal) {t u : Rat}
    (hmeet : (b.map (Lift.lift : Int → Rat)).line.MeetAt motion u t) : ∃ c, r.Closure c ∧
      ((b.map (Lift.lift : Int → Rat)).pin motion.stop free margin).Short c goal margin := by
  have hclosure := h.closure_pin hb hblocks hfree
    ⟨le_inf hmargin zero_le_one, inf_le_right⟩ motion.stop
  have hmem := (h.proper b hb).aligned.mem_of_meetAt hmeet
  have hbetween := motion.along_between hmeet.on_way
  refine ⟨_, hclosure, ?_⟩
  unfold Border.pin
  split
  · refine ⟨Or.inl rfl, Coordinate.short_sub margin fun hdown => ?_⟩
    obtain ⟨hle, hgoal⟩ := hheads.down hdown
    rw [Point.Between, Set.uIcc_of_le hle] at hbetween
    exact hmem.2.1.trans (hbetween.2.2.trans hgoal)
  · refine ⟨Coordinate.short_sub margin fun hright => ?_, Or.inl rfl⟩
    obtain ⟨hle, hgoal⟩ := hheads.right hright
    rw [Point.Between, Set.uIcc_of_le hle] at hbetween
    exact hmem.1.1.trans (hbetween.1.2.trans hgoal)

/-- A motion that is stopped by borders ends in the region, or short of its goal, wherever it
starts. -/
theorem Clamped.exists_short {motion last : Segment Rat} {free : Directions}
    {borders : List (Border Rat)} (hclamped : Clamped outline.lift margin motion free last borders)
    (h : Exact outline r) (hfree : free.OneWay) (hmargin : 0 ≤ margin)
    (hheads : motion.Heads free goal) (hne : borders ≠ []) :
    ∃ c, r.Closure c ∧ last.stop.Short c goal margin := by
  induction hclamped with
  | unhindered => exact absurd rfl hne
  | @pinned motion last free b borders hit rest ih =>
    obtain ⟨t, hit⟩ := exists_hitAt hit
    obtain ⟨u, hmeet⟩ := hit.meets
    have hheads' := (h.aligned_lift b hit.mem).heads_pin hmeet hheads margin
    obtain ⟨c, hc, rfl, hblocks⟩ := hit.exists_mem
    cases rest with
    | unhindered => exact h.exists_short hc hblocks hfree hmargin hheads hmeet
    | pinned hit' rest' => exact ih (hfree.without _) hheads' (List.cons_ne_nil _ _)

/-- A motion that no border stops meets none that blocks it. -/
theorem not_meetAt_of_unhindered {motion : Segment Rat} {free : Directions}
    (hfree : free.isEmpty = true ∨ (outline.lift : Outline Rat).firstHit? motion free = .ok none)
    {b : Border Int} (hb : b ∈ outline) (hblocks : b.blocksAny free = true) (t u : Rat) :
    ¬(b.map (Lift.lift : Int → Rat)).line.MeetAt motion u t := by
  rcases hfree with hempty | hnone
  · exact absurd hblocks (Border.not_blocksAny_of_isEmpty hempty)
  · rcases exists_firstHit? outline.lift motion free with ⟨-, hall⟩ | ⟨_, _, hsome, -⟩
    · refine hall (b.map Lift.lift) (List.mem_map_of_mem hb) ?_ t u
      rwa [Border.blocksAny_lift]
    · cases hnone.symm.trans hsome

/-- A motion that no border stops stays in the part in which it starts. -/
theorem Exact.joined_of_unhindered (h : Exact outline r) {motion : Segment Rat}
    (hstart : r.Closure motion.start) (hfree : motion.directions.isEmpty = true ∨
      (outline.lift : Outline Rat).firstHit? motion motion.directions = .ok none) :
    r.Joined motion.start motion.stop := by
  rw [← motion.along_one]
  exact h.joined_up_to ⟨zero_le_one, le_rfl⟩ hstart fun b hb hblocks t u hmeet =>
    absurd hmeet (not_meetAt_of_unhindered hfree hb hblocks t u)

/-- A motion that is never at a border that blocks it hits none. -/
theorem Exact.firstHit?_eq_none (h : Exact outline r) {motion : Segment Rat} {free : Directions}
    (hfree : ∀ t, 0 ≤ t → t ≤ 1 → ∀ b ∈ outline, b.Holds (motion.along t) →
      ¬b.blocksAny free = true) :
    (outline.lift : Outline Rat).firstHit? motion free = .ok none := by
  rcases exists_firstHit? outline.lift motion free with ⟨hnone, -⟩ | ⟨b, t, -, hit⟩
  · exact hnone
  · obtain ⟨c, hc, rfl, hblocks⟩ := hit.exists_mem
    obtain ⟨u, hmeet⟩ := hit.meets
    have ht := hmeet.on_way
    exact absurd hblocks (hfree t ht.1 ht.2 c hc ((h.proper c hc).holds_of_meetAt hmeet))

/-- The outline of a region that covers something has a border. -/
theorem Exact.lift_ne_nil (h : Exact outline r) {p : Point Rat} (hp : r.Closure p) :
    (outline.lift : Outline Rat) ≠ [] := by
  obtain ⟨b, hb, -⟩ := hp
  exact mt List.map_eq_nil_iff.mp (h.ne_nil hb)

end Outline

/-! ## Near a region -/

/-- Whether a point is at most this far from a point of a region, in each coordinate. -/
def Region.Near (r : Region Int) (p : Point Rat) (distance : Rat) : Prop :=
  ∃ c, r.Closure c ∧ p.Within c distance

/-- Next to a region is in it, if that is no distance at all. -/
theorem Region.Near.closure {r : Region Int} {p : Point Rat} (h : r.Near p 0) : r.Closure p := by
  obtain ⟨c, hc, hp⟩ := h
  rwa [hp.eq]

namespace Outline

/-- A coordinate that comes back is within a step of the region, if where the motion ends is short
of where it was aimed. -/
theorem abs_settled_sub_le_of_short {step margin : Rat} (hstep : 0 ≤ step)
    (hmargin : margin ≤ 1 + step) {before asked origin last c : Rat}
    (h : Coordinate.Short last c (nudged step before asked - origin) margin) :
    |settled step before asked origin last - origin - c| ≤ step := by
  rcases h with rfl | ⟨hlt, hle⟩
  · exact abs_settled_sub_le hstep before asked origin last
  · have hkept : ¬(last == nudged step before asked - origin) = true := fun heq =>
      hlt.ne (beq_iff_eq.mp heq)
    rw [settled, if_neg hkept, add_sub_cancel_right]
    linarith

/-- A motion that starts in a region and is confined to its outline ends within a step of it, if the
margin is at most one and the step together. -/
theorem Exact.confine_near_of_le {outline : Outline Int} {r : Region Int} (h : Exact outline r)
    {origin before : Point Rat} (hbefore : r.Closure (before.relativeTo origin)) {margin step : Rat}
    (hmargin : 0 ≤ margin ∧ margin ≤ 1 + step) (hstep : 0 ≤ step) (asked : Point Rat) :
    ∃ confined, (outline.lift : Outline Rat).confine origin before asked margin step =
      .ok confined ∧ r.Near (confined.position.relativeTo origin) step := by
  have hne := h.lift_ne_nil hbefore
  obtain ⟨last, borders, hclamp, hclamped⟩ := outline.lift.exists_clamp margin
    (requested step origin before asked) (requested step origin before asked).directions
  refine ⟨_, confine_of_clamp hne hclamp, ?_⟩
  cases borders with
  | nil =>
    cases hclamped with
    | unhindered hfree =>
      exact ⟨_, (h.joined_of_unhindered hbefore hfree).closure_right,
        within_requested hstep origin before asked⟩
  | cons b borders =>
    obtain ⟨c, hc, hx, hy⟩ := hclamped.exists_short h (Segment.oneWay_directions _) hmargin.1
      (Segment.heads_directions _) (List.cons_ne_nil b borders)
    exact ⟨c, hc, abs_settled_sub_le_of_short hstep hmargin.2 hx,
      abs_settled_sub_le_of_short hstep hmargin.2 hy⟩

theorem Exact.confine_near {outline : Outline Int} {r : Region Int} (h : Exact outline r)
    {origin before : Point Rat} (hbefore : r.Closure (before.relativeTo origin)) {margin : Rat}
    (hmargin : 0 ≤ margin ∧ margin ≤ 1) {step : Rat} (hstep : 0 ≤ step) (asked : Point Rat) :
    ∃ confined, (outline.lift : Outline Rat).confine origin before asked margin step =
      .ok confined ∧ r.Near (confined.position.relativeTo origin) step :=
  h.confine_near_of_le hbefore ⟨hmargin.1, hmargin.2.trans (le_add_of_nonneg_right hstep)⟩ hstep
    asked

/-- A motion that is never at a border that blocks it ends where it asks to go. -/
theorem Exact.confine_unhindered {outline : Outline Int} {r : Region Int} (h : Exact outline r)
    (hne : (outline.lift : Outline Rat) ≠ []) {origin before asked : Point Rat} {step : Rat}
    (hstep : 0 ≤ step)
    (hfree : ∀ t, 0 ≤ t → t ≤ 1 → ∀ b ∈ outline,
      b.Holds ((requested step origin before asked).along t) →
        ¬b.blocksAny (requested step origin before asked).directions = true) (margin : Rat) :
    (outline.lift : Outline Rat).confine origin before asked margin step = .ok ⟨asked, []⟩ := by
  obtain ⟨last, borders, position, hconfine, hclamped, -, hasked⟩ :=
    exists_confine hne hstep origin before asked margin
  rw [hconfine]
  cases hclamped with
  | unhindered => rw [hasked rfl]
  | pinned hit => cases hit.symm.trans (h.firstHit?_eq_none hfree)

end Outline

/-- A motion that starts in a region that is built, and is confined to its outline with a margin
of at most one, ends within a step of the region. Without a step it ends in the region. -/
theorem Region.Built.confined_near {r : Region Int} (h : r.Built) {origin before : Point Rat}
    (hbefore : r.Closure (before.relativeTo origin)) {margin : Rat}
    (hmargin : 0 ≤ margin ∧ margin ≤ 1) {step : Rat} (hstep : 0 ≤ step) (asked : Point Rat) :
    ∃ outline confined, Outline.ofRegion? r = .ok outline ∧
      (outline.lift : Outline Rat).confine origin before asked margin step = .ok confined ∧
      r.Near (confined.position.relativeTo origin) step ∧
      (step = 0 → r.Closure (confined.position.relativeTo origin)) := by
  obtain ⟨outline, houtline, hexact⟩ := Outline.exists_ofRegion? h.banded
  obtain ⟨confined, hconfined, hnear⟩ := hexact.confine_near hbefore hmargin hstep asked
  refine ⟨outline, confined, houtline, hconfined, hnear, ?_⟩
  rintro rfl
  exact hnear.closure

/-- A motion out of a region of two touching boxes, from the edge of the upper one. -/
theorem confined_near_stairs : ∃ r : Region Int,
    Region.ofRectangles? [⟨0, 0, 2, 1⟩, ⟨1, 1, 2, 1⟩] = .ok r ∧
      r.Closure (Point.relativeTo ⟨3, 4⟩ ⟨2, 4⟩) ∧
      ∃ outline confined, Outline.ofRegion? r = .ok outline ∧
        (outline.lift : Outline Rat).confine ⟨2, 4⟩ ⟨3, 4⟩ ⟨9, 9⟩ 1 (1 / 256) = .ok confined ∧
        r.Near (confined.position.relativeTo ⟨2, 4⟩) (1 / 256) ∧
        ((1 / 256 : Rat) = 0 → r.Closure (confined.position.relativeTo ⟨2, 4⟩)) := by
  obtain ⟨r, hr, hcovers⟩ := Region.exists_stairs
  have hstart : r.Closure (Point.relativeTo ⟨3, 4⟩ ⟨2, 4⟩) :=
    (r.closure_iff _).mpr ⟨1, 0, hcovers, by norm_num [InPixel, InCell, Point.relativeTo]⟩
  exact ⟨r, hr, hstart, (Region.Built.ofRectangles hr).confined_near hstart (by norm_num)
    (by norm_num) ⟨9, 9⟩⟩

end Confinement
