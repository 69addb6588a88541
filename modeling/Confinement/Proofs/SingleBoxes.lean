import Confinement.Proofs.Confining
import Confinement.Proofs.Unbroken

/-!
# Regions of one box

In a region of one box, a motion without a step is confined in each coordinate on its own : one that
would grow up to the far edge or beyond ends a margin short of it, one that would fall below the
near edge ends at it, and any other ends where it is aimed (`Box.confine_eq_confined`). Which of two
borders the search comes upon first makes no difference.

While a motion is stopped, each coordinate is either settled at where it is confined, or still free
and aimed at its goal or at the edge next to that (`Coordinate.Aimed`). A border that is hit
settles the coordinate across it and keeps the other one aimed (`Box.Aimed.pin`). When no border is
hit any more, no coordinate leaves the box on its way, as the first one that did would meet the edge
that it leaves by (`Box.Aimed.eq_confined`).
-/

namespace Confinement

/-! ## One coordinate -/

namespace Coordinate

/-- Where a coordinate is confined that goes from `start` to `goal` in the range from `low` to
before `high`. -/
def confined (low high margin start goal : Rat) : Rat :=
  if start < goal ∧ high ≤ goal then high - margin else goal ⊔ low

/-- A range with room for a margin, and a coordinate in it. -/
structure Room (low high margin start : Rat) : Prop where
  low_le : low ≤ start
  lt_high : start < high
  nonneg : 0 ≤ margin
  le_width : margin ≤ high - low

/-- Where a coordinate is aimed while its motion is stopped. As long as it is free to grow or fall
towards its goal, that is the goal or the end of the range next to it; once it is settled, it is
where the coordinate is confined. -/
inductive Aimed (low high margin start goal : Rat) (grows falls : Bool) (stop : Rat) : Prop where
  | free (grows_iff : grows = true ↔ start < goal) (falls_iff : falls = true ↔ goal < start)
    (aim : stop = goal ∨ stop = clamp goal low high)
  | settled (grows_eq : grows = false) (falls_eq : falls = false)
    (aim : stop = confined low high margin start goal)

/-- Whether a coordinate that goes from `start` to `stop` leaves a range by the end `line`, after a
share of its way, in a direction in which it is free. -/
structure Leaves (low high start stop : Rat) (grows falls : Bool) (line share : Rat) : Prop where
  edge : line = low ∧ falls = true ∨ line = high ∧ grows = true
  moves : stop - start ≠ 0
  share_mem : 0 ≤ share ∧ share ≤ 1
  at_line : start + share * (stop - start) = line
  before : ∀ t, 0 ≤ t → t ≤ share →
    low ≤ start + t * (stop - start) ∧ start + t * (stop - start) ≤ high

variable {low high margin start goal stop line : Rat} {grows falls : Bool}

theorem Room.confined_mem (h : Room low high margin start) :
    low ≤ confined low high margin start goal ∧ confined low high margin start goal ≤ high := by
  have := h.nonneg
  have := h.le_width
  unfold confined
  split
  · constructor <;> linarith
  · rename_i hkept
    refine ⟨le_sup_right, sup_le (le_of_not_gt fun hlt => ?_) (h.low_le.trans h.lt_high.le)⟩
    exact hkept ⟨h.lt_high.trans hlt, hlt.le⟩

/-- A coordinate on its way to where it is confined stays in the range. -/
theorem Room.mem_of_share (h : Room low high margin start)
    (hstop : stop = confined low high margin start goal) {t : Rat} (ht : 0 ≤ t ∧ t ≤ 1) :
    low ≤ start + t * (stop - start) ∧ start + t * (stop - start) ≤ high :=
  Set.ordConnected_Icc.uIcc_subset ⟨h.low_le, h.lt_high.le⟩ (hstop ▸ h.confined_mem)
    (Segment.share_mem_uIcc ht)

/-- Up to the share after which a coordinate is at an end of a range, it stays in the range. -/
theorem mem_of_share_le (hstart : low ≤ start ∧ start ≤ high) (hline : line = low ∨ line = high)
    {s t : Rat} (hs : start + s * (stop - start) = line) (ht : 0 ≤ t) (hts : t ≤ s) :
    low ≤ start + t * (stop - start) ∧ start + t * (stop - start) ≤ high := by
  have hmem : low ≤ line ∧ line ≤ high := by
    rcases hline with rfl | rfl
    · exact ⟨le_rfl, hstart.1.trans hstart.2⟩
    · exact ⟨hstart.1.trans hstart.2, le_rfl⟩
  rcases le_total start stop with hle | hle
  · have hgrown := mul_le_mul_of_nonneg_right hts (sub_nonneg.mpr hle)
    have hback := mul_nonneg ht (sub_nonneg.mpr hle)
    constructor <;> linarith
  · have hfallen := mul_le_mul_of_nonpos_right hts (sub_nonpos.mpr hle)
    have hforth := mul_nonpos_of_nonneg_of_nonpos ht (sub_nonpos.mpr hle)
    constructor <;> linarith

/-- A coordinate between two others lies a share of the way from the one to the other. -/
theorem exists_share_of_mem_uIcc {z : Rat} (hz : z ∈ Set.uIcc start stop)
    (hmoves : stop - start ≠ 0) : ∃ s, (0 ≤ s ∧ s ≤ 1) ∧ start + s * (stop - start) = z := by
  rcases Set.mem_uIcc.mp hz with hz | hz
  · exact exists_share (lt_of_le_of_ne (hz.1.trans hz.2) (sub_ne_zero.mp hmoves).symm) hz
  · obtain ⟨s, hs, hat⟩ :=
      exists_share (lt_of_le_of_ne (hz.1.trans hz.2) (sub_ne_zero.mp hmoves)) hz
    exact ⟨1 - s, ⟨sub_nonneg.mpr hs.2, sub_le_self 1 hs.1⟩, by linarith⟩

/-- A coordinate that goes to an end of its range or beyond leaves the range there. -/
theorem exists_leaves (hstart : low ≤ start ∧ start ≤ high)
    (hedge : line = low ∧ falls = true ∨ line = high ∧ grows = true)
    (hline : line ∈ Set.uIcc start stop) (hmoves : stop - start ≠ 0) :
    ∃ s, Leaves low high start stop grows falls line s := by
  obtain ⟨s, hs, hat⟩ := exists_share_of_mem_uIcc hline hmoves
  have hends : line = low ∨ line = high := hedge.imp And.left And.left
  exact ⟨s, hedge, hmoves, hs, hat, fun t => mem_of_share_le hstart hends hat⟩

namespace Aimed

/-- A coordinate that a motion does not take out of the range ends where it is confined. -/
theorem eq_confined_or_leaves (h : Aimed low high margin start goal grows falls stop)
    (room : Room low high margin start) :
    stop = confined low high margin start goal ∨
      ∃ line s, Leaves low high start stop grows falls line s := by
  have hstart : low ≤ start ∧ start ≤ high := ⟨room.low_le, room.lt_high.le⟩
  cases h with
  | settled _ _ aim => exact Or.inl aim
  | free grows_iff falls_iff aim =>
    rw [clamp_rat] at aim
    by_cases hhigh : high ≤ goal
    · -- It grows up to the far end, whether it is aimed there or beyond.
      have hlt : start < goal := room.lt_high.trans_le hhigh
      have hstop : high ≤ stop := by
        rcases aim with rfl | rfl
        · exact hhigh
        · exact le_inf (hhigh.trans le_sup_left) le_rfl
      have hmoves : stop - start ≠ 0 := (sub_pos.mpr (room.lt_high.trans_le hstop)).ne'
      exact Or.inr ⟨high, exists_leaves hstart (Or.inr ⟨rfl, grows_iff.mpr hlt⟩)
        (Set.mem_uIcc_of_le room.lt_high.le hstop) hmoves⟩
    · have hconfined : confined low high margin start goal = goal ⊔ low :=
        if_neg fun hgrows => hhigh hgrows.2
      have hclamp : (goal ⊔ low) ⊓ high = goal ⊔ low :=
        inf_eq_left.mpr (sup_le (not_le.mp hhigh).le (room.low_le.trans room.lt_high.le))
      rw [hclamp] at aim
      rcases aim with rfl | rfl
      · by_cases hlow : low ≤ stop
        · exact Or.inl (by rw [hconfined, sup_eq_left.mpr hlow])
        · have hlt : stop < start := (not_le.mp hlow).trans_le room.low_le
          exact Or.inr ⟨low, exists_leaves hstart (Or.inl ⟨rfl, falls_iff.mpr hlt⟩)
            (Set.mem_uIcc_of_ge (not_le.mp hlow).le room.low_le) (sub_neg.mpr hlt).ne⟩
      · exact Or.inl hconfined.symm

/-- A coordinate that is free to grow, and reaches the far end of the range on its way, is confined
a margin short of that end. -/
theorem confined_of_grows (h : Aimed low high margin start goal grows falls stop)
    (room : Room low high margin start) (hgrows : grows = true)
    (hline : high ∈ Set.uIcc start stop) :
    falls = false ∧ confined low high margin start goal = high - margin := by
  cases h with
  | settled grows_eq _ _ => cases grows_eq.symm.trans hgrows
  | free grows_iff falls_iff aim =>
    have hlt := grows_iff.mp hgrows
    have hstop : high ≤ stop := by
      rcases Set.mem_uIcc.mp hline with hle | hle
      · exact hle.2
      · exact absurd hle.2 (not_le.mpr room.lt_high)
    have hgoal : high ≤ goal := by
      rcases aim with rfl | rfl
      · exact hstop
      · rw [clamp_rat] at hstop
        exact (le_sup_iff.mp (hstop.trans inf_le_left)).resolve_right
          (not_le.mpr (room.low_le.trans_lt room.lt_high))
    exact ⟨Bool.eq_false_iff.mpr fun hfalls => (falls_iff.mp hfalls).not_gt hlt,
      if_pos ⟨hlt, hgoal⟩⟩

/-- A coordinate that is free to fall, and reaches the near end of the range on its way, is confined
at that end. -/
theorem confined_of_falls (h : Aimed low high margin start goal grows falls stop)
    (room : Room low high margin start) (hfalls : falls = true)
    (hline : low ∈ Set.uIcc start stop) :
    grows = false ∧ confined low high margin start goal = low := by
  cases h with
  | settled _ falls_eq _ => cases falls_eq.symm.trans hfalls
  | free grows_iff falls_iff aim =>
    have hlt := falls_iff.mp hfalls
    have hgoal : goal ≤ low := by
      rcases Set.mem_uIcc.mp hline with hle | hle
      · exact hlt.le.trans hle.1
      · rcases aim with rfl | rfl
        · exact hle.1
        · rw [clamp_rat] at hle
          exact le_sup_left.trans ((inf_le_iff.mp hle.1).resolve_right
            (not_le.mpr (room.low_le.trans_lt room.lt_high)))
    have hnot : ¬(start < goal ∧ high ≤ goal) := fun hgrows => hgrows.1.not_gt hlt
    exact ⟨Bool.eq_false_iff.mpr fun hgrows => (grows_iff.mp hgrows).not_gt hlt,
      (if_neg hnot).trans (sup_eq_right.mpr hgoal)⟩

/-- A coordinate stays aimed when it is clamped to the range. -/
theorem clamp (h : Aimed low high margin start goal grows falls stop)
    (room : Room low high margin start) :
    Aimed low high margin start goal grows falls (clamp stop low high) := by
  have hle : low ≤ high := room.low_le.trans room.lt_high.le
  cases h with
  | free grows_iff falls_iff aim =>
    refine .free grows_iff falls_iff (Or.inr ?_)
    rcases aim with rfl | rfl
    · rfl
    · exact clamp_of_mem (clamp_mem hle)
  | settled grows_eq falls_eq aim =>
    refine .settled grows_eq falls_eq ?_
    rw [aim]
    exact clamp_of_mem room.confined_mem

/-- A coordinate that reaches an end of the range on its way, in a direction in which it is free, is
settled there, a margin short of the far end. -/
theorem pin (h : Aimed low high margin start goal grows falls stop)
    (room : Room low high margin start)
    (hedge : line = low ∧ falls = true ∨ line = high ∧ grows = true)
    (hline : line ∈ Set.uIcc start stop) :
    Aimed low high margin start goal false false (line - if grows then margin else 0) := by
  refine .settled rfl rfl ?_
  rcases hedge with ⟨rfl, hfalls⟩ | ⟨rfl, hgrows⟩
  · obtain ⟨hgrows, hconfined⟩ := h.confined_of_falls room hfalls hline
    rw [hconfined, hgrows, if_neg Bool.false_ne_true, sub_zero]
  · obtain ⟨-, hconfined⟩ := h.confined_of_grows room hgrows hline
    rw [hconfined, if_pos hgrows]

end Aimed

end Coordinate

/-! ## Borders of whole numbers -/

namespace Border

variable {d : Direction} {motion : Segment Rat} {s : Rat}

theorem isHorizontal_vertical {x top bottom : Int} (h : top < bottom) :
    (vertical x top bottom d).isHorizontal = false :=
  beq_eq_false_iff_ne.mpr h.ne

theorem pin_horizontal (left right y : Int) (p : Point Rat) (free : Directions) (margin : Rat) :
    ((horizontal left right y d).map (Lift.lift : Int → Rat)).pin p free margin =
      ⟨Coordinate.clamp p.x left right, y - if free.down then margin else 0⟩ := by
  unfold pin
  rw [isHorizontal_lift, isHorizontal_horizontal, if_pos rfl]
  rfl

theorem pin_vertical {x top bottom : Int} (h : top < bottom) (p : Point Rat) (free : Directions)
    (margin : Rat) :
    ((vertical x top bottom d).map (Lift.lift : Int → Rat)).pin p free margin =
      ⟨x - if free.right then margin else 0, Coordinate.clamp p.y top bottom⟩ := by
  unfold pin
  rw [isHorizontal_lift, isHorizontal_vertical h, if_neg Bool.false_ne_true]
  rfl

theorem axis_horizontal (left right y : Int) : (horizontal left right y d).axis = .y := by
  rw [axis, isHorizontal_horizontal, if_pos rfl]

theorem axis_vertical {x top bottom : Int} (h : top < bottom) :
    (vertical x top bottom d).axis = .x := by
  rw [axis, isHorizontal_vertical h, if_neg Bool.false_ne_true]

theorem blocksAny_horizontal (left right y : Int) (hd : d.axis = .y) (free : Directions) :
    (horizontal left right y d).blocksAny free = free.contains d :=
  blocksAny_of_only rfl ((axis_horizontal left right y).trans hd.symm) free

theorem blocksAny_vertical {x top bottom : Int} (h : top < bottom) (hd : d.axis = .x)
    (free : Directions) : (vertical x top bottom d).blocksAny free = free.contains d :=
  blocksAny_of_only rfl ((axis_vertical h).trans hd.symm) free

/-- A motion that goes up or down meets a horizontal border where it is at a point of it. -/
theorem exists_meetAt_horizontal {left right y : Int} (h : left < right)
    (hmoves : motion.stop.y - motion.start.y ≠ 0) (hs : 0 ≤ s ∧ s ≤ 1)
    (hx : (left : Rat) ≤ (motion.along s).x ∧ (motion.along s).x ≤ right)
    (hy : (motion.along s).y = y) :
    ∃ u, ((horizontal left right y d).map (Lift.lift : Int → Rat)).line.MeetAt motion u s := by
  have hproper : (horizontal left right y d).Proper := Or.inl ⟨rfl, h⟩
  refine hproper.exists_meetAt_of_across ?_ hs ⟨hx, hy.ge, hy.le⟩
  rwa [isHorizontal_horizontal, if_pos rfl]

/-- A motion that goes left or right meets a vertical border where it is at a point of it. -/
theorem exists_meetAt_vertical {x top bottom : Int} (h : top < bottom)
    (hmoves : motion.stop.x - motion.start.x ≠ 0) (hs : 0 ≤ s ∧ s ≤ 1)
    (hx : (motion.along s).x = x)
    (hy : (top : Rat) ≤ (motion.along s).y ∧ (motion.along s).y ≤ bottom) :
    ∃ u, ((vertical x top bottom d).map (Lift.lift : Int → Rat)).line.MeetAt motion u s := by
  have hproper : (vertical x top bottom d).Proper := Or.inr ⟨rfl, h⟩
  refine hproper.exists_meetAt_of_across ?_ hs ⟨⟨hx.ge, hx.le⟩, hy⟩
  rwa [isHorizontal_vertical h, if_neg Bool.false_ne_true]

end Border

/-! ## Edges of a box -/

namespace Box

/-- The edges of a box, in the order of an outline. -/
def edges (b : Box Int) : Outline Int :=
  [.horizontal b.left b.right b.top .up, .vertical b.left b.top b.bottom .left,
    .vertical b.right b.top b.bottom .right, .horizontal b.left b.right b.bottom .down]

theorem join?_edges (b : Box Int) : Run.join? b.edges = .ok b.edges := by
  have hrow : ¬b.top = b.bottom := Int.ne_of_lt b.top_lt_bottom
  have hblocks : ¬Directions.only .left = Directions.only .right := by decide
  simp [Run.join?, edges, Run.step, Border.isHorizontal, Border.horizontal, Border.vertical, hrow,
    Run.keyFault?, Coordinate.keyFault?, Run.stepVertical, Run.lengthen?, Run.closeAt, Run.endsAt,
    hblocks, Point.same, bind, Except.bind, pure, Except.pure]

/-- The outline of a region of one box are the edges of that box. -/
theorem ofRegion?_singleton (b : Box Int) : Outline.ofRegion? ⟨[b]⟩ = .ok b.edges := by
  have hrows : Outline.ofRows? (rowsOf [b]) = .ok b.edges :=
    Outline.ofRows?_cons (Outline.under?_nil [b])
  simp only [Outline.ofRegion?, hrows]
  show (Run.join? b.edges).mapError OutlineError.run = .ok b.edges
  rw [b.join?_edges]
  rfl

variable {b : Box Int} {free : Directions} {line : Rat}

/-- An edge that blocks one of the directions lies along a side of the box across that
direction. -/
theorem edge_cases {c : Border Int} (hc : c ∈ b.edges) (hblocks : c.blocksAny free = true) :
    (∃ y d, c = .horizontal b.left b.right y d ∧
        ((y : Rat) = b.top ∧ free.up = true ∨ (y : Rat) = b.bottom ∧ free.down = true)) ∨
      ∃ x d, c = .vertical x b.top b.bottom d ∧
        ((x : Rat) = b.left ∧ free.left = true ∨ (x : Rat) = b.right ∧ free.right = true) := by
  simp only [edges, List.mem_cons, List.not_mem_nil, or_false] at hc
  rcases hc with rfl | rfl | rfl | rfl
  · rw [Border.blocksAny_horizontal _ _ _ rfl] at hblocks
    exact Or.inl ⟨_, _, rfl, Or.inl ⟨rfl, hblocks⟩⟩
  · rw [Border.blocksAny_vertical b.top_lt_bottom rfl] at hblocks
    exact Or.inr ⟨_, _, rfl, Or.inl ⟨rfl, hblocks⟩⟩
  · rw [Border.blocksAny_vertical b.top_lt_bottom rfl] at hblocks
    exact Or.inr ⟨_, _, rfl, Or.inr ⟨rfl, hblocks⟩⟩
  · rw [Border.blocksAny_horizontal _ _ _ rfl] at hblocks
    exact Or.inl ⟨_, _, rfl, Or.inr ⟨rfl, hblocks⟩⟩

/-- A motion that leaves a box to the left or the right meets the edge there. -/
theorem exists_meetAt_of_leaves_x {motion : Segment Rat} {s : Rat}
    (h : Coordinate.Leaves b.left b.right motion.start.x motion.stop.x free.right free.left line s)
    (hy : (b.top : Rat) ≤ (motion.along s).y ∧ (motion.along s).y ≤ b.bottom) :
    ∃ c ∈ b.edges, c.blocksAny free = true ∧
      ∃ u, (c.map (Lift.lift : Int → Rat)).line.MeetAt motion u s := by
  rcases h.edge with ⟨rfl, hleft⟩ | ⟨rfl, hright⟩
  · exact ⟨.vertical b.left b.top b.bottom .left, by simp [edges],
      (Border.blocksAny_vertical b.top_lt_bottom rfl free).trans hleft,
      Border.exists_meetAt_vertical b.top_lt_bottom h.moves h.share_mem h.at_line hy⟩
  · exact ⟨.vertical b.right b.top b.bottom .right, by simp [edges],
      (Border.blocksAny_vertical b.top_lt_bottom rfl free).trans hright,
      Border.exists_meetAt_vertical b.top_lt_bottom h.moves h.share_mem h.at_line hy⟩

/-- A motion that leaves a box at the top or the bottom meets the edge there. -/
theorem exists_meetAt_of_leaves_y {motion : Segment Rat} {s : Rat}
    (h : Coordinate.Leaves b.top b.bottom motion.start.y motion.stop.y free.down free.up line s)
    (hx : (b.left : Rat) ≤ (motion.along s).x ∧ (motion.along s).x ≤ b.right) :
    ∃ c ∈ b.edges, c.blocksAny free = true ∧
      ∃ u, (c.map (Lift.lift : Int → Rat)).line.MeetAt motion u s := by
  rcases h.edge with ⟨rfl, hup⟩ | ⟨rfl, hdown⟩
  · exact ⟨.horizontal b.left b.right b.top .up, by simp [edges],
      (Border.blocksAny_horizontal _ _ _ rfl free).trans hup,
      Border.exists_meetAt_horizontal b.left_lt_right h.moves h.share_mem hx h.at_line⟩
  · exact ⟨.horizontal b.left b.right b.bottom .down, by simp [edges],
      (Border.blocksAny_horizontal _ _ _ rfl free).trans hdown,
      Border.exists_meetAt_horizontal b.left_lt_right h.moves h.share_mem hx h.at_line⟩

/-! ## Motions in a box -/

/-- Where a motion in a box is confined. -/
def confined (b : Box Int) (margin : Rat) (start goal : Point Rat) : Point Rat :=
  ⟨Coordinate.confined b.left b.right margin start.x goal.x,
    Coordinate.confined b.top b.bottom margin start.y goal.y⟩

/-- A box with room for a margin, and a point in it. -/
structure Room (b : Box Int) (margin : Rat) (start : Point Rat) : Prop where
  x : Coordinate.Room b.left b.right margin start.x
  y : Coordinate.Room b.top b.bottom margin start.y

/-- Where a motion in a box is aimed while it is stopped, free in these directions. -/
structure Aimed (b : Box Int) (margin : Rat) (start goal : Point Rat) (free : Directions)
    (stop : Point Rat) : Prop where
  x : Coordinate.Aimed b.left b.right margin start.x goal.x free.right free.left stop.x
  y : Coordinate.Aimed b.top b.bottom margin start.y goal.y free.down free.up stop.y

variable {margin : Rat} {motion : Segment Rat} {goal : Point Rat}

/-- A motion is aimed at its own end before it is stopped. -/
theorem aimed_directions (b : Box Int) (margin : Rat) (motion : Segment Rat) :
    b.Aimed margin motion.start motion.stop motion.directions motion.stop :=
  ⟨.free motion.contains_right motion.contains_left (Or.inl rfl),
    .free motion.contains_down motion.contains_up (Or.inl rfl)⟩

/-- An edge that a motion meets settles the coordinate across it, and leaves the other one aimed. -/
theorem Aimed.pin (h : b.Aimed margin motion.start goal free motion.stop)
    (room : b.Room margin motion.start) {c : Border Int} (hc : c ∈ b.edges)
    (hblocks : c.blocksAny free = true) {t u : Rat}
    (hmeet : (c.map (Lift.lift : Int → Rat)).line.MeetAt motion u t) :
    b.Aimed margin motion.start goal (free.without c.axis)
      ((c.map (Lift.lift : Int → Rat)).pin motion.stop free margin) := by
  have hbetween := motion.along_between hmeet.on_way
  rcases edge_cases hc hblocks with ⟨y, d, rfl, hedge⟩ | ⟨x, d, rfl, hedge⟩
  · have hproper : (Border.horizontal b.left b.right y d).Proper := Or.inl ⟨rfl, b.left_lt_right⟩
    have hat : (motion.along t).y = y :=
      le_antisymm (hproper.holds_of_meetAt hmeet).2.2 (hproper.holds_of_meetAt hmeet).2.1
    rw [Border.axis_horizontal, Border.pin_horizontal]
    exact ⟨h.x.clamp room.x, h.y.pin room.y hedge (hat ▸ hbetween.2)⟩
  · have hproper : (Border.vertical x b.top b.bottom d).Proper := Or.inr ⟨rfl, b.top_lt_bottom⟩
    have hat : (motion.along t).x = x :=
      le_antisymm (hproper.holds_of_meetAt hmeet).1.2 (hproper.holds_of_meetAt hmeet).1.1
    rw [Border.axis_vertical b.top_lt_bottom, Border.pin_vertical b.top_lt_bottom]
    exact ⟨h.x.pin room.x hedge (hat ▸ hbetween.1), h.y.clamp room.y⟩

/-- A motion that meets no edge that blocks it ends where it is confined. -/
theorem Aimed.eq_confined (h : b.Aimed margin motion.start goal free motion.stop)
    (room : b.Room margin motion.start) (hnone : ∀ c ∈ b.edges, c.blocksAny free = true →
      ∀ t u, ¬(c.map (Lift.lift : Int → Rat)).line.MeetAt motion u t) :
    motion.stop = b.confined margin motion.start goal := by
  have hnot_x {s line : Rat} (hx : Coordinate.Leaves b.left b.right motion.start.x motion.stop.x
      free.right free.left line s) :
      ¬((b.top : Rat) ≤ (motion.along s).y ∧ (motion.along s).y ≤ b.bottom) := by
    intro hy
    obtain ⟨c, hc, hblocks, u, hmeet⟩ := exists_meetAt_of_leaves_x hx hy
    exact hnone c hc hblocks s u hmeet
  have hnot_y {s line : Rat} (hy : Coordinate.Leaves b.top b.bottom motion.start.y motion.stop.y
      free.down free.up line s) :
      ¬((b.left : Rat) ≤ (motion.along s).x ∧ (motion.along s).x ≤ b.right) := by
    intro hx
    obtain ⟨c, hc, hblocks, u, hmeet⟩ := exists_meetAt_of_leaves_y hy hx
    exact hnone c hc hblocks s u hmeet
  rcases h.x.eq_confined_or_leaves room.x with hx | ⟨xline, s, hx⟩ <;>
    rcases h.y.eq_confined_or_leaves room.y with hy | ⟨yline, t, hy⟩
  · exact congrArg₂ Point.mk hx hy
  · exact absurd (room.x.mem_of_share hx hy.share_mem) (hnot_y hy)
  · exact absurd (room.y.mem_of_share hy hx.share_mem) (hnot_x hx)
  · -- The coordinate that leaves the box first does so while the other one is still inside.
    rcases le_total s t with hst | hts
    · exact absurd (hy.before s hx.share_mem.1 hst) (hnot_x hx)
    · exact absurd (hx.before t hy.share_mem.1 hts) (hnot_y hy)

end Box

namespace Outline

/-- A motion that starts in a box is stopped where it is confined, in whichever order the edges
stand. -/
theorem Clamped.stop_eq_confined {b : Box Int} {outline : Outline Int}
    (hedges : ∀ c, c ∈ outline ↔ c ∈ b.edges) {margin : Rat} {motion last : Segment Rat}
    {free : Directions} {borders : List (Border Rat)} {goal : Point Rat}
    (hclamped : Clamped outline.lift margin motion free last borders)
    (room : b.Room margin motion.start)
    (haimed : b.Aimed margin motion.start goal free motion.stop) :
    last.stop = b.confined margin motion.start goal := by
  induction hclamped with
  | unhindered hfree =>
    exact haimed.eq_confined room fun c hc hblocks t u =>
      not_meetAt_of_unhindered hfree ((hedges c).mpr hc) hblocks t u
  | pinned hit rest ih =>
    obtain ⟨t, hit⟩ := exists_hitAt hit
    obtain ⟨u, hmeet⟩ := hit.meets
    obtain ⟨c, hc, rfl, hblocks⟩ := hit.exists_mem
    rw [Border.axis_lift] at ih
    exact ih room (haimed.pin room ((hedges c).mp hc) hblocks hmeet)

end Outline

namespace Box

theorem room_of_contains {b : Box Int} {p : Point Rat} (hp : b.contains p = true) {margin : Rat}
    (hmargin : 0 ≤ margin ∧ margin ≤ b.width ∧ margin ≤ b.height) : b.Room margin p := by
  obtain ⟨hleft, hright, htop, hbottom⟩ := decide_eq_true_iff.mp hp
  obtain ⟨hnonneg, hwidth, hheight⟩ := hmargin
  rw [width, Int.cast_sub] at hwidth
  rw [height, Int.cast_sub] at hheight
  exact ⟨⟨hleft, hright, hnonneg, hwidth⟩, htop, hbottom, hnonneg, hheight⟩

/-- In a region of one box, with a margin that is at most its width and its height, a motion without
a step ends where each coordinate on its own is confined, in whichever order the borders of the
outline stand. -/
theorem confine_eq_confined {b : Box Int} {origin before : Point Rat}
    (hbefore : b.contains (before.relativeTo origin) = true) {margin : Rat}
    (hmargin : 0 ≤ margin ∧ margin ≤ b.width ∧ margin ≤ b.height) (asked : Point Rat) :
    ∃ outline, Outline.ofRegion? ⟨[b]⟩ = .ok outline ∧
      ∀ shuffled : Outline Int, shuffled.Perm outline → ∃ confined,
        (shuffled.lift : Outline Rat).confine origin before asked margin 0 = .ok confined ∧
        confined.position =
          ⟨origin.x + Coordinate.confined b.left b.right margin (before.relativeTo origin).x
              (asked.relativeTo origin).x,
            origin.y + Coordinate.confined b.top b.bottom margin (before.relativeTo origin).y
              (asked.relativeTo origin).y⟩ := by
  refine ⟨b.edges, b.ofRegion?_singleton, fun shuffled hperm => ?_⟩
  have hne : (shuffled.lift : Outline Rat) ≠ [] := by
    intro hnil
    cases List.map_eq_nil_iff.mp hnil
    cases hperm.nil_eq
  obtain ⟨last, borders, position, hconfine, hclamped, hwithin, -⟩ :=
    Outline.exists_confine hne le_rfl origin before asked margin
  rw [Outline.requested_zero] at hclamped
  have hstop := hclamped.stop_eq_confined (fun c => hperm.mem_iff)
    (room_of_contains hbefore hmargin) (b.aimed_directions margin _)
  have hrelative := hwithin.eq.trans hstop
  exact ⟨⟨position, borders⟩, hconfine, congrArg₂ Point.mk
    (sub_eq_iff_eq_add'.mp (congrArg Point.x hrelative))
    (sub_eq_iff_eq_add'.mp (congrArg Point.y hrelative))⟩

/-- A box of ten columns and six rows. -/
def plate : Box Int :=
  { left := 0, top := 0, right := 10, bottom := 6 }

/-- A motion from the top of the plate out through its far corner ends a margin short of both
edges. -/
theorem confine_eq_confined_plate :
    plate.contains (Point.relativeTo ⟨6, 4⟩ ⟨2, 4⟩) = true ∧
    ((0 : Rat) ≤ 1 ∧ (1 : Rat) ≤ plate.width ∧ (1 : Rat) ≤ plate.height) ∧
    ∃ outline, Outline.ofRegion? ⟨[plate]⟩ = .ok outline ∧
      ∀ shuffled : Outline Int, shuffled.Perm outline → ∃ confined,
        (shuffled.lift : Outline Rat).confine ⟨2, 4⟩ ⟨6, 4⟩ ⟨18, 16⟩ 1 0 = .ok confined ∧
        confined.position = ⟨11, 9⟩ := by
  have hbefore : plate.contains (Point.relativeTo ⟨6, 4⟩ ⟨2, 4⟩) = true := by decide +kernel
  have hmargin : (0 : Rat) ≤ 1 ∧ (1 : Rat) ≤ plate.width ∧ (1 : Rat) ≤ plate.height := by
    decide +kernel
  have hx : 2 + Coordinate.confined plate.left plate.right 1 (6 - 2) (18 - 2) = 11 := by
    norm_num [Coordinate.confined, plate]
  have hy : 4 + Coordinate.confined plate.top plate.bottom 1 (4 - 4) (16 - 4) = 9 := by
    norm_num [Coordinate.confined, plate]
  obtain ⟨outline, houtline, hall⟩ := confine_eq_confined hbefore hmargin ⟨18, 16⟩
  refine ⟨hbefore, hmargin, outline, houtline, fun shuffled hperm => ?_⟩
  obtain ⟨confined, hconfined, hposition⟩ := hall shuffled hperm
  exact ⟨confined, hconfined, hposition.trans (congrArg₂ Point.mk hx hy)⟩

end Box

end Confinement
