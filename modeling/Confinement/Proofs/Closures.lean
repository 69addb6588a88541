import Confinement.Proofs.Contacts
import Confinement.Proofs.Outlines
import Mathlib.Data.Finset.Max
import Mathlib.Data.Rat.Floor

/-!
# Closed regions

A region with its edge is made of the closed pixels that it covers (`Region.closure_iff`). Of
every coordinate there is a cell between neighbouring grid lines that it is in and stays in for a
while when it moves (`InCell.exists_ahead`), so a motion always stays in one closed pixel for a
while. If the region covers that pixel, the motion goes on inside one of its boxes. If not, an
exact outline has a border between it and a pixel that is covered, at the point where the motion
is, and that border blocks it (`Outline.Exact.goes_on_or_blocked`).
-/

namespace Confinement

/-! ## Cells -/

/-- Whether a coordinate lies between two neighbouring grid lines, or on one of them. -/
def InCell (c : Int) (z : Rat) : Prop :=
  (c : Rat) ≤ z ∧ z ≤ c + 1

/-- A grid line lies in the cell that starts with it. -/
theorem inCell_line (c : Int) : InCell c c :=
  ⟨le_rfl, by linarith⟩

/-- A coordinate lies in the cell that starts last before it. -/
theorem inCell_floor (z : Rat) : InCell ⌊z⌋ z :=
  ⟨Int.floor_le z, (Int.lt_floor_add_one z).le⟩

/-- A margin of at most one short of a grid line lies in the cell that ends with it. -/
theorem inCell_short_of_line (c : Int) {margin : Rat} (h : 0 ≤ margin ∧ margin ≤ 1) :
    InCell (c - 1) (c - margin) := by
  constructor <;> push_cast <;> linarith

theorem inCell_before_line (c : Int) : InCell (c - 1) c := by
  simpa using inCell_short_of_line c ⟨le_rfl, zero_le_one⟩

/-- A coordinate between two grid lines lies in a cell between them. -/
theorem exists_inCell {low high : Int} (h : low < high) {z : Rat} (hlow : (low : Rat) ≤ z)
    (hhigh : z ≤ high) : ∃ c, low ≤ c ∧ c < high ∧ InCell c z := by
  rcases hhigh.lt_or_eq with hlt | rfl
  · exact ⟨⌊z⌋, Int.le_floor.mpr hlow, Int.floor_lt.mpr hlt, inCell_floor z⟩
  · refine ⟨high - 1, by omega, by omega, ?_, ?_⟩
    · push_cast
      linarith
    · push_cast
      linarith

/-- A coordinate in two different cells lies on the line between them. -/
theorem InCell.eq_of_succ {c : Int} {z : Rat} (h : InCell c z) (h' : InCell (c + 1) z) :
    z = ((c + 1 : Int) : Rat) := by
  refine le_antisymm ?_ h'.1
  have := h.2
  push_cast
  exact this

/-- A coordinate that grows from before the end of a cell stays in it for a while. -/
theorem InCell.exists_growing {c : Int} {z d : Rat} (hlow : (c : Rat) ≤ z) (hhigh : z < c + 1)
    (hd : 0 < d) : ∃ ε > 0, ∀ t, 0 ≤ t → t ≤ ε → InCell c (z + t * d) := by
  refine ⟨(c + 1 - z) / d, div_pos (by linarith) hd, fun t ht hle => ⟨?_, ?_⟩⟩
  · have := mul_nonneg ht hd.le
    linarith
  · have := (le_div_iff₀ hd).mp hle
    linarith

/-- A coordinate that falls from after the start of a cell stays in it for a while. -/
theorem InCell.exists_falling {c : Int} {z d : Rat} (hlow : (c : Rat) < z) (hhigh : z ≤ c + 1)
    (hd : d < 0) : ∃ ε > 0, ∀ t, 0 ≤ t → t ≤ ε → InCell c (z + t * d) := by
  refine ⟨(z - c) / -d, div_pos (by linarith) (by linarith), fun t ht hle => ⟨?_, ?_⟩⟩
  · have := (le_div_iff₀ (neg_pos.mpr hd)).mp hle
    linarith
  · have := mul_nonpos_of_nonneg_of_nonpos ht hd.le
    linarith

/-- A coordinate that moves from a cell stays in a cell for a while : in the same one, or in the
next one of its direction. -/
theorem InCell.exists_ahead {c : Int} {z : Rat} (h : InCell c z) (d : Rat) :
    ∃ c', InCell c' z ∧ (∃ ε > 0, ∀ t, 0 ≤ t → t ≤ ε → InCell c' (z + t * d)) ∧
      (c' = c ∨ 0 < d ∧ c' = c + 1 ∨ d < 0 ∧ c' = c - 1) := by
  obtain ⟨hlow, hhigh⟩ := h
  rcases lt_trichotomy d 0 with hd | rfl | hd
  · rcases hlow.lt_or_eq with hlt | heq
    · exact ⟨c, ⟨hlow, hhigh⟩, exists_falling hlt hhigh hd, Or.inl rfl⟩
    · have hlt : ((c - 1 : Int) : Rat) < z := by
        push_cast
        linarith
      have hle : z ≤ ((c - 1 : Int) : Rat) + 1 := by
        push_cast
        linarith
      exact ⟨c - 1, ⟨hlt.le, hle⟩, exists_falling hlt hle hd, Or.inr (Or.inr ⟨hd, rfl⟩)⟩
  · refine ⟨c, ⟨hlow, hhigh⟩, ⟨1, one_pos, fun t _ _ => ?_⟩, Or.inl rfl⟩
    rw [mul_zero, add_zero]
    exact ⟨hlow, hhigh⟩
  · rcases hhigh.lt_or_eq with hlt | heq
    · exact ⟨c, ⟨hlow, hhigh⟩, exists_growing hlow hlt hd, Or.inl rfl⟩
    · have hle : ((c + 1 : Int) : Rat) ≤ z := by
        push_cast
        linarith
      have hlt : z < ((c + 1 : Int) : Rat) + 1 := by
        push_cast
        linarith
      exact ⟨c + 1, ⟨hle, hlt.le⟩, exists_growing hle hlt hd, Or.inr (Or.inl ⟨hd, rfl⟩)⟩

/-! ## Boxes and regions with their edges -/

/-- Whether a point lies in a box or on its edge. -/
def Box.Closure (b : Box Int) (p : Point Rat) : Prop :=
  ((b.left : Rat) ≤ p.x ∧ p.x ≤ b.right) ∧ (b.top : Rat) ≤ p.y ∧ p.y ≤ b.bottom

instance (b : Box Int) (p : Point Rat) : Decidable (b.Closure p) :=
  inferInstanceAs (Decidable ((_ ∧ _) ∧ _ ∧ _))

/-- Whether a point lies in a region or on its edge. -/
def Region.Closure (r : Region Int) (p : Point Rat) : Prop :=
  ∃ b ∈ r.boxes, b.Closure p

instance (r : Region Int) (p : Point Rat) : Decidable (r.Closure p) :=
  inferInstanceAs (Decidable (∃ b ∈ r.boxes, b.Closure p))

/-- Whether a point lies in a pixel or on its edge. -/
def InPixel (x y : Int) (p : Point Rat) : Prop :=
  InCell x p.x ∧ InCell y p.y

theorem Box.closure_of_inPixel {b : Box Int} {x y : Int} (h : b.Covers x y) {p : Point Rat}
    (hp : InPixel x y p) : b.Closure p := by
  obtain ⟨hleft, hright, htop, hbottom⟩ := h
  obtain ⟨⟨hx, hx'⟩, hy, hy'⟩ := hp
  have hright' : (x : Rat) + 1 ≤ b.right := by exact_mod_cast hright
  have hbottom' : (y : Rat) + 1 ≤ b.bottom := by exact_mod_cast hbottom
  exact ⟨⟨(Int.cast_le.mpr hleft).trans hx, hx'.trans hright'⟩,
    (Int.cast_le.mpr htop).trans hy, hy'.trans hbottom'⟩

theorem Box.exists_inPixel {b : Box Int} {p : Point Rat} (h : b.Closure p) :
    ∃ x y, b.Covers x y ∧ InPixel x y p := by
  obtain ⟨x, hleft, hright, hx⟩ := exists_inCell b.left_lt_right h.1.1 h.1.2
  obtain ⟨y, htop, hbottom, hy⟩ := exists_inCell b.top_lt_bottom h.2.1 h.2.2
  exact ⟨x, y, ⟨hleft, hright, htop, hbottom⟩, hx, hy⟩

/-- The points of a region and its edge are those of the pixels that it covers. -/
theorem Region.closure_iff (r : Region Int) (p : Point Rat) :
    r.Closure p ↔ ∃ x y, r.Covers x y ∧ InPixel x y p := by
  constructor
  · rintro ⟨b, hb, hp⟩
    obtain ⟨x, y, hcov, hxy⟩ := Box.exists_inPixel hp
    exact ⟨x, y, ⟨b, hb, hcov⟩, hxy⟩
  · rintro ⟨x, y, ⟨b, hb, hcov⟩, hxy⟩
    exact ⟨b, hb, Box.closure_of_inPixel hcov hxy⟩

/-! ## Points of borders -/

/-- Whether a point lies on a border from left to right or from top to bottom. -/
def Border.Holds (b : Border Int) (p : Point Rat) : Prop :=
  ((b.line.start.x : Rat) ≤ p.x ∧ p.x ≤ b.line.stop.x) ∧
    (b.line.start.y : Rat) ≤ p.y ∧ p.y ≤ b.line.stop.y

namespace Border

variable {b : Border Int} {x y : Int} {p : Point Rat}

theorem AlongTop.holds (h : b.AlongTop x y) (hx : InCell x p.x) (hy : p.y = y) : b.Holds p := by
  obtain ⟨hstart, hstop, hleft, hright⟩ := h
  have hright' : (x : Rat) + 1 ≤ b.line.stop.x := by exact_mod_cast hright
  refine ⟨⟨(Int.cast_le.mpr hleft).trans hx.1, hx.2.trans hright'⟩, ?_⟩
  rw [hstart, hstop, hy]
  exact ⟨le_rfl, le_rfl⟩

theorem AlongLeft.holds (h : b.AlongLeft x y) (hx : p.x = x) (hy : InCell y p.y) : b.Holds p := by
  obtain ⟨hstart, hstop, htop, hbottom⟩ := h
  have hbottom' : (y : Rat) + 1 ≤ b.line.stop.y := by exact_mod_cast hbottom
  refine ⟨?_, (Int.cast_le.mpr htop).trans hy.1, hy.2.trans hbottom'⟩
  rw [hstart, hstop, hx]
  exact ⟨le_rfl, le_rfl⟩

/-- A point of a horizontal border lies on the top of a pixel along it. -/
theorem exists_alongTop (hy : b.line.start.y = b.line.stop.y)
    (hx : b.line.start.x < b.line.stop.x) (h : b.Holds p) :
    ∃ x, b.AlongTop x b.line.start.y ∧ InCell x p.x ∧ p.y = b.line.start.y := by
  obtain ⟨x, hleft, hright, hcell⟩ := exists_inCell hx h.1.1 h.1.2
  refine ⟨x, ⟨rfl, hy.symm, hleft, hright⟩, hcell, le_antisymm ?_ h.2.1⟩
  rw [hy]
  exact h.2.2

/-- A point of a vertical border lies on the left of a pixel along it. -/
theorem exists_alongLeft (hx : b.line.start.x = b.line.stop.x)
    (hy : b.line.start.y < b.line.stop.y) (h : b.Holds p) :
    ∃ y, b.AlongLeft b.line.start.x y ∧ p.x = b.line.start.x ∧ InCell y p.y := by
  obtain ⟨y, htop, hbottom, hcell⟩ := exists_inCell hy h.2.1 h.2.2
  refine ⟨y, ⟨rfl, hx.symm, htop, hbottom⟩, le_antisymm ?_ h.1.1, hcell⟩
  rw [hx]
  exact h.1.2

end Border

/-! ## Borders of exact outlines -/

namespace Outline.Exact

variable {outline : Outline Int} {r : Region Int} {x y : Int} {blocks : Directions}

theorem exists_top (h : Exact outline r) (hedge : EdgeTop r.Covers x y blocks) :
    ∃ b ∈ outline, b.AlongTop x y ∧ b.blocks = blocks := by
  have hcount := h.top x y blocks
  rw [if_pos hedge] at hcount
  obtain ⟨b, hb, hdec⟩ := List.countP_pos_iff.mp (Nat.lt_of_lt_of_eq Nat.one_pos hcount.symm)
  exact ⟨b, hb, of_decide_eq_true hdec⟩

theorem exists_left (h : Exact outline r) (hedge : EdgeLeft r.Covers x y blocks) :
    ∃ b ∈ outline, b.AlongLeft x y ∧ b.blocks = blocks := by
  have hcount := h.left x y blocks
  rw [if_pos hedge] at hcount
  obtain ⟨b, hb, hdec⟩ := List.countP_pos_iff.mp (Nat.lt_of_lt_of_eq Nat.one_pos hcount.symm)
  exact ⟨b, hb, of_decide_eq_true hdec⟩

theorem edgeTop (h : Exact outline r) {b : Border Int} (hb : b ∈ outline)
    (halong : b.AlongTop x y) : EdgeTop r.Covers x y b.blocks := by
  by_contra hedge
  have hcount := h.top x y b.blocks
  rw [if_neg hedge] at hcount
  exact List.countP_eq_zero.mp hcount b hb (decide_eq_true ⟨halong, rfl⟩)

theorem edgeLeft (h : Exact outline r) {b : Border Int} (hb : b ∈ outline)
    (halong : b.AlongLeft x y) : EdgeLeft r.Covers x y b.blocks := by
  by_contra hedge
  have hcount := h.left x y b.blocks
  rw [if_neg hedge] at hcount
  exact List.countP_eq_zero.mp hcount b hb (decide_eq_true ⟨halong, rfl⟩)

/-- The outline of a region with a box has a border : the left one of the box that starts first. -/
theorem ne_nil (h : Exact outline r) {b₀ : Box Int} (hb₀ : b₀ ∈ r.boxes) : outline ≠ [] := by
  obtain ⟨b, hb, hleast⟩ := Finset.exists_min_image r.boxes.toFinset Box.left
    ⟨b₀, List.mem_toFinset.mpr hb₀⟩
  have hin : r.Covers b.left b.top :=
    ⟨b, List.mem_toFinset.mp hb, le_rfl, b.left_lt_right, le_rfl, b.top_lt_bottom⟩
  have hout : ¬r.Covers (b.left - 1) b.top := by
    rintro ⟨c, hc, hleft, -⟩
    have := hleast c (List.mem_toFinset.mpr hc)
    omega
  obtain ⟨border, hborder, -⟩ := h.exists_left (Or.inl ⟨rfl, hin, hout⟩)
  exact List.ne_nil_of_mem hborder

/-- Above a border that blocks motion down are covered pixels and below it are none, and the other
way round if it does not. -/
theorem beside_top (h : Exact outline r) {b : Border Int} (hb : b ∈ outline)
    (halong : b.AlongTop x y) : r.Covers x (if b.blocks.down then y - 1 else y) ∧
      ¬r.Covers x (if b.blocks.down then y else y - 1) := by
  rcases h.edgeTop hb halong with ⟨hup, hsides⟩ | ⟨hdown, hsides⟩
  · rwa [hup]
  · rwa [hdown]

/-- Before a border that blocks motion to the right are covered pixels and after it are none, and
the other way round if it does not. -/
theorem beside_left (h : Exact outline r) {b : Border Int} (hb : b ∈ outline)
    (halong : b.AlongLeft x y) : r.Covers (if b.blocks.right then x - 1 else x) y ∧
      ¬r.Covers (if b.blocks.right then x else x - 1) y := by
  rcases h.edgeLeft hb halong with ⟨hleft, hsides⟩ | ⟨hright, hsides⟩
  · rwa [hleft]
  · rwa [hright]

end Outline.Exact

/-! ## Motions against borders -/

/-- A share of the way from one coordinate to another lies between them. -/
theorem share_mem {low high u : Rat} (hu : 0 ≤ u ∧ u ≤ 1) (h : low ≤ high) :
    low ≤ low + u * (high - low) ∧ low + u * (high - low) ≤ high := by
  have hwidth : 0 ≤ high - low := sub_nonneg.mpr h
  have := mul_nonneg hu.1 hwidth
  have := mul_le_of_le_one_left hwidth hu.2
  constructor <;> linarith

/-- A coordinate between two others lies a share of the way from the one to the other. -/
theorem exists_share {low high z : Rat} (h : low < high) (hz : low ≤ z ∧ z ≤ high) :
    ∃ u, (0 ≤ u ∧ u ≤ 1) ∧ low + u * (high - low) = z := by
  have hwidth : 0 < high - low := sub_pos.mpr h
  refine ⟨(z - low) / (high - low), ⟨div_nonneg (sub_nonneg.mpr hz.1) hwidth.le, ?_⟩, ?_⟩
  · exact (div_le_one hwidth).mpr (sub_le_sub_right hz.2 low)
  · rw [div_mul_cancel₀ _ hwidth.ne']
    exact add_sub_cancel low z

namespace Segment

variable (motion : Segment Rat)

theorem contains_right :
    motion.directions.contains .right = true ↔ motion.start.x < motion.stop.x := by
  simp [directions, Directions.contains]

theorem contains_down :
    motion.directions.contains .down = true ↔ motion.start.y < motion.stop.y := by
  simp [directions, Directions.contains]

theorem contains_left :
    motion.directions.contains .left = true ↔ motion.stop.x < motion.start.x := by
  simp only [directions, Directions.contains, Bool.and_eq_true, Bool.not_eq_true',
    decide_eq_true_eq, decide_eq_false_iff_not, and_iff_right_iff_imp]
  exact fun h => h.le.not_gt

theorem contains_up :
    motion.directions.contains .up = true ↔ motion.stop.y < motion.start.y := by
  simp only [directions, Directions.contains, Bool.and_eq_true, Bool.not_eq_true',
    decide_eq_true_eq, decide_eq_false_iff_not, and_iff_right_iff_imp]
  exact fun h => h.le.not_gt

end Segment

namespace Border

variable {b : Border Int}

/-- A border blocks a direction across it if that is in its set. -/
theorem blocksAny_of_only {d : Direction} (hblocks : b.blocks = .only d) (haxis : b.axis = d.axis)
    (free : Directions) : b.blocksAny free = free.contains d := by
  unfold blocksAny
  rw [hblocks, haxis]
  obtain ⟨_ | _, _ | _, _ | _, _ | _⟩ := free <;> cases d <;> rfl

theorem AlongTop.axis_eq {x y : Int} (h : b.AlongTop x y) : b.axis = .y := by
  have hhorizontal : b.isHorizontal = true := beq_iff_eq.mpr (h.1.trans h.2.1.symm)
  rw [axis, if_pos hhorizontal]

theorem AlongLeft.axis_eq {x y : Int} (h : b.AlongLeft x y) : b.axis = .x := by
  have hvertical : b.isHorizontal = false := by
    have := h.2.2.1
    have := h.2.2.2
    exact beq_eq_false_iff_ne.mpr (by omega)
  rw [axis, hvertical]
  rfl

theorem isHorizontal_lift (b : Border Int) :
    (b.map (Lift.lift : Int → Rat)).isHorizontal = b.isHorizontal := by
  rw [Bool.eq_iff_iff]
  exact beq_iff_eq.trans (Int.cast_inj.trans beq_iff_eq.symm)

theorem axis_lift (b : Border Int) : (b.map (Lift.lift : Int → Rat)).axis = b.axis := by
  rw [axis, isHorizontal_lift, axis]

/-- A border among fractions blocks what it blocks among whole numbers. -/
theorem blocksAny_lift (b : Border Int) (free : Directions) :
    (b.map (Lift.lift : Int → Rat)).blocksAny free = b.blocksAny free := by
  unfold blocksAny
  rw [axis_lift]
  rfl

/-- A motion that is blocked by a border goes across it. -/
theorem across_of_blocksAny {motion : Segment Rat} (h : b.blocksAny motion.directions = true) :
    if b.isHorizontal then motion.stop.y - motion.start.y ≠ 0
    else motion.stop.x - motion.start.x ≠ 0 := by
  have halong := along_of_blocksAny h
  unfold axis at halong
  split
  · rename_i hhorizontal
    intro hzero
    have heq := sub_eq_zero.mp hzero
    simp [hhorizontal, Directions.along, Directions.isEmpty, Segment.directions, heq] at halong
  · rename_i hvertical
    intro hzero
    have heq := sub_eq_zero.mp hzero
    simp [hvertical, Directions.along, Directions.isEmpty, Segment.directions, heq] at halong

/-- Where a motion meets a border it is at a point of it. -/
theorem Proper.holds_of_meetAt (hb : b.Proper) {motion : Segment Rat} {t u : Rat}
    (h : (b.map (Lift.lift : Int → Rat)).line.MeetAt motion u t) : b.Holds (motion.along t) := by
  obtain ⟨-, hu, -, heq⟩ := h
  have hle : b.line.start.x ≤ b.line.stop.x ∧ b.line.start.y ≤ b.line.stop.y := by
    unfold Proper at hb
    omega
  rw [← heq]
  exact ⟨share_mem hu (Int.cast_le.mpr hle.1), share_mem hu (Int.cast_le.mpr hle.2)⟩

/-- A motion across a border meets it where it is at a point of it. -/
theorem Proper.exists_meetAt_of_across (hb : b.Proper) {motion : Segment Rat}
    (hacross : if b.isHorizontal then motion.stop.y - motion.start.y ≠ 0
      else motion.stop.x - motion.start.x ≠ 0) {t : Rat} (ht : 0 ≤ t ∧ t ≤ 1)
    (h : b.Holds (motion.along t)) :
    ∃ u, (b.map (Lift.lift : Int → Rat)).line.MeetAt motion u t := by
  rcases hb with ⟨hy, hx⟩ | ⟨hx, hy⟩
  · have hhorizontal : b.isHorizontal = true := beq_iff_eq.mpr hy
    have hy' : (b.line.stop.y : Rat) = b.line.start.y := Int.cast_inj.mpr hy.symm
    have hx' : (b.line.start.x : Rat) < b.line.stop.x := Int.cast_lt.mpr hx
    obtain ⟨u, hu, heq⟩ := exists_share hx' h.1
    rw [hhorizontal, if_pos rfl] at hacross
    refine ⟨u, ?_, hu, ht, ?_⟩
    · show ((b.line.stop.x : Rat) - b.line.start.x) * (motion.stop.y - motion.start.y) -
        ((b.line.stop.y : Rat) - b.line.start.y) * (motion.stop.x - motion.start.x) ≠ 0
      rw [hy', sub_self, zero_mul, sub_zero]
      exact mul_ne_zero (sub_pos.mpr hx').ne' hacross
    · refine congrArg₂ Point.mk heq ?_
      show (b.line.start.y : Rat) + u * ((b.line.stop.y : Rat) - b.line.start.y) = _
      rw [hy', sub_self, mul_zero, add_zero]
      exact le_antisymm h.2.1 (hy' ▸ h.2.2)
  · have hvertical : b.isHorizontal = false := beq_eq_false_iff_ne.mpr (Int.ne_of_lt hy)
    have hx' : (b.line.stop.x : Rat) = b.line.start.x := Int.cast_inj.mpr hx.symm
    have hy' : (b.line.start.y : Rat) < b.line.stop.y := Int.cast_lt.mpr hy
    obtain ⟨u, hu, heq⟩ := exists_share hy' h.2
    rw [hvertical, if_neg Bool.false_ne_true] at hacross
    refine ⟨u, ?_, hu, ht, ?_⟩
    · show ((b.line.stop.x : Rat) - b.line.start.x) * (motion.stop.y - motion.start.y) -
        ((b.line.stop.y : Rat) - b.line.start.y) * (motion.stop.x - motion.start.x) ≠ 0
      rw [hx', sub_self, zero_mul, zero_sub]
      exact neg_ne_zero.mpr (mul_ne_zero (sub_pos.mpr hy').ne' hacross)
    · refine congrArg₂ Point.mk ?_ heq
      show (b.line.start.x : Rat) + u * ((b.line.stop.x : Rat) - b.line.start.x) = _
      rw [hx', sub_self, mul_zero, add_zero]
      exact le_antisymm h.1.1 (hx' ▸ h.1.2)

/-- A motion that is blocked by a border meets it where it is at a point of it. -/
theorem Proper.exists_meetAt (hb : b.Proper) {motion : Segment Rat}
    (hblocks : b.blocksAny motion.directions = true) {t : Rat} (ht : 0 ≤ t ∧ t ≤ 1)
    (h : b.Holds (motion.along t)) :
    ∃ u, (b.map (Lift.lift : Int → Rat)).line.MeetAt motion u t :=
  hb.exists_meetAt_of_across (across_of_blocksAny hblocks) ht h

end Border

/-! ## On in a box, or against a border -/

namespace Outline.Exact

variable {outline : Outline Int} {r : Region Int} {motion : Segment Rat} {x y : Int} {p : Point Rat}

/-- A border along the top of a pixel that blocks free directions blocks one way out of the
region, which is free. -/
theorem edgeTop_of_blocksAny (h : Exact outline r) {b : Border Int} (hb : b ∈ outline)
    (halong : b.AlongTop x y) {free : Directions} (hblocks : b.blocksAny free = true) :
    b.blocks = .only .up ∧ free.up = true ∧ r.Covers x y ∧ ¬r.Covers x (y - 1) ∨
      b.blocks = .only .down ∧ free.down = true ∧ r.Covers x (y - 1) ∧ ¬r.Covers x y := by
  rcases h.edgeTop hb halong with ⟨hup, hcovers⟩ | ⟨hdown, hcovers⟩
  · rw [Border.blocksAny_of_only hup halong.axis_eq] at hblocks
    exact Or.inl ⟨hup, hblocks, hcovers⟩
  · rw [Border.blocksAny_of_only hdown halong.axis_eq] at hblocks
    exact Or.inr ⟨hdown, hblocks, hcovers⟩

theorem edgeLeft_of_blocksAny (h : Exact outline r) {b : Border Int} (hb : b ∈ outline)
    (halong : b.AlongLeft x y) {free : Directions} (hblocks : b.blocksAny free = true) :
    b.blocks = .only .left ∧ free.left = true ∧ r.Covers x y ∧ ¬r.Covers (x - 1) y ∨
      b.blocks = .only .right ∧ free.right = true ∧ r.Covers (x - 1) y ∧ ¬r.Covers x y := by
  rcases h.edgeLeft hb halong with ⟨hleft, hcovers⟩ | ⟨hright, hcovers⟩
  · rw [Border.blocksAny_of_only hleft halong.axis_eq] at hblocks
    exact Or.inl ⟨hleft, hblocks, hcovers⟩
  · rw [Border.blocksAny_of_only hright halong.axis_eq] at hblocks
    exact Or.inr ⟨hright, hblocks, hcovers⟩

/-- At a point of the edge of a region there is a border that blocks the one direction out. -/
theorem exists_facing_top (h : Exact outline r) {d : Direction}
    (hedge : EdgeTop r.Covers x y (.only d)) (hd : d.axis = .y) (hx : InCell x p.x)
    (hy : p.y = y) :
    ∃ b ∈ outline, b.Holds p ∧ ∀ free : Directions, b.blocksAny free = free.contains d := by
  obtain ⟨b, hb, halong, hblocks⟩ := h.exists_top hedge
  exact ⟨b, hb, halong.holds hx hy,
    Border.blocksAny_of_only hblocks (halong.axis_eq.trans hd.symm)⟩

theorem exists_facing_left (h : Exact outline r) {d : Direction}
    (hedge : EdgeLeft r.Covers x y (.only d)) (hd : d.axis = .x) (hx : p.x = x)
    (hy : InCell y p.y) :
    ∃ b ∈ outline, b.Holds p ∧ ∀ free : Directions, b.blocksAny free = free.contains d := by
  obtain ⟨b, hb, halong, hblocks⟩ := h.exists_left hedge
  exact ⟨b, hb, halong.holds hx hy,
    Border.blocksAny_of_only hblocks (halong.axis_eq.trans hd.symm)⟩

/-- Between a covered pixel and the next one in the direction of a motion, which is not covered,
lies a border that blocks the motion. -/
theorem exists_blocking_top (h : Exact outline r) {y' : Int} (hin : r.Covers x y)
    (hout : ¬r.Covers x y') (hx : InCell x p.x) (hy : InCell y p.y) (hy' : InCell y' p.y)
    (hnext : 0 < motion.stop.y - motion.start.y ∧ y' = y + 1 ∨
      motion.stop.y - motion.start.y < 0 ∧ y' = y - 1) :
    ∃ b ∈ outline, b.Holds p ∧ b.blocksAny motion.directions = true := by
  rcases hnext with ⟨hd, rfl⟩ | ⟨hd, rfl⟩
  · have hedge : EdgeTop r.Covers x (y + 1) (.only .down) :=
      Or.inr ⟨rfl, by rwa [add_sub_cancel_right], hout⟩
    obtain ⟨b, hb, hholds, hblocks⟩ := h.exists_facing_top hedge rfl hx (hy.eq_of_succ hy')
    exact ⟨b, hb, hholds, (hblocks _).trans (motion.contains_down.mpr (sub_pos.mp hd))⟩
  · have hedge : EdgeTop r.Covers x y (.only .up) := Or.inl ⟨rfl, hin, hout⟩
    have hline : p.y = ((y - 1 + 1 : Int) : Rat) :=
      hy'.eq_of_succ (by rwa [Int.sub_add_cancel])
    rw [Int.sub_add_cancel] at hline
    obtain ⟨b, hb, hholds, hblocks⟩ := h.exists_facing_top hedge rfl hx hline
    exact ⟨b, hb, hholds, (hblocks _).trans (motion.contains_up.mpr (sub_neg.mp hd))⟩

theorem exists_blocking_left (h : Exact outline r) {x' : Int} (hin : r.Covers x y)
    (hout : ¬r.Covers x' y) (hx : InCell x p.x) (hx' : InCell x' p.x) (hy : InCell y p.y)
    (hnext : 0 < motion.stop.x - motion.start.x ∧ x' = x + 1 ∨
      motion.stop.x - motion.start.x < 0 ∧ x' = x - 1) :
    ∃ b ∈ outline, b.Holds p ∧ b.blocksAny motion.directions = true := by
  rcases hnext with ⟨hd, rfl⟩ | ⟨hd, rfl⟩
  · have hedge : EdgeLeft r.Covers (x + 1) y (.only .right) :=
      Or.inr ⟨rfl, by rwa [add_sub_cancel_right], hout⟩
    obtain ⟨b, hb, hholds, hblocks⟩ := h.exists_facing_left hedge rfl (hx.eq_of_succ hx') hy
    exact ⟨b, hb, hholds, (hblocks _).trans (motion.contains_right.mpr (sub_pos.mp hd))⟩
  · have hedge : EdgeLeft r.Covers x y (.only .left) := Or.inl ⟨rfl, hin, hout⟩
    have hline : p.x = ((x - 1 + 1 : Int) : Rat) :=
      hx'.eq_of_succ (by rwa [Int.sub_add_cancel])
    rw [Int.sub_add_cancel] at hline
    obtain ⟨b, hb, hholds, hblocks⟩ := h.exists_facing_left hedge rfl hline hy
    exact ⟨b, hb, hholds, (hblocks _).trans (motion.contains_left.mpr (sub_neg.mp hd))⟩

/-- Of the pixels at a point the next ones in the directions of a motion are covered if one is, or
the point is at a border that blocks the motion. -/
theorem covers_or_blocked (h : Exact outline r) {x' y' : Int} (hin : r.Covers x y)
    (hx : InCell x p.x) (hx' : InCell x' p.x) (hy : InCell y p.y) (hy' : InCell y' p.y)
    (hnextx : x' = x ∨ 0 < motion.stop.x - motion.start.x ∧ x' = x + 1 ∨
      motion.stop.x - motion.start.x < 0 ∧ x' = x - 1)
    (hnexty : y' = y ∨ 0 < motion.stop.y - motion.start.y ∧ y' = y + 1 ∨
      motion.stop.y - motion.start.y < 0 ∧ y' = y - 1) :
    r.Covers x' y' ∨ ∃ b ∈ outline, b.Holds p ∧ b.blocksAny motion.directions = true := by
  refine or_iff_not_imp_left.mpr fun hahead => ?_
  by_cases hside : r.Covers x' y
  · have hne : y' ≠ y := fun heq => hahead (heq ▸ hside)
    exact h.exists_blocking_top hside hahead hx' hy hy' (hnexty.resolve_left hne)
  · have hne : x' ≠ x := fun heq => hside (heq ▸ hin)
    exact h.exists_blocking_left hin hside hx hx' hy (hnextx.resolve_left hne)

/-- A motion in a region goes on inside one of the boxes, or it is at a border that blocks it. -/
theorem goes_on_or_blocked (h : Exact outline r) {t : Rat} (ht : r.Closure (motion.along t)) :
    (∃ box ∈ r.boxes, box.Closure (motion.along t) ∧ ∃ s, t < s ∧ box.Closure (motion.along s)) ∨
      ∃ b ∈ outline, b.Holds (motion.along t) ∧ b.blocksAny motion.directions = true := by
  obtain ⟨x, y, hcov, hx, hy⟩ := (r.closure_iff _).mp ht
  obtain ⟨x', hx', ⟨εx, hεx, haheadx⟩, hnextx⟩ := hx.exists_ahead (motion.stop.x - motion.start.x)
  obtain ⟨y', hy', ⟨εy, hεy, haheady⟩, hnexty⟩ := hy.exists_ahead (motion.stop.y - motion.start.y)
  refine (h.covers_or_blocked hcov hx hx' hy hy' hnextx hnexty).imp_left ?_
  rintro ⟨box, hbox, hcov'⟩
  have hmin : 0 < εx ⊓ εy := lt_inf_iff.mpr ⟨hεx, hεy⟩
  refine ⟨box, hbox, Box.closure_of_inPixel hcov' ⟨hx', hy'⟩, t + εx ⊓ εy,
    lt_add_of_pos_right t hmin, Box.closure_of_inPixel hcov' ?_⟩
  rw [Segment.along_add]
  exact ⟨haheadx _ hmin.le inf_le_left, haheady _ hmin.le inf_le_right⟩

/-- A border that blocks a motion lies between a covered pixel and the next one in a direction of
the motion, which is not covered. -/
theorem edge_of_blocksAny (h : Exact outline r) {b : Border Int} (hb : b ∈ outline)
    (hp : b.Holds p) {free : Directions} (hblocks : b.blocksAny free = true) :
    (∃ x y, InCell x p.x ∧ p.y = (y : Int) ∧
      (free.contains .down = true ∧ r.Covers x (y - 1) ∧ ¬r.Covers x y ∨
        free.contains .up = true ∧ r.Covers x y ∧ ¬r.Covers x (y - 1))) ∨
      ∃ x y, p.x = (x : Int) ∧ InCell y p.y ∧
        (free.contains .right = true ∧ r.Covers (x - 1) y ∧ ¬r.Covers x y ∨
          free.contains .left = true ∧ r.Covers x y ∧ ¬r.Covers (x - 1) y) := by
  rcases h.proper b hb with ⟨hy, hx⟩ | ⟨hx, hy⟩
  · obtain ⟨x, halong, hcell, hline⟩ := Border.exists_alongTop hy hx hp
    refine Or.inl ⟨x, b.line.start.y, hcell, hline, ?_⟩
    exact (h.edgeTop_of_blocksAny hb halong hblocks).symm.imp And.right And.right
  · obtain ⟨y, halong, hline, hcell⟩ := Border.exists_alongLeft hx hy hp
    refine Or.inr ⟨b.line.start.x, y, hline, hcell, ?_⟩
    exact (h.edgeLeft_of_blocksAny hb halong hblocks).symm.imp And.right And.right

end Outline.Exact

end Confinement
