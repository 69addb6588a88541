import Confinement.Proofs.Unbroken
import Confinement.Proofs.Uniqueness
import Mathlib.Data.List.Nodup

/-!
# Longest runs and closed corners

Every border of the outline of a region that is built is a longest run of the edge, and every
longest run is one border (`Outline.Longest`, `Outline.Exact.longest`). The edge along a line, with
one blocking, falls into the borders on that line that have it (`Outline.Exact.splits_top`,
`Outline.Exact.splits_left`) : the outline is exact, so no two run along one side, and unbroken, so
none goes on where another ends.

An outline is closed (`Outline.Closed`, `Outline.Exact.closed`) : where a border ends, one
horizontal and one vertical border end, or two of each if two covered pixels meet there diagonally.
Of the borders with one blocking, one ends at a crossing if the edge runs on one side of it only,
and else none (`Outline.Exact.countP_ends`, `Outline.Exact.exists_end_top`,
`Outline.Exact.exists_end_left`). The four pixels around the crossing say where the edge runs
(`Outline.Exact.countEnds_eq`).
-/

namespace Confinement

/-! ## Borders on a line -/

namespace Border

/-- The border over a span of columns, along the top of row `y`. -/
def onTop (y : Int) (blocks : Directions) (s : Span Int) : Border Int :=
  ⟨⟨⟨s.left, y⟩, ⟨s.right, y⟩⟩, blocks⟩

/-- The border over a span of rows, along the left of column `x`. -/
def onLeft (x : Int) (blocks : Directions) (s : Span Int) : Border Int :=
  ⟨⟨⟨x, s.left⟩, ⟨x, s.right⟩⟩, blocks⟩

variable {x y z : Int} {blocks : Directions} {s : Span Int}

theorem alongTop_onTop : (onTop y blocks s).AlongTop x z ↔ y = z ∧ s.Covers x := by
  simp only [AlongTop, onTop, and_self_left, Span.Covers, Int.add_one_le_iff]

theorem alongLeft_onLeft : (onLeft x blocks s).AlongLeft z y ↔ x = z ∧ s.Covers y := by
  simp only [AlongLeft, onLeft, and_self_left, Span.Covers, Int.add_one_le_iff]

theorem onTop_injective : Function.Injective (onTop y blocks) := fun _ _ h =>
  congrArg₂ Span.mk (congrArg (fun b => b.line.start.x) h) (congrArg (fun b => b.line.stop.x) h)

theorem onLeft_injective : Function.Injective (onLeft x blocks) := fun _ _ h =>
  congrArg₂ Span.mk (congrArg (fun b => b.line.start.y) h) (congrArg (fun b => b.line.stop.y) h)

/-- A border whose ends are in one row lies over a span of columns. -/
theorem onTop_eq {b : Border Int} (h : b.line.start.y = y) (h' : b.line.stop.y = y) :
    onTop y b.blocks ⟨b.line.start.x, b.line.stop.x⟩ = b := by
  obtain ⟨⟨⟨_, top⟩, ⟨_, bottom⟩⟩, _⟩ := b
  obtain rfl : top = y := h
  obtain rfl : bottom = top := h'
  rfl

/-- A border whose ends are in one column lies over a span of rows. -/
theorem onLeft_eq {b : Border Int} (h : b.line.start.x = x) (h' : b.line.stop.x = x) :
    onLeft x b.blocks ⟨b.line.start.y, b.line.stop.y⟩ = b := by
  obtain ⟨⟨⟨left, _⟩, ⟨right, _⟩⟩, _⟩ := b
  obtain rfl : left = x := h
  obtain rfl : right = left := h'
  rfl

theorem exists_onTop {b : Border Int} (h : b.isHorizontal = true) :
    ∃ y blocks s, b = onTop y blocks s :=
  ⟨_, _, _, (onTop_eq rfl (beq_iff_eq.mp h).symm).symm⟩

theorem Upright.exists_onLeft {b : Border Int} (h : b.Upright) :
    ∃ x blocks s, b = onLeft x blocks s :=
  ⟨_, _, _, (onLeft_eq rfl h.1.symm).symm⟩

theorem holds_onTop {p : Point Rat} :
    (onTop y blocks s).Holds p ↔ ((s.left : Rat) ≤ p.x ∧ p.x ≤ s.right) ∧ p.y = y := by
  rw [eq_comm, le_antisymm_iff]
  exact Iff.rfl

theorem holds_onLeft {p : Point Rat} :
    (onLeft x blocks s).Holds p ↔ p.x = x ∧ (s.left : Rat) ≤ p.y ∧ p.y ≤ s.right := by
  rw [eq_comm, le_antisymm_iff]
  exact Iff.rfl

/-- Whether a crossing of grid lines is one of the two ends of a border. -/
def EndsAt (b : Border Int) (v : Point Int) : Prop :=
  b.line.start = v ∨ b.line.stop = v

instance (b : Border Int) (v : Point Int) : Decidable (b.EndsAt v) :=
  inferInstanceAs (Decidable (_ ∨ _))

theorem Proper.holds_of_endsAt {b : Border Int} (h : b.Proper) {v : Point Int}
    (hv : b.EndsAt v) : b.Holds ⟨v.x, v.y⟩ := by
  have hx : b.line.start.x ≤ b.line.stop.x := h.elim (fun h => h.2.le) fun h => h.1.le
  have hy : b.line.start.y ≤ b.line.stop.y := h.elim (fun h => h.1.le) fun h => h.2.le
  rcases hv with rfl | rfl
  · exact ⟨⟨le_rfl, Int.cast_le.mpr hx⟩, le_rfl, Int.cast_le.mpr hy⟩
  · exact ⟨⟨Int.cast_le.mpr hx, le_rfl⟩, Int.cast_le.mpr hy, le_rfl⟩

end Border

/-- Two spans that are the same if they share a column, and do not touch otherwise, are the same
or have a gap between them. -/
theorem Span.eq_or_gap_of_apart {s t : Span Int} (hs : s.left < s.right) (ht : t.left < t.right)
    (heq : ∀ x, s.Covers x → t.Covers x → s = t) (hst : s.right ≠ t.left)
    (hts : t.right ≠ s.left) : s = t ∨ s.right < t.left ∨ t.right < s.left := by
  rcases Int.lt_or_le s.right t.left with hgap | hle
  · exact Or.inr (Or.inl hgap)
  · rcases Int.lt_or_le t.right s.left with hgap | hle'
    · exact Or.inr (Or.inr hgap)
    · refine Or.inl ?_
      rcases Int.le_total s.left t.left with hleft | hleft
      · exact heq t.left ⟨hleft, by omega⟩ ⟨le_rfl, ht⟩
      · exact heq s.left ⟨le_rfl, hs⟩ ⟨hleft, by omega⟩

/-- Of spans with gaps between them, two that reach the same coordinate are the same. -/
theorem Span.Splits.eq_of_reach {columns : Int → Prop} {spans : Span Int → Prop}
    (h : Splits columns spans) {s t : Span Int} (hs : spans s) (ht : spans t) {z : Rat}
    (hsz : (s.left : Rat) ≤ z ∧ z ≤ s.right) (htz : (t.left : Rat) ≤ z ∧ z ≤ t.right) : s = t := by
  have hle : t.left ≤ s.right := Int.cast_le.mp (htz.1.trans hsz.2)
  have hle' : s.left ≤ t.right := Int.cast_le.mp (hsz.1.trans htz.2)
  exact (h.eq_or_gap s t hs ht).resolve_right (by omega)

namespace Outline

variable {outline : Outline Int} {r : Region Int} {b c : Border Int} {p : Point Rat}

/-! ## Longest runs -/

/-- No two borders with the same blocking run along the top of a pixel. -/
theorem Exact.countTop_le_one (h : Exact outline r) (x y : Int) (blocks : Directions) :
    countTop outline x y blocks ≤ 1 := by
  rw [h.top]
  split <;> decide

/-- No two borders with the same blocking run along the left of a pixel. -/
theorem Exact.countLeft_le_one (h : Exact outline r) (x y : Int) (blocks : Directions) :
    countLeft outline x y blocks ≤ 1 := by
  rw [h.left]
  split <;> decide

/-- The edge along the top of a row of pixels falls into the borders over it. -/
theorem Exact.splits_top (h : Exact outline r) (hu : Unbroken outline) (y : Int)
    (blocks : Directions) : Span.Splits (fun x => EdgeTop r.Covers x y blocks)
      fun s => Border.onTop y blocks s ∈ outline := by
  have hlt : ∀ s, Border.onTop y blocks s ∈ outline → s.left < s.right := fun s hs =>
    (h.proper _ hs).elim And.right fun hup => absurd hup.2 (Int.lt_irrefl y)
  refine ⟨hlt, fun x => ⟨fun hedge => ?_, ?_⟩, fun s t hs ht => ?_⟩
  · obtain ⟨b, hb, ⟨hstart, hstop, halong⟩, rfl⟩ := h.exists_top hedge
    exact ⟨⟨b.line.start.x, b.line.stop.x⟩, (Border.onTop_eq hstart hstop).symm ▸ hb, halong⟩
  · rintro ⟨s, hs, hx⟩
    exact h.edgeTop hs (Border.alongTop_onTop.mpr ⟨rfl, hx⟩)
  · refine Span.eq_or_gap_of_apart (hlt s hs) (hlt t ht) (fun x hsx htx => ?_)
      (fun htouch => ?_) fun htouch => ?_
    · exact Border.onTop_injective (eq_of_countP_le_one (h.countTop_le_one x y blocks) hs ht
        ⟨Border.alongTop_onTop.mpr ⟨rfl, hsx⟩, rfl⟩ ⟨Border.alongTop_onTop.mpr ⟨rfl, htx⟩, rfl⟩)
    · exact hu _ hs _ ht ⟨congrArg (Point.mk · y) htouch, rfl⟩
    · exact hu _ ht _ hs ⟨congrArg (Point.mk · y) htouch, rfl⟩

/-- The edge along the left of a column of pixels falls into the borders over it. -/
theorem Exact.splits_left (h : Exact outline r) (hu : Unbroken outline) (x : Int)
    (blocks : Directions) : Span.Splits (fun y => EdgeLeft r.Covers x y blocks)
      fun s => Border.onLeft x blocks s ∈ outline := by
  have hlt : ∀ s, Border.onLeft x blocks s ∈ outline → s.left < s.right := fun s hs =>
    (h.proper _ hs).elim (fun hacross => absurd hacross.2 (Int.lt_irrefl x)) And.right
  refine ⟨hlt, fun y => ⟨fun hedge => ?_, ?_⟩, fun s t hs ht => ?_⟩
  · obtain ⟨b, hb, ⟨hstart, hstop, halong⟩, rfl⟩ := h.exists_left hedge
    exact ⟨⟨b.line.start.y, b.line.stop.y⟩, (Border.onLeft_eq hstart hstop).symm ▸ hb, halong⟩
  · rintro ⟨s, hs, hy⟩
    exact h.edgeLeft hs (Border.alongLeft_onLeft.mpr ⟨rfl, hy⟩)
  · refine Span.eq_or_gap_of_apart (hlt s hs) (hlt t ht) (fun y hsy hty => ?_)
      (fun htouch => ?_) fun htouch => ?_
    · exact Border.onLeft_injective (eq_of_countP_le_one (h.countLeft_le_one x y blocks) hs ht
        ⟨Border.alongLeft_onLeft.mpr ⟨rfl, hsy⟩, rfl⟩ ⟨Border.alongLeft_onLeft.mpr ⟨rfl, hty⟩, rfl⟩)
    · exact hu _ hs _ ht ⟨congrArg (Point.mk x) htouch, rfl⟩
    · exact hu _ ht _ hs ⟨congrArg (Point.mk x) htouch, rfl⟩

/-- Borders with the same blocking that have a point in common are the same. -/
theorem Exact.eq_of_holds (h : Exact outline r) (hu : Unbroken outline) (hb : b ∈ outline)
    (hc : c ∈ outline) (hblocks : b.blocks = c.blocks) (hbp : b.Holds p) (hcp : c.Holds p) :
    b = c := by
  have hiff := h.isHorizontal_iff hb hc hblocks
  by_cases hhorizontal : b.isHorizontal = true
  · obtain ⟨y, blocks, s, rfl⟩ := Border.exists_onTop hhorizontal
    obtain ⟨y', blocks', t, rfl⟩ := Border.exists_onTop (hiff.mp hhorizontal)
    obtain rfl : blocks = blocks' := hblocks
    obtain ⟨hs, hy⟩ := Border.holds_onTop.mp hbp
    obtain ⟨ht, hy'⟩ := Border.holds_onTop.mp hcp
    obtain rfl : y = y' := Int.cast_inj.mp (hy.symm.trans hy')
    rw [(h.splits_top hu y blocks).eq_of_reach hb hc hs ht]
  · have hup := (h.proper b hb).upright hhorizontal
    have hup' := (h.proper c hc).upright (mt hiff.mpr hhorizontal)
    obtain ⟨x, blocks, s, rfl⟩ := hup.exists_onLeft
    obtain ⟨x', blocks', t, rfl⟩ := hup'.exists_onLeft
    obtain rfl : blocks = blocks' := hblocks
    obtain ⟨hx, hs⟩ := Border.holds_onLeft.mp hbp
    obtain ⟨hx', ht⟩ := Border.holds_onLeft.mp hcp
    obtain rfl : x = x' := Int.cast_inj.mp (hx.symm.trans hx')
    rw [(h.splits_left hu x blocks).eq_of_reach hb hc hs ht]

/-- No border occurs twice. -/
theorem Exact.nodup (h : Exact outline r) : outline.Nodup := by
  refine List.nodup_iff_count_le_one.mpr fun b => ?_
  by_cases hb : b ∈ outline
  · rcases h.proper b hb with ⟨hy, hx⟩ | ⟨hx, hy⟩
    · have halong : b.AlongTop b.line.start.x b.line.start.y := ⟨rfl, hy.symm, le_rfl, hx⟩
      refine (List.countP_mono_left fun c _ hc => ?_).trans
        (h.countTop_le_one b.line.start.x b.line.start.y b.blocks)
      rw [beq_iff_eq.mp hc]
      exact decide_eq_true ⟨halong, rfl⟩
    · have halong : b.AlongLeft b.line.start.x b.line.start.y := ⟨rfl, hx.symm, le_rfl, hy⟩
      refine (List.countP_mono_left fun c _ hc => ?_).trans
        (h.countLeft_le_one b.line.start.x b.line.start.y b.blocks)
      rw [beq_iff_eq.mp hc]
      exact decide_eq_true ⟨halong, rfl⟩
  · rw [List.count_eq_zero_of_not_mem hb]
    exact Nat.zero_le 1

/-- What makes borders the longest runs of the edge of a region : each blocks one direction, which
goes across it, no two with the same blocking have a point in common, and those on a line are the
longest runs of the edge along it. -/
structure Longest (outline : Outline Int) (r : Region Int) : Prop where
  proper : ∀ b ∈ outline, b.Proper
  only : ∀ b ∈ outline, ∃ d, b.blocks = .only d ∧ b.axis = d.axis
  apart : outline.Pairwise fun b c => b.blocks = c.blocks → ¬∃ p, b.Holds p ∧ c.Holds p
  top : ∀ y blocks s, Border.onTop y blocks s ∈ outline ↔
    s.IsRun fun x => EdgeTop r.Covers x y blocks
  left : ∀ x blocks s, Border.onLeft x blocks s ∈ outline ↔
    s.IsRun fun y => EdgeLeft r.Covers x y blocks

/-- The borders of an exact outline that is unbroken are the longest runs of the edge. -/
theorem Exact.longest (h : Exact outline r) (hu : Unbroken outline) : Longest outline r := by
  refine ⟨h.proper, fun b => h.exists_only, ?_,
    fun y blocks s => (h.splits_top hu y blocks).mem_iff,
    fun x blocks s => (h.splits_left hu x blocks).mem_iff⟩
  refine (List.Pairwise.and_mem.mp h.nodup).imp ?_
  rintro b c ⟨hb, hc, hne⟩ hblocks ⟨p, hbp, hcp⟩
  exact hne (h.eq_of_holds hu hb hc hblocks hbp hcp)

/-! ## Ends at a crossing -/

/-- How many borders across an axis end at a crossing : horizontal ones lie across the y axis. -/
def countEnds (outline : Outline Int) (axis : Axis) (v : Point Int) : Nat :=
  outline.countP fun b => decide (b.axis = axis ∧ b.EndsAt v)

theorem Exact.isHorizontal_of_blocks (h : Exact outline r) (hb : b ∈ outline) {d : Direction}
    (hblocks : b.blocks = .only d) : b.isHorizontal = true ↔ d.axis = .y := by
  obtain ⟨e, he, haxis⟩ := h.exists_only hb
  obtain rfl : e = d := Directions.only_injective (he.symm.trans hblocks)
  rw [← Border.axis_eq_y_iff, haxis]

/-- Of the borders that block one direction, one at most ends at a crossing. -/
theorem Exact.countP_ends (h : Exact outline r) (hu : Unbroken outline) (d : Direction)
    (v : Point Int) : outline.countP (fun b => decide (b.blocks = .only d ∧ b.EndsAt v)) =
      if ∃ b ∈ outline, b.blocks = .only d ∧ b.EndsAt v then 1 else 0 := by
  refine countP_of_exclusive ((List.Pairwise.and_mem.mp h.nodup).imp ?_)
  rintro b c ⟨hb, hc, hne⟩ ⟨hbd, hbv⟩ ⟨hcd, hcv⟩
  exact hne (h.eq_of_holds hu hb hc (hbd.trans hcd.symm) ((h.proper b hb).holds_of_endsAt hbv)
    ((h.proper c hc).holds_of_endsAt hcv))

/-- A border that blocks motion up or down ends at a crossing if the edge runs along one of its
two sides only. -/
theorem Exact.exists_end_top (h : Exact outline r) (hu : Unbroken outline) {d : Direction}
    (hd : d.axis = .y) (v : Point Int) :
    (∃ b ∈ outline, b.blocks = .only d ∧ b.EndsAt v) ↔
      ¬(EdgeTop r.Covers (v.x - 1) v.y (.only d) ↔ EdgeTop r.Covers v.x v.y (.only d)) := by
  rw [← (h.splits_top hu v.y (.only d)).exists_end_iff v.x]
  constructor
  · rintro ⟨b, hb, hblocks, hv⟩
    obtain ⟨y, blocks, s, rfl⟩ := Border.exists_onTop ((h.isHorizontal_of_blocks hb hblocks).mpr hd)
    obtain rfl : blocks = .only d := hblocks
    rcases hv with rfl | rfl
    · exact ⟨s, hb, Or.inl rfl⟩
    · exact ⟨s, hb, Or.inr rfl⟩
  · rintro ⟨s, hs, hv⟩
    exact ⟨_, hs, rfl, hv.imp (congrArg (Point.mk · v.y)) (congrArg (Point.mk · v.y))⟩

/-- A border that blocks motion to the left or right ends at a crossing if the edge runs along one
of its two sides only. -/
theorem Exact.exists_end_left (h : Exact outline r) (hu : Unbroken outline) {d : Direction}
    (hd : d.axis = .x) (v : Point Int) :
    (∃ b ∈ outline, b.blocks = .only d ∧ b.EndsAt v) ↔
      ¬(EdgeLeft r.Covers v.x (v.y - 1) (.only d) ↔ EdgeLeft r.Covers v.x v.y (.only d)) := by
  rw [← (h.splits_left hu v.x (.only d)).exists_end_iff v.y]
  constructor
  · rintro ⟨b, hb, hblocks, hv⟩
    have hvertical : ¬b.isHorizontal = true := by
      rw [h.isHorizontal_of_blocks hb hblocks, hd]
      decide
    obtain ⟨x, blocks, s, rfl⟩ := ((h.proper b hb).upright hvertical).exists_onLeft
    obtain rfl : blocks = .only d := hblocks
    rcases hv with rfl | rfl
    · exact ⟨s, hb, Or.inl rfl⟩
    · exact ⟨s, hb, Or.inr rfl⟩
  · rintro ⟨s, hs, hv⟩
    exact ⟨_, hs, rfl, hv.imp (congrArg (Point.mk v.x)) (congrArg (Point.mk v.x))⟩

/-- The borders across an axis that end at a crossing are those that block one of its two
directions. -/
theorem Exact.countEnds_eq_add (h : Exact outline r) (v : Point Int) :
    countEnds outline .y v =
        outline.countP (fun b => decide (b.blocks = .only .up ∧ b.EndsAt v)) +
          outline.countP (fun b => decide (b.blocks = .only .down ∧ b.EndsAt v)) ∧
      countEnds outline .x v =
        outline.countP (fun b => decide (b.blocks = .only .left ∧ b.EndsAt v)) +
          outline.countP fun b => decide (b.blocks = .only .right ∧ b.EndsAt v) := by
  have hexclude : ∀ d e : Direction, d ≠ e → ∀ b ∈ outline,
      ¬((b.blocks = .only d ∧ b.EndsAt v) ∧ b.blocks = .only e ∧ b.EndsAt v) :=
    fun d e hne b _ hboth => hne (Directions.only_injective (hboth.1.1.symm.trans hboth.2.1))
  refine ⟨countP_or (fun b hb => ?_) (hexclude .up .down (by decide)),
    countP_or (fun b hb => ?_) (hexclude .left .right (by decide))⟩
  · obtain ⟨d, hd, haxis⟩ := h.exists_only hb
    rw [hd, haxis, ← or_and_right]
    cases d <;> simp [Direction.axis, Directions.only]
  · obtain ⟨d, hd, haxis⟩ := h.exists_only hb
    rw [hd, haxis, ← or_and_right]
    cases d <;> simp [Direction.axis, Directions.only]

end Outline

/-! ## Closed corners -/

section Pixels

variable (area : Int → Int → Prop)

/-- Whether two covered pixels meet at a crossing diagonally, across two that are not covered. -/
def Diagonal (v : Point Int) : Prop :=
  area (v.x - 1) (v.y - 1) ∧ area v.x v.y ∧ ¬area v.x (v.y - 1) ∧ ¬area (v.x - 1) v.y ∨
    area v.x (v.y - 1) ∧ area (v.x - 1) v.y ∧ ¬area (v.x - 1) (v.y - 1) ∧ ¬area v.x v.y

/-- Whether the edge of an area has a corner at a crossing : neither the two rows of pixels around
it nor the two columns are the same. -/
def Corner (v : Point Int) : Prop :=
  ¬((area (v.x - 1) (v.y - 1) ↔ area (v.x - 1) v.y) ∧ (area v.x (v.y - 1) ↔ area v.x v.y)) ∧
    ¬((area (v.x - 1) (v.y - 1) ↔ area v.x (v.y - 1)) ∧ (area (v.x - 1) v.y ↔ area v.x v.y))

variable [∀ x y, Decidable (area x y)] (v : Point Int)

instance : Decidable (Diagonal area v) :=
  inferInstanceAs (Decidable (_ ∧ _ ∧ _ ∧ _ ∨ _ ∧ _ ∧ _ ∧ _))

instance : Decidable (Corner area v) :=
  inferInstanceAs (Decidable (¬(_ ∧ _) ∧ ¬(_ ∧ _)))

end Pixels

namespace Outline

variable {outline : Outline Int} {r : Region Int}

/-- At a corner of the edge one border across each axis ends, two where covered pixels meet
diagonally, and elsewhere none. -/
theorem Exact.countEnds_eq (h : Exact outline r) (hu : Unbroken outline) (axis : Axis)
    (v : Point Int) : countEnds outline axis v =
      if Diagonal r.Covers v then 2 else if Corner r.Covers v then 1 else 0 := by
  obtain ⟨hacross, hupright⟩ := h.countEnds_eq_add v
  -- the edge along the four sides that meet at the crossing depends on the four pixels around it
  cases axis with
  | x =>
    rw [hupright, h.countP_ends hu, h.countP_ends hu]
    simp only [h.exists_end_left hu (d := .left) rfl, h.exists_end_left hu (d := .right) rfl]
    simp only [EdgeLeft, Diagonal, Corner, Directions.only]
    by_cases ha : r.Covers (v.x - 1) (v.y - 1) <;> by_cases hb : r.Covers v.x (v.y - 1) <;>
      by_cases hc : r.Covers (v.x - 1) v.y <;> by_cases hd : r.Covers v.x v.y <;>
      simp [ha, hb, hc, hd]
  | y =>
    rw [hacross, h.countP_ends hu, h.countP_ends hu]
    simp only [h.exists_end_top hu (d := .up) rfl, h.exists_end_top hu (d := .down) rfl]
    simp only [EdgeTop, Diagonal, Corner, Directions.only]
    by_cases ha : r.Covers (v.x - 1) (v.y - 1) <;> by_cases hb : r.Covers v.x (v.y - 1) <;>
      by_cases hc : r.Covers (v.x - 1) v.y <;> by_cases hd : r.Covers v.x v.y <;>
      simp [ha, hb, hc, hd]

/-- What makes an outline closed : where a border ends, one horizontal and one vertical border end,
or two of each if covered pixels meet there diagonally. -/
def Closed (outline : Outline Int) (r : Region Int) : Prop :=
  ∀ v, (∃ b ∈ outline, b.EndsAt v) →
    ∀ axis, countEnds outline axis v = if Diagonal r.Covers v then 2 else 1

/-- An exact outline that is unbroken is closed. -/
theorem Exact.closed (h : Exact outline r) (hu : Unbroken outline) : Closed outline r := by
  rintro v ⟨b, hb, hv⟩ axis
  have hpos : 0 < countEnds outline b.axis v :=
    List.countP_pos_iff.mpr ⟨b, hb, decide_eq_true ⟨rfl, hv⟩⟩
  rw [h.countEnds_eq hu] at hpos ⊢
  by_cases hdiagonal : Diagonal r.Covers v
  · rw [if_pos hdiagonal, if_pos hdiagonal]
  · have hcorner : Corner r.Covers v := by
      by_contra hnot
      rw [if_neg hdiagonal, if_neg hnot] at hpos
      exact Nat.lt_irrefl 0 hpos
    rw [if_neg hdiagonal, if_neg hdiagonal, if_pos hcorner]

end Outline

namespace Region

/-- The outline of a region that is built has the longest runs of the edge as its borders, and is
closed. -/
theorem Built.exists_longest_closed {r : Region Int} (h : r.Built) :
    ∃ outline, Outline.ofRegion? r = .ok outline ∧ Outline.Longest outline r ∧
      Outline.Closed outline r := by
  obtain ⟨outline, houtline, hexact, hunbroken⟩ := Outline.exists_unbroken h.banded
  exact ⟨outline, houtline, hexact.longest hunbroken, hexact.closed hunbroken⟩

/-- Two pixels that meet diagonally. -/
def diagonalPair : Region Int :=
  ⟨[.ofPixels ⟨0, 0⟩ ⟨0, 0⟩, .ofPixels ⟨1, 1⟩ ⟨1, 1⟩]⟩

/-- The outline of two pixels that meet diagonally. -/
theorem exists_longest_closed_diagonalPair :
    diagonalPair.Built ∧ Diagonal diagonalPair.Covers ⟨1, 1⟩ ∧
      ∃ outline, Outline.ofRegion? diagonalPair = .ok outline ∧
        Outline.Longest outline diagonalPair ∧ Outline.Closed outline diagonalPair := by
  have hbuilt : diagonalPair.Built := Canonical.built (by decide)
  exact ⟨hbuilt, by decide, Built.exists_longest_closed hbuilt⟩

end Region

end Confinement
