import Confinement.Proofs.Seams

/-!
# What two touching rows do not share

Between two rows that touch, the seam is their difference, in both directions : over a column that
only the upper row covers it has one border, which blocks motion down, over one that only the
lower row covers one border, which blocks motion up, and over all other columns none
(`Seam.exists_separates`). Its borders come from left to right without overlap, and where two of
them touch they block opposite ways, so none could be joined to another.
-/

namespace Confinement

/-- Whether a row has a box over a column. -/
def Row.Over (row : Row Int) (x : Int) : Prop :=
  ∃ b ∈ row, b.columns.Covers x

namespace Seam

/-- The borders of a seam that run along the line between a column and the row above it. -/
def overColumn (seam : List (Border Int)) (x row : Int) : List (Border Int) :=
  seam.filter fun b => decide (b.AlongTop x row)

/-- Whether a seam at a row tells two rows of boxes apart, which meet there. -/
structure Separates (above below : Row Int) (row : Int) (seam : List (Border Int)) : Prop where
  /-- Borders lie at the row and run from left to right. -/
  level : ∀ b ∈ seam, b.line.start.y = row ∧ b.line.stop.y = row ∧ b.line.start.x < b.line.stop.x
  /-- Over a column of the upper row alone one border blocks the way down. -/
  down : ∀ x, above.Over x → ¬below.Over x →
    ∃ b, overColumn seam x row = [b] ∧ b.blocks = .only .down
  /-- Over a column of the lower row alone one border blocks the way up. -/
  up : ∀ x, below.Over x → ¬above.Over x →
    ∃ b, overColumn seam x row = [b] ∧ b.blocks = .only .up
  /-- Over any other column there is no border. -/
  none : ∀ x, (above.Over x ↔ below.Over x) → overColumn seam x row = []
  /-- A border starts and ends to the right of those before it. -/
  ascending : seam.Pairwise fun b c =>
    b.line.start.x < c.line.start.x ∧ b.line.stop.x < c.line.stop.x
  /-- It does not overlap them. -/
  apart : seam.Pairwise fun b c => b.line.stop.x ≤ c.line.start.x
  /-- It blocks another way than one that it touches. -/
  opposed : seam.Pairwise fun b c => b.line.stop.x = c.line.start.x → b.blocks ≠ c.blocks

/-! ## Over one column -/

variable {seam : List (Border Int)} {row x : Int}

/-- Of borders that do not overlap, one that runs over a column is the only one. -/
theorem overColumn_eq_singleton (h : seam.Pairwise fun b c => b.line.stop.x ≤ c.line.start.x)
    {b : Border Int} (hb : b ∈ seam) (hx : b.AlongTop x row) : overColumn seam x row = [b] := by
  have hexclusive : seam.Pairwise fun b c => b.AlongTop x row → ¬c.AlongTop x row :=
    h.imp fun {b c} hle hb hc => by
      have := hb.2.2.2
      have := hc.2.2.1
      omega
  have hlength : (overColumn seam x row).length = 1 := by
    rw [overColumn, ← List.countP_eq_length_filter, countP_of_exclusive hexclusive,
      if_pos ⟨b, hb, hx⟩]
  obtain ⟨c, hc⟩ := List.length_eq_one_iff.mp hlength
  have hmem : b ∈ overColumn seam x row := List.mem_filter.mpr ⟨hb, decide_eq_true hx⟩
  rw [hc] at hmem ⊢
  rw [List.mem_singleton.mp hmem]

/-- Where a blocking is counted over a column, one border runs there, and has it. -/
theorem exists_overColumn (h : seam.Pairwise fun b c => b.line.stop.x ≤ c.line.start.x)
    {blocks : Directions} (hcount : Outline.countTop seam x row blocks = 1) :
    ∃ b, overColumn seam x row = [b] ∧ b.blocks = blocks := by
  obtain ⟨b, hb, hcounted⟩ := List.countP_pos_iff.mp (hcount.symm ▸ Nat.one_pos)
  obtain ⟨hx, hblocks⟩ := of_decide_eq_true hcounted
  exact ⟨b, overColumn_eq_singleton h hb hx, hblocks⟩

/-- Where no blocking is counted over a column, no border runs there. -/
theorem overColumn_eq_nil (hcount : ∀ blocks, Outline.countTop seam x row blocks = 0) :
    overColumn seam x row = [] := by
  refine List.filter_eq_nil_iff.mpr fun b hb hx => ?_
  have hzero := List.countP_eq_zero.mp (hcount b.blocks) b hb
  exact hzero (decide_eq_true ⟨of_decide_eq_true hx, rfl⟩)

/-! ## The whole seam -/

/-- The borders of what is kept in a sweep come from left to right, do not overlap, and block
opposite ways where they touch. -/
theorem Swept.pairwise_border {kept front : List (Edge Int)} (h : Swept kept front) (row : Int) :
    (kept.map (Edge.border row)).reverse.Pairwise fun b c => b.line.stop.x ≤ c.line.start.x ∧
      (b.line.stop.x = c.line.start.x → b.blocks ≠ c.blocks) := by
  refine List.pairwise_reverse.mpr (List.pairwise_map.mpr (h.kept_order.imp fun {k j} hkj => ?_))
  exact ⟨hkj.1, fun htouch hsame => hkj.2 htouch (Directions.only_injective hsame)⟩

/-- The borders of what is kept in a sweep lie at one row and run from left to right. -/
theorem Swept.level_border {kept front : List (Edge Int)} (h : Swept kept front) (row : Int) :
    ∀ b ∈ (kept.map (Edge.border row)).reverse,
      b.line.start.y = row ∧ b.line.stop.y = row ∧ b.line.start.x < b.line.stop.x := by
  intro b hb
  obtain ⟨k, hk, rfl⟩ := List.mem_map.mp (List.mem_reverse.mp hb)
  exact ⟨rfl, rfl, (h.kept_sound k hk).left_lt_right⟩

/-- Two rows of which the one ends where the other starts, each with boxes side by side, have a
seam that tells them apart. -/
theorem exists_separates {above below : Row Int} (hne : above ≠ []) (hne' : below ≠ [])
    (hbottom : ∀ b ∈ above, b.bottom = row) (htop : ∀ b ∈ below, b.top = row)
    (ha : SideBySide above) (hb : SideBySide below) :
    ∃ seam, borders? above below = .ok seam ∧ Separates above below row seam := by
  obtain ⟨kept, hborders, hkept, hcount⟩ := exists_borders? hne hne' hbottom htop ha hb
  have hpairwise := hkept.pairwise_border row
  have hlevel := hkept.level_border row
  have hapart := hpairwise.imp fun {b c} hbc => hbc.1
  refine ⟨_, hborders, hlevel, fun x hover hnot => ?_, fun x hover hnot => ?_, fun x hsame => ?_,
    ?_, hapart, hpairwise.imp fun {b c} hbc => hbc.2⟩
  · refine exists_overColumn hapart ?_
    rw [hcount, if_pos ⟨rfl, Or.inl ⟨rfl, hover, hnot⟩⟩]
  · refine exists_overColumn hapart ?_
    rw [hcount, if_pos ⟨rfl, Or.inr ⟨rfl, hover, hnot⟩⟩]
  · refine overColumn_eq_nil fun blocks => ?_
    rw [hcount, if_neg]
    rintro ⟨-, ⟨-, hover, hnot⟩ | ⟨-, hover, hnot⟩⟩
    · exact hnot (hsame.mp hover)
    · exact hnot (hsame.mpr hover)
  · refine (List.Pairwise.and_mem.mp hapart).imp fun {b c} ⟨hb, hc, hle⟩ => ?_
    have := (hlevel b hb).2.2
    have := (hlevel c hc).2.2
    omega

/-- A row of two boxes that touch. -/
def upperRow : Row Int :=
  [⟨0, 0, 3, 2, by decide, by decide⟩, ⟨3, 1, 6, 2, by decide, by decide⟩]

/-- A row of two boxes that stand apart, one of them below both boxes of the row above. -/
def lowerRow : Row Int :=
  [⟨2, 2, 4, 5, by decide, by decide⟩, ⟨5, 2, 8, 3, by decide, by decide⟩]

theorem exists_separates_upperRow :
    ∃ seam, borders? upperRow lowerRow = .ok seam ∧ Separates upperRow lowerRow 2 seam :=
  exists_separates (by decide) (by decide) (by decide) (by decide) (by simp [SideBySide, upperRow])
    (by simp [SideBySide, lowerRow])

/-- Their seam in full. -/
example : borders? upperRow lowerRow = .ok
    [.horizontal 0 2 2 .down, .horizontal 4 5 2 .down, .horizontal 6 8 2 .up] := by
  cbv

end Seam

end Confinement
