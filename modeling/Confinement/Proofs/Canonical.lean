import Confinement.Proofs.Regions
import Mathlib.Tactic.MkIffOfInductiveProp

/-!
# Canonical boxes

A list of boxes can be in banded form by itself, without a look at the bands that it was made
from (`Canonical`) : its rows are the runs of boxes with the same top, the boxes of a row share
its bottom and have gaps between them, rows come from top to bottom, and two rows that touch do
not have the same columns.

Boxes in any order can be brought into this form, which covers what they cover
(`canonical_bandBoxes?`). The form is the same as being the rows of stacked bands
(`Region.Banded.canonical`, `Canonical.banded`) : a row and a band that it fills determine each
other (`Row.band`), so what is known of any two bands holds of their rows.
-/

namespace Confinement

/-- Boxes in banded form. -/
@[mk_iff]
structure Canonical (boxes : List (Box Int)) : Prop where
  /-- Boxes come from top to bottom, and those with the same top from left to right. -/
  rowMajor : boxes.Pairwise fun b c => b.top < c.top ∨ b.top = c.top ∧ b.left < c.left
  /-- The boxes of a row have the same top and the same bottom. -/
  level : ∀ row ∈ rowsOf boxes, ∀ b ∈ row, ∀ c ∈ row, b.top = c.top ∧ b.bottom = c.bottom
  /-- In a row every box ends before the next one begins, and does not touch it. -/
  gaps : ∀ row ∈ rowsOf boxes, row.Pairwise fun b c => b.right < c.left
  /-- A row ends where a later one begins or above. -/
  below : (rowsOf boxes).Pairwise fun above row => ∀ b ∈ above, ∀ c ∈ row, b.bottom ≤ c.top
  /-- Two rows that touch do not have the same columns. -/
  distinct : (rowsOf boxes).Pairwise fun above row => ∀ b ∈ above, ∀ c ∈ row,
    b.bottom = c.top → above.map Box.columns ≠ row.map Box.columns

instance (boxes : List (Box Int)) : Decidable (Canonical boxes) :=
  decidable_of_iff _ (canonical_iff boxes).symm

/-! ## Stacked bands -/

namespace Band

variable {b c : Band Int} {bands : List (Band Int)}

/-- Two bands are the same, or one ends where the other begins or above. -/
theorem Layered.eq_or_apart (h : Layered bands) (hb : b ∈ bands) (hc : c ∈ bands) :
    b = c ∨ b.bottom ≤ c.top ∨ c.bottom ≤ b.top :=
  eq_or_rel_of_pairwise h.order hb hc

/-- Of any two bands that touch the columns differ, not only of consecutive ones : what lies
between two bands keeps them apart. -/
theorem Stacked.pairwise_distinct (h : Stacked bands) :
    bands.Pairwise fun b c => b.bottom = c.top → b.spans ≠ c.spans := by
  induction bands with
  | nil => exact List.Pairwise.nil
  | cons b bands ih =>
    have hrest := ih ⟨h.toLayered.tail, h.distinct.tail⟩
    refine List.pairwise_cons.mpr ⟨fun c hc => ?_, hrest⟩
    cases bands with
    | nil => simp at hc
    | cons next bands =>
      rcases List.mem_cons.mp hc with rfl | hc
      · exact (List.isChain_cons_cons.mp h.distinct).1
      · intro htouch
        have := h.bottom_le List.mem_cons_self
        have := h.toLayered.tail.head.top_lt_bottom
        have := h.toLayered.tail.bottom_le hc
        omega

/-- Two bands that touch have different columns. -/
theorem Stacked.spans_ne (h : Stacked bands) (hb : b ∈ bands) (hc : c ∈ bands)
    (htouch : b.bottom = c.top) : b.spans ≠ c.spans := by
  have hlt := (h.sound b hb).top_lt_bottom
  have hlt' := (h.sound c hc).top_lt_bottom
  rcases eq_or_rel_of_pairwise (h.order.and h.pairwise_distinct) hb hc with
    rfl | ⟨-, hdistinct⟩ | ⟨hle, -⟩
  · omega
  · exact hdistinct htouch
  · omega

end Band

/-! ## Rows of bands -/

/-- The band that a row fills, if its boxes have the same top and bottom. -/
def Row.band : Row Int → Band Int
  | [] => ⟨0, 0, []⟩
  | b :: row => ⟨b.top, b.bottom, (b :: row).map Box.columns⟩

namespace Region.Banded

variable {r : Region Int} {rows : List (Row Int)} {bands : List (Band Int)}

/-- The rows of stacked bands are canonical. -/
theorem canonical (h : r.Banded rows bands) : Canonical r.boxes := by
  have hrow : ∀ row ∈ rows, ∃ band ∈ bands, Row.Fits row band := fun row hmem =>
    exists_partner h.fits hmem
  have hlevel : ∀ row ∈ rows, ∀ b ∈ row, ∀ c ∈ row, b.top = c.top ∧ b.bottom = c.bottom := by
    intro row hmem b hb c hc
    obtain ⟨band, -, hfit⟩ := hrow row hmem
    exact ⟨(hfit.top_eq b hb).trans (hfit.top_eq c hc).symm,
      (hfit.bottom_eq b hb).trans (hfit.bottom_eq c hc).symm⟩
  have hgaps : ∀ row ∈ rows, row.Pairwise fun b c => b.right < c.left := by
    intro row hmem
    obtain ⟨band, hband, hfit⟩ := hrow row hmem
    have hgap := (h.stacked.sound band hband).separated.gap
    rw [← hfit.columns] at hgap
    exact List.pairwise_map.mp hgap
  have hbelow : rows.Pairwise fun above row => ∀ b ∈ above, ∀ c ∈ row, b.bottom ≤ c.top := by
    refine pairwise_of_partners h.fits h.stacked.order ?_
    intro above band row next habove hnext hle b hb c hc
    rw [habove.bottom_eq b hb, hnext.top_eq c hc]
    exact hle
  have hdistinct : rows.Pairwise fun above row => ∀ b ∈ above, ∀ c ∈ row,
      b.bottom = c.top → above.map Box.columns ≠ row.map Box.columns := by
    refine pairwise_of_partners h.fits h.stacked.pairwise_distinct ?_
    intro above band row next habove hnext hne b hb c hc htouch
    rw [habove.columns, hnext.columns]
    exact hne (by rw [← habove.bottom_eq b hb, ← hnext.top_eq c hc, htouch])
  have hrows := h.rowsOf_eq
  refine ⟨?_, hrows ▸ hlevel, hrows ▸ hgaps, hrows ▸ hbelow, hrows ▸ hdistinct⟩
  rw [h.boxes_eq]
  refine List.pairwise_flatten.mpr ⟨fun row hmem => ?_, hbelow.imp fun hle b hb c hc => ?_⟩
  · refine (List.Pairwise.and_mem.mp (hgaps row hmem)).imp ?_
    rintro b c ⟨hb, hc, hgap⟩
    have := b.left_lt_right
    exact Or.inr ⟨(hlevel row hmem b hb c hc).1, by omega⟩
  · have := b.top_lt_bottom
    have := hle b hb c hc
    exact Or.inl (by omega)

end Region.Banded

namespace Canonical

variable {boxes : List (Box Int)}

theorem tops_sorted (h : Canonical boxes) : boxes.Pairwise fun b c => b.top ≤ c.top :=
  h.rowMajor.imp fun hbc => hbc.elim Int.le_of_lt fun heq => Int.le_of_eq heq.1

/-- A row fills its band. -/
theorem fits (h : Canonical boxes) {row : Row Int} (hrow : row ∈ rowsOf boxes) :
    Row.Fits row row.band := by
  cases row with
  | nil => exact ⟨by simp, by simp, rfl⟩
  | cons b row =>
    have hlevel := h.level (b :: row) hrow
    exact ⟨fun c hc => (hlevel c hc b List.mem_cons_self).1,
      fun c hc => (hlevel c hc b List.mem_cons_self).2, rfl⟩

theorem sound (h : Canonical boxes) {row : Row Int} (hrow : row ∈ rowsOf boxes) :
    row.band.Sound := by
  cases row with
  | nil => exact absurd hrow (List.nil_notMem_splitBy _ _)
  | cons b row =>
    refine ⟨b.top_lt_bottom, by simp [Row.band], fun s hs => ?_, ?_⟩
    · obtain ⟨c, -, rfl⟩ := List.mem_map.mp hs
      exact c.left_lt_right
    · exact List.pairwise_map.mpr (h.gaps (b :: row) hrow)

/-- Canonical boxes are the rows of stacked bands. -/
theorem banded (h : Canonical boxes) :
    Region.Banded ⟨boxes⟩ (rowsOf boxes) ((rowsOf boxes).map Row.band) := by
  have hne : ∀ row ∈ rowsOf boxes, ∃ b rest, row = b :: rest := fun row hrow =>
    List.exists_cons_of_ne_nil (List.ne_nil_of_mem_splitBy hrow)
  refine ⟨(List.flatten_splitBy _ _).symm, ?_, ⟨⟨?_, ?_⟩, ?_⟩⟩
  · exact List.forall₂_map_right_iff.mpr (List.forall₂_same.mpr fun row hrow => h.fits hrow)
  · intro band hband
    obtain ⟨row, hrow, rfl⟩ := List.mem_map.mp hband
    exact h.sound hrow
  · refine List.pairwise_map.mpr ((List.Pairwise.and_mem.mp h.below).imp ?_)
    rintro above row ⟨habove, hrow, hle⟩
    obtain ⟨b, bs, rfl⟩ := hne above habove
    obtain ⟨c, cs, rfl⟩ := hne row hrow
    exact hle b List.mem_cons_self c List.mem_cons_self
  · refine (List.pairwise_map.mpr ((List.Pairwise.and_mem.mp h.distinct).imp ?_)).isChain
    rintro above row ⟨habove, hrow, hdistinct⟩ htouch
    obtain ⟨b, bs, rfl⟩ := hne above habove
    obtain ⟨c, cs, rfl⟩ := hne row hrow
    exact hdistinct b List.mem_cons_self c List.mem_cons_self htouch

end Canonical

/-! ## Boxes brought into banded form -/

theorem Region.ofUnordered?_eq_ok_iff {boxes : List (Box Int)} {r : Region Int} :
    ofUnordered? boxes = .ok r ↔ bandBoxes? boxes = .ok r.boxes := by
  unfold ofUnordered?
  cases bandBoxes? boxes with
  | error e => simp
  | ok banded =>
    rw [Except.ok.injEq, Except.ok.injEq]
    exact ⟨fun h => congrArg Region.boxes h, fun h => congrArg Region.mk h⟩

/-- Boxes in any order can be brought into banded form, which covers what they cover. -/
theorem canonical_bandBoxes? (boxes : List (Box Int)) :
    ∃ banded, bandBoxes? boxes = .ok banded ∧
      (∀ x y, (∃ b ∈ banded, b.Covers x y) ↔ ∃ b ∈ boxes, b.Covers x y) ∧ Canonical banded := by
  obtain ⟨r, rows, bands, hr, hbanded, hcovers⟩ := Region.ofUnordered?_eq_ok boxes
  exact ⟨r.boxes, Region.ofUnordered?_eq_ok_iff.mp hr, hcovers, hbanded.canonical⟩

end Confinement
