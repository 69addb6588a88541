import Confinement.Proofs.Uniqueness
import Mathlib.Data.Rat.Floor

/-!
# Points in regions

A point lies in a region if the pixel that it lies in is covered (`Region.Built.contains_iff`).
The search for a box that covers the pixel ends at the first one that starts below it. Boxes
come in the order of their tops, so none that comes later covers it either
(`Region.coveredBy?_eq_ok`).

So a region contains the points of the boxes or rectangles that it is built from, without their
right and bottom edges, and no others (`Region.Source.build_contains_iff`). Their sides lie on grid
lines, so a point is in one of them if the pixel that it lies in is
(`Region.Source.covers_floor_iff`).
-/

namespace Confinement

/-- A coordinate from one grid line to before another lies in a cell between them. -/
theorem floor_mem {low high : Int} {z : Rat} (hlow : (low : Rat) ≤ z) (hhigh : z < high) :
    low ≤ ⌊z⌋ ∧ ⌊z⌋ + 1 ≤ high :=
  ⟨Int.le_floor.mpr hlow, Int.floor_lt.mpr hhigh⟩

namespace Region

/-- Where boxes come in the order of their tops, the search finds one that covers a position if
there is one. -/
theorem coveredBy?_eq_ok {boxes : List (Box Int)} (h : boxes.Pairwise fun b c => b.top ≤ c.top)
    (x y : Int) : coveredBy? x y boxes = .ok (decide (∃ b ∈ boxes, b.Covers x y)) := by
  induction boxes with
  | nil => simp [coveredBy?]
  | cons b boxes ih =>
    have hsearch : coveredBy? x y (b :: boxes) = if y < b.top then .ok false
        else if b.Covers x y then .ok true else coveredBy? x y boxes := rfl
    rw [hsearch]
    by_cases hbelow : y < b.top
    · rw [if_pos hbelow, Except.ok.injEq]
      refine (decide_eq_false ?_).symm
      rintro ⟨c, hc, hcov⟩
      have hle : b.top ≤ c.top := by
        rcases List.mem_cons.mp hc with rfl | hc
        · exact le_rfl
        · exact List.rel_of_pairwise_cons h hc
      have := hcov.2.2.1
      omega
    · rw [if_neg hbelow, ih h.of_cons]
      by_cases hb : b.Covers x y
      · simp [hb]
      · simp [hb]

/-- A region that is built contains a point if it covers the pixel that the point lies in, and
always tells. -/
theorem Built.contains_eq_ok {r : Region Int} (h : r.Built) (p : Point Rat) :
    r.contains p = .ok (decide (r.Covers ⌊p.x⌋ ⌊p.y⌋)) := by
  obtain ⟨rows, bands, hbanded⟩ := h.banded
  exact coveredBy?_eq_ok hbanded.canonical.tops_sorted ⌊p.x⌋ ⌊p.y⌋

theorem Built.contains_iff {r : Region Int} (h : r.Built) (p : Point Rat) :
    r.contains p = .ok true ↔ r.Covers ⌊p.x⌋ ⌊p.y⌋ := by
  rw [h.contains_eq_ok, Except.ok.injEq, decide_eq_true_eq]

/-! ## Regions and what they are built from -/

namespace Source

/-- Whether a point lies in one of the boxes or rectangles. Right and bottom edges do not belong to
them. -/
def Contains : Source → Point Rat → Prop
  | boxes bs, p => ∃ b ∈ bs,
    ((b.left : Rat) ≤ p.x ∧ p.x < b.right) ∧ (b.top : Rat) ≤ p.y ∧ p.y < b.bottom
  | rectangles rects, p => ∃ rect ∈ rects,
    ((rect.x : Rat) ≤ p.x ∧ p.x < rect.x + rect.width) ∧
      (rect.y : Rat) ≤ p.y ∧ p.y < rect.y + rect.height

/-- Boxes and rectangles have the points of the pixels that they cover. -/
theorem covers_floor_iff (s : Source) (p : Point Rat) :
    s.Covers ⌊p.x⌋ ⌊p.y⌋ ↔ s.Contains p := by
  cases s with
  | boxes bs =>
    refine exists_congr fun b => and_congr_right fun _ => ?_
    rw [Box.Covers, Int.le_floor, Int.floor_lt, Int.le_floor, Int.floor_lt, and_assoc]
  | rectangles rects =>
    refine exists_congr fun rect => and_congr_right fun _ => ?_
    rw [Rectangle.Covers, Int.le_floor, Int.floor_lt, Int.le_floor, Int.floor_lt, and_assoc,
      Int.cast_add, Int.cast_add]

/-- The region built from boxes or rectangles contains a point if and only if one of them does, and
always tells. -/
theorem build_contains_iff {s : Source} (h : s.Accepted) : ∃ r, s.build? = .ok r ∧
    ∀ p : Point Rat, ∃ inside, r.contains p = .ok inside ∧ (inside = true ↔ s.Contains p) := by
  obtain ⟨r, hr, hbuilt, hcovers⟩ := exists_build? h
  refine ⟨r, hr, fun p => ⟨_, hbuilt.contains_eq_ok p, ?_⟩⟩
  rw [decide_eq_true_eq, hcovers, covers_floor_iff]

/-- A cross of two bars around the origin, and a corner of two boxes. -/
theorem build_contains_iff_cross :
    (rectangles [⟨-3, -1, 6, 2⟩, ⟨-1, -3, 2, 6⟩]).Accepted ∧ cornerBoxes.Accepted ∧
      (∃ r, (rectangles [⟨-3, -1, 6, 2⟩, ⟨-1, -3, 2, 6⟩]).build? = .ok r ∧
        ∀ p : Point Rat, ∃ inside, r.contains p = .ok inside ∧
          (inside = true ↔ (rectangles [⟨-3, -1, 6, 2⟩, ⟨-1, -3, 2, 6⟩]).Contains p)) ∧
      ∃ r, cornerBoxes.build? = .ok r ∧ ∀ p : Point Rat, ∃ inside, r.contains p = .ok inside ∧
        (inside = true ↔ cornerBoxes.Contains p) := by
  have hcross : (rectangles [⟨-3, -1, 6, 2⟩, ⟨-1, -3, 2, 6⟩]).Accepted := by simp [Accepted]
  have hcorner : cornerBoxes.Accepted := rfl
  exact ⟨hcross, hcorner, build_contains_iff hcross, build_contains_iff hcorner⟩

end Source

end Region

end Confinement
