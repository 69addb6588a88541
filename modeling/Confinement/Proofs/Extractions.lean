import Confinement.Proofs.Closures
import Confinement.Proofs.Deliveries
import Confinement.Proofs.Uniqueness

/-!
# Extraction of outlines

An outline is extracted from a region, which is built from rectangles or from boxes, or from boxes
as they are delivered. It does not matter which : boxes in banded form are in the order of delivery
(`Canonical.delivered`), so those of a region are accepted and make that region again
(`Region.Built.ofBoxes?_boxes`), and boxes that are accepted make the region that the same boxes
make as rectangles in any order. So all of them have one outline
(`Outline.ofBoxes?_eq_ofRegion?`).

Extraction from rectangles without negative sizes never fails. No check of a box, of a border or of
the sweep between two rows is in its way, and there is a border if and only if there is an area
(`Outline.exists_of_sizes`).
-/

namespace Confinement

/-! ## Boxes in the order of delivery -/

/-- A box that starts at the right of another or after it does not overlap it. -/
theorem Box.not_overlap_of_right_le {b c : Box Int} (h : b.right ≤ c.left) : ¬b.Overlap c := by
  rintro ⟨p, hb, hc⟩
  have hlt : (c.left : Rat) < b.right := hc.1.1.trans hb.1.2
  exact absurd (Int.cast_lt.mp hlt) (not_lt.mpr h)

/-- Of two canonical boxes the later one lies to the right in the same row, or in a row below. -/
theorem Canonical.beside_or_below {boxes : List (Box Int)} (h : Canonical boxes) :
    boxes.Pairwise fun b c =>
      (b.top = c.top ∧ b.bottom = c.bottom) ∧ b.right < c.left ∨ b.bottom ≤ c.top := by
  have hrows : (rowsOf boxes).flatten = boxes := List.flatten_splitBy _ _
  rw [← hrows]
  refine List.pairwise_flatten.mpr ⟨fun row hrow => ?_, h.below.imp fun hle b hb c hc => ?_⟩
  · refine (List.Pairwise.and_mem.mp (h.gaps row hrow)).imp ?_
    rintro b c ⟨hb, hc, hgap⟩
    exact Or.inl ⟨h.level row hrow b hb c hc, hgap⟩
  · exact Or.inr (hle b hb c hc)

/-- Canonical boxes are in the order of delivery. -/
theorem Canonical.delivered {boxes : List (Box Int)} (h : Canonical boxes) : Delivered boxes := by
  refine ⟨h.tops_sorted, h.beside_or_below.imp ?_, h.beside_or_below.imp ?_⟩
  · rintro b c (⟨-, hgap⟩ | hbelow) htop
    · exact hgap.le
    · have := b.top_lt_bottom
      omega
  · rintro b c (⟨-, hgap⟩ | hbelow)
    · exact Box.not_overlap_of_right_le hgap.le
    · exact Box.not_overlap_of_bottom_le hbelow

theorem Delivered.rowMajor?_eq_ok {boxes : List (Box Int)} (h : Delivered boxes) :
    rowMajor? boxes = .ok () := by
  rcases rowMajor?_cases boxes with ⟨hok, -⟩ | ⟨e, -, hreports⟩
  · exact hok
  · exact absurd h hreports.not_delivered

/-! ## Regions with one area -/

namespace Region

variable {r : Region Int}

/-- Sources that cover the same positions make one region. -/
theorem Source.build?_of_covers {s t : Source} (hs : s.Accepted) (ht : t.Accepted)
    (hcovers : ∀ x y, s.Covers x y ↔ t.Covers x y) :
    ∃ r, r.Built ∧ s.build? = .ok r ∧ t.build? = .ok r := by
  obtain ⟨r, hr, hbuilt, hsource⟩ := exists_build? hs
  obtain ⟨rows, bands, hbanded⟩ := hbuilt.banded
  exact ⟨r, hbuilt, hr, hbanded.build?_eq_ok ht fun x y =>
    (hcovers x y).symm.trans (hsource x y).symm⟩

theorem Built.rowMajor?_boxes (h : r.Built) : rowMajor? r.boxes = .ok () := by
  obtain ⟨rows, bands, hbanded⟩ := h.banded
  exact hbanded.canonical.delivered.rowMajor?_eq_ok

/-- The boxes of a region that is built make it again. -/
theorem Built.ofBoxes?_boxes (h : r.Built) : ofBoxes? r.boxes = .ok r := by
  have haccepted : (Source.boxes r.boxes).Accepted := h.rowMajor?_boxes
  obtain ⟨rows, bands, hbanded⟩ := h.banded
  exact hbanded.build?_eq_ok haccepted fun x y => Iff.rfl

/-- Boxes that are accepted and their rectangles, in any order, make one region. -/
theorem ofRectangles?_of_perm {boxes : List (Box Int)} (h : rowMajor? boxes = .ok ())
    {rectangles : List (Rectangle Int)} (hperm : rectangles.Perm (boxes.map Box.rectangle)) :
    ∃ r, r.Built ∧ ofBoxes? boxes = .ok r ∧ ofRectangles? rectangles = .ok r := by
  have hboxes : (Source.boxes boxes).Accepted := h
  have hrectangles : (Source.rectangles rectangles).Accepted := by
    intro rect hrect
    obtain ⟨b, -, rfl⟩ := List.mem_map.mp (hperm.mem_iff.mp hrect)
    exact b.rectangle_nonneg
  refine Source.build?_of_covers hboxes hrectangles fun x y => ?_
  simp only [Source.Covers, hperm.mem_iff, List.mem_map, exists_exists_and_eq_and,
    Box.covers_rectangle]

end Region

/-! ## Outlines -/

namespace Outline

/-- What boxes make has their outline. -/
theorem ofBoxes?_of_ofBoxes? {boxes : List (Box Int)} {r : Region Int}
    (h : Region.ofBoxes? boxes = .ok r) {outline : Outline Int}
    (houtline : ofRegion? r = .ok outline) : ofBoxes? boxes = .ok outline := by
  unfold ofBoxes?
  rw [h]
  exact mapError_eq_ok_iff.mpr houtline

/-- The boxes of a region that is built are accepted as they are, make the region again and have
its outline; and boxes that are accepted have the outline of the region that they make as
rectangles, in any order. -/
theorem ofBoxes?_eq_ofRegion? :
    (∀ r : Region Int, r.Built → rowMajor? r.boxes = .ok () ∧ Region.ofBoxes? r.boxes = .ok r ∧
      ∃ outline, ofRegion? r = .ok outline ∧ ofBoxes? r.boxes = .ok outline) ∧
    ∀ boxes : List (Box Int), rowMajor? boxes = .ok () →
      ∀ rectangles : List (Rectangle Int), rectangles.Perm (boxes.map Box.rectangle) →
        ∃ r outline, Region.ofRectangles? rectangles = .ok r ∧ ofRegion? r = .ok outline ∧
          ofBoxes? boxes = .ok outline := by
  constructor
  · intro r h
    obtain ⟨outline, houtline, -⟩ := exists_ofRegion? h.banded
    exact ⟨h.rowMajor?_boxes, h.ofBoxes?_boxes, outline, houtline,
      ofBoxes?_of_ofBoxes? h.ofBoxes?_boxes houtline⟩
  · intro boxes h rectangles hperm
    obtain ⟨r, hbuilt, hboxes, hrectangles⟩ := Region.ofRectangles?_of_perm h hperm
    obtain ⟨outline, houtline, -⟩ := exists_ofRegion? hbuilt.banded
    exact ⟨r, outline, hrectangles, houtline, ofBoxes?_of_ofBoxes? hboxes houtline⟩

end Outline

/-- Two boxes side by side, of different heights. -/
def Region.uneven : List (Box Int) :=
  [.ofPixels ⟨0, 0⟩ ⟨0, 1⟩, .ofPixels ⟨1, 0⟩ ⟨2, 0⟩]

namespace Outline

/-- The frame, and the uneven boxes with their rectangles from right to left. -/
theorem ofBoxes?_eq_ofRegion?_frame :
    (Region.frame.Built ∧ rowMajor? Region.frame.boxes = .ok () ∧
      Region.ofBoxes? Region.frame.boxes = .ok Region.frame ∧
      ∃ outline, ofRegion? Region.frame = .ok outline ∧
        ofBoxes? Region.frame.boxes = .ok outline) ∧
    rowMajor? Region.uneven = .ok () ∧
    ∃ (r : Region Int) (outline : Outline Int),
      Region.ofRectangles? [⟨1, 0, 2, 1⟩, ⟨0, 0, 1, 2⟩] = .ok r ∧ ofRegion? r = .ok outline ∧
        ofBoxes? Region.uneven = .ok outline := by
  have haccepted : rowMajor? Region.uneven = .ok () := by rfl
  exact ⟨⟨Region.built_frame, ofBoxes?_eq_ofRegion?.1 _ Region.built_frame⟩, haccepted,
    ofBoxes?_eq_ofRegion?.2 _ haccepted [⟨1, 0, 2, 1⟩, ⟨0, 0, 1, 2⟩] (.swap _ _ _)⟩

/-- A region has a border in its outline if and only if it has a box. -/
theorem Exact.isEmpty_eq {outline : Outline Int} {r : Region Int} (h : Exact outline r)
    (houtline : ofRegion? r = .ok outline) : outline.isEmpty = r.isEmpty := by
  obtain ⟨boxes⟩ := r
  cases boxes with
  | nil =>
    cases houtline
    rfl
  | cons b boxes => exact List.isEmpty_eq_false_iff.mpr (h.ne_nil List.mem_cons_self)

/-- Rectangles without negative sizes make a region, and that has an outline : borders between two
different points, from left to right or from top to bottom. The outline is empty if and only if the
region is. -/
theorem exists_of_sizes {rectangles : List (Rectangle Int)}
    (h : ∀ rect ∈ rectangles, 0 ≤ rect.width ∧ 0 ≤ rect.height) :
    ∃ r outline, Region.ofRectangles? rectangles = .ok r ∧ ofRegion? r = .ok outline ∧
      (∀ b ∈ outline, b.Proper) ∧ outline.isEmpty = r.isEmpty := by
  obtain ⟨r, hr, -⟩ := Region.ofRectangles?_eq_ok h
  obtain ⟨outline, houtline, hexact⟩ := exists_ofRegion? (Region.Built.ofRectangles hr).banded
  exact ⟨r, outline, hr, houtline, hexact.proper, hexact.isEmpty_eq houtline⟩

/-- The rectangles of the stairs, and one without a column. -/
theorem exists_of_sizes_stairs :
    (∀ rect ∈ [(⟨0, 0, 2, 1⟩ : Rectangle Int), ⟨1, 1, 2, 1⟩, ⟨5, 5, 0, 3⟩],
      0 ≤ rect.width ∧ 0 ≤ rect.height) ∧
    ∃ r outline, Region.ofRectangles? [⟨0, 0, 2, 1⟩, ⟨1, 1, 2, 1⟩, ⟨5, 5, 0, 3⟩] = .ok r ∧
      ofRegion? r = .ok outline ∧ (∀ b ∈ outline, b.Proper) ∧ outline.isEmpty = r.isEmpty := by
  have hsizes : ∀ rect ∈ [(⟨0, 0, 2, 1⟩ : Rectangle Int), ⟨1, 1, 2, 1⟩, ⟨5, 5, 0, 3⟩],
      0 ≤ rect.width ∧ 0 ≤ rect.height := by decide
  exact ⟨hsizes, exists_of_sizes hsizes⟩

end Outline

end Confinement
