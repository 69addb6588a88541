import Confinement.Proofs.Canonical
import Confinement.Proofs.Outlines

/-!
# One banded form for every area

Regions in banded form that cover the same positions are the same, box by box
(`Region.Banded.eq_of_covers`). So two regions are equal if and only if what they were built from
covers the same positions, whatever its order and however it is cut (`Region.Source.eq_iff_covers`),
and canonical boxes that are brought into banded form stay as they are
(`Canonical.bandBoxes?_eq_ok`).

The area decides which spans and which bands there are : the spans of a row are known by the
columns that it covers (`Span.Separated.eq_of_covers`), and the bands are the longest runs of rows
that cover the same columns (`Band.Stacked.mem_iff`). Two longest runs with a row in common are
the same, and a list in ascending order is known by its entries.

As canonical boxes are the ones that their own area is brought into (`Canonical.built`), and a
list of boxes with number coordinates can be checked for being canonical, a fixed region is known
to be built without banding its boxes.
-/

namespace Confinement

/-! ## Longest runs of rows -/

namespace Band

/-- Whether a row of an area covers the columns of a band and no others. -/
def FillsRow (b : Band Int) (area : Int → Int → Prop) (y : Int) : Prop :=
  ∀ x, area x y ↔ ∃ s ∈ b.spans, s.Covers x

/-- Whether a band is a longest run of rows of an area that cover the same columns. -/
structure IsRun (area : Int → Int → Prop) (b : Band Int) : Prop where
  sound : b.Sound
  inside : ∀ y, b.top ≤ y → y < b.bottom → b.FillsRow area y
  above : ¬b.FillsRow area (b.top - 1)
  below : ¬b.FillsRow area b.bottom

variable {area : Int → Int → Prop} {b c : Band Int} {bands bands' : List (Band Int)}

/-- Two bands that fill the same row have the same columns. -/
theorem FillsRow.spans_eq {y : Int} (hb : b.FillsRow area y) (hc : c.FillsRow area y)
    (hb' : b.Sound) (hc' : c.Sound) : b.spans = c.spans :=
  hb'.separated.eq_of_covers hc'.separated fun x => (hb x).symm.trans (hc x)

/-- Two longest runs with a row in common are the same. -/
theorem IsRun.eq (hb : b.IsRun area) (hc : c.IsRun area) {y : Int}
    (hby : b.top ≤ y ∧ y < b.bottom) (hcy : c.top ≤ y ∧ y < c.bottom) : b = c := by
  have hspans : b.spans = c.spans :=
    (hb.inside y hby.1 hby.2).spans_eq (hc.inside y hcy.1 hcy.2) hb.sound hc.sound
  have hfills : ∀ z, b.FillsRow area z ↔ c.FillsRow area z := fun z => by
    unfold FillsRow
    rw [hspans]
  have htop : ¬b.top < c.top := fun hlt =>
    hc.above ((hfills _).mp (hb.inside _ (by omega) (by omega)))
  have htop' : ¬c.top < b.top := fun hlt =>
    hb.above ((hfills _).mpr (hc.inside _ (by omega) (by omega)))
  have hbottom : ¬b.bottom < c.bottom := fun hlt =>
    hb.below ((hfills _).mpr (hc.inside _ (by omega) (by omega)))
  have hbottom' : ¬c.bottom < b.bottom := fun hlt =>
    hc.below ((hfills _).mp (hb.inside _ (by omega) (by omega)))
  have ht : b.top = c.top := by omega
  have hb : b.bottom = c.bottom := by omega
  obtain ⟨top, bottom, spans⟩ := b
  cases ht
  cases hb
  cases hspans
  rfl

/-- A band fills its rows of the area of layered bands : no other one reaches them. -/
theorem Layered.fillsRow (h : Layered bands) (hb : b ∈ bands) {y : Int} (hy : b.top ≤ y)
    (hy' : y < b.bottom) : b.FillsRow (Area bands) y := by
  intro x
  constructor
  · rintro ⟨c, hc, hc₁, hc₂, hx⟩
    have hsame : b = c := (h.eq_or_apart hb hc).resolve_right (by omega)
    rwa [hsame]
  · exact fun hx => ⟨b, hb, hy, hy', hx⟩

/-- What fills a row that it does not reach has the columns of a band that reaches it. -/
theorem Layered.exists_reaching (h : Layered bands) (hb : b.Sound) {y : Int}
    (hfills : b.FillsRow (Area bands) y) :
    ∃ c ∈ bands, c.top ≤ y ∧ y < c.bottom ∧ c.spans = b.spans := by
  obtain ⟨s, spans, hs⟩ := List.exists_cons_of_ne_nil hb.spans_ne_nil
  have hmem : s ∈ b.spans := hs ▸ List.mem_cons_self
  obtain ⟨c, hc, hc₁, hc₂, -⟩ :=
    (hfills s.left).mpr ⟨s, hmem, le_rfl, hb.separated.left_lt_right s hmem⟩
  exact ⟨c, hc, hc₁, hc₂, (h.fillsRow hc hc₁ hc₂).spans_eq hfills (h.sound c hc) hb⟩

/-- Stacked bands are longest runs of rows of their area. -/
theorem Stacked.isRun (h : Stacked bands) (hb : b ∈ bands) : b.IsRun (Area bands) := by
  have hsound := h.sound b hb
  refine ⟨hsound, fun y => h.toLayered.fillsRow hb, fun habove => ?_, fun hbelow => ?_⟩
  · obtain ⟨c, hc, hc₁, hc₂, hspans⟩ := h.toLayered.exists_reaching hsound habove
    rcases h.toLayered.eq_or_apart hb hc with rfl | hle | hle
    · omega
    · have := hsound.top_lt_bottom
      omega
    · exact h.spans_ne hc hb (by omega) hspans
  · obtain ⟨c, hc, hc₁, hc₂, hspans⟩ := h.toLayered.exists_reaching hsound hbelow
    rcases h.toLayered.eq_or_apart hb hc with rfl | hle | hle
    · omega
    · exact h.spans_ne hb hc (by omega) hspans.symm
    · have := hsound.top_lt_bottom
      omega

/-- Stacked bands are all longest runs of rows of their area. -/
theorem Stacked.mem_iff (h : Stacked bands) : b ∈ bands ↔ b.IsRun (Area bands) := by
  refine ⟨h.isRun, fun hb => ?_⟩
  have htop := hb.sound.top_lt_bottom
  obtain ⟨c, hc, hc₁, hc₂, -⟩ :=
    h.toLayered.exists_reaching hb.sound (hb.inside b.top le_rfl htop)
  rwa [hb.eq (h.isRun hc) ⟨le_rfl, htop⟩ ⟨hc₁, hc₂⟩]

theorem Layered.ascending (h : Layered bands) : bands.Pairwise fun b c => b.top < c.top := by
  refine (List.Pairwise.and_mem.mp h.order).imp ?_
  rintro b c ⟨hb, -, hle⟩
  exact (h.sound b hb).top_lt_bottom.trans_le hle

/-- Stacked bands with the same area are the same. -/
theorem Stacked.eq_of_area (h : Stacked bands) (h' : Stacked bands')
    (harea : ∀ x y, Area bands x y ↔ Area bands' x y) : bands = bands' := by
  refine eq_of_ascending h.toLayered.ascending h'.toLayered.ascending fun b => ?_
  rw [h.mem_iff, h'.mem_iff, funext fun x => funext fun y => propext (harea x y)]

end Band

/-! ## Regions with the same area -/

/-- A box is known by its rows and its columns. -/
theorem Box.injective_rows_columns :
    Function.Injective fun b : Box Int => (b.top, b.bottom, b.columns) := by
  rintro ⟨left, top, right, bottom, _, _⟩ ⟨left', top', right', bottom', _, _⟩ h
  simp only [columns, Prod.mk.injEq, Span.mk.injEq] at h
  obtain ⟨rfl, rfl, rfl, rfl⟩ := h
  rfl

theorem Row.Fits.map_rows_columns {row : Row Int} {band : Band Int} (h : Row.Fits row band) :
    row.map (fun b => (b.top, b.bottom, b.columns)) =
      band.spans.map fun s => (band.top, band.bottom, s) := by
  rw [← h.columns, List.map_map]
  refine List.map_congr_left fun b hb => ?_
  rw [Function.comp_apply, h.top_eq b hb, h.bottom_eq b hb]

/-- There is one row that fills a band. -/
theorem Row.Fits.eq {row row' : Row Int} {band : Band Int} (h : Row.Fits row band)
    (h' : Row.Fits row' band) : row = row' :=
  List.map_injective_iff.mpr Box.injective_rows_columns
    (h.map_rows_columns.trans h'.map_rows_columns.symm)

namespace Region

variable {r r' : Region Int} {rows rows' : List (Row Int)} {bands bands' : List (Band Int)}

/-- Regions in banded form that cover the same positions are the same. -/
theorem Banded.eq_of_covers (h : r.Banded rows bands) (h' : r'.Banded rows' bands')
    (hcovers : ∀ x y, r.Covers x y ↔ r'.Covers x y) : r = r' := by
  have hbands : bands = bands' := h.stacked.eq_of_area h'.stacked fun x y =>
    (h.covers_iff x y).symm.trans ((hcovers x y).trans (h'.covers_iff x y))
  have hunique : Relator.LeftUnique Row.Fits := fun _ _ _ hrow hrow' => hrow.eq hrow'
  subst hbands
  have hrows : rows = rows' := List.left_unique_forall₂' hunique h.fits h'.fits
  cases r
  cases r'
  rw [mk.injEq]
  exact h.boxes_eq.trans (hrows ▸ h'.boxes_eq.symm)

/-- A region in banded form is the one built from all that covers the same positions. -/
theorem Banded.build?_eq_ok (h : r.Banded rows bands) {s : Source} (hs : s.Accepted)
    (hcovers : ∀ x y, s.Covers x y ↔ r.Covers x y) : s.build? = .ok r := by
  obtain ⟨r', hr', hbuilt, hcovers'⟩ := Source.exists_build? hs
  obtain ⟨rows', bands', hbanded⟩ := hbuilt.banded
  cases hbanded.eq_of_covers h fun x y => (hcovers' x y).trans (hcovers x y)
  exact hr'

end Region

/-! ## Canonical boxes -/

/-- The rectangle of a box. -/
def Box.rectangle (b : Box Int) : Rectangle Int :=
  ⟨b.left, b.top, b.width, b.height⟩

theorem Box.covers_rectangle (b : Box Int) (x y : Int) :
    b.rectangle.Covers x y ↔ b.Covers x y := by
  unfold rectangle Rectangle.Covers Box.Covers width height
  simp only
  omega

theorem Box.rectangle_nonneg (b : Box Int) : 0 ≤ b.rectangle.width ∧ 0 ≤ b.rectangle.height :=
  ⟨Int.sub_nonneg_of_le b.left_lt_right.le, Int.sub_nonneg_of_le b.top_lt_bottom.le⟩

namespace Canonical

variable {boxes : List (Box Int)}

/-- Canonical boxes that are brought into banded form stay as they are. -/
theorem bandBoxes?_eq_ok (h : Canonical boxes) : bandBoxes? boxes = .ok boxes := by
  obtain ⟨r, rows, bands, hr, hbanded, hcovers⟩ := Region.ofUnordered?_eq_ok boxes
  cases hbanded.eq_of_covers h.banded hcovers
  exact Region.ofUnordered?_eq_ok_iff.mp hr

/-- Canonical boxes make a region, which is built from their rectangles. -/
theorem built (h : Canonical boxes) : Region.Built ⟨boxes⟩ := by
  have hsizes : (Region.Source.rectangles (boxes.map Box.rectangle)).Accepted :=
    List.forall_mem_map.mpr fun b _ => b.rectangle_nonneg
  refine .ofRectangles (h.banded.build?_eq_ok hsizes fun x y => ?_)
  simp only [Region.Source.Covers, Region.Covers, List.mem_map, exists_exists_and_eq_and,
    Box.covers_rectangle]

end Canonical

namespace Region

/-- Two regions are equal if and only if what they are built from covers the same positions. The
boxes of a region that is built are brought into banded form without a change. -/
theorem Source.eq_iff_covers {s t : Source} (hs : s.Accepted) (ht : t.Accepted) :
    ∃ r r', s.build? = .ok r ∧ t.build? = .ok r' ∧
      (r = r' ↔ ∀ x y, s.Covers x y ↔ t.Covers x y) ∧ bandBoxes? r.boxes = .ok r.boxes := by
  obtain ⟨r, hr, hbuilt, hcovers⟩ := exists_build? hs
  obtain ⟨r', hr', hbuilt', hcovers'⟩ := exists_build? ht
  obtain ⟨rows, bands, hbanded⟩ := hbuilt.banded
  obtain ⟨rows', bands', hbanded'⟩ := hbuilt'.banded
  refine ⟨r, r', hr, hr', ⟨?_, fun hsame => ?_⟩, hbanded.canonical.bandBoxes?_eq_ok⟩
  · rintro rfl x y
    exact (hcovers x y).symm.trans (hcovers' x y)
  · exact hbanded.eq_of_covers hbanded' fun x y =>
      (hcovers x y).trans ((hsame x y).trans (hcovers' x y).symm)

/-- A corner of three pixels, as two boxes. -/
def Source.cornerBoxes : Source :=
  boxes [{ left := 0, top := 0, right := 2, bottom := 1 },
    { left := 0, top := 1, right := 1, bottom := 2 }]

/-- The same corner, as rectangles that overlap. -/
def Source.cornerRectangles : Source :=
  rectangles [⟨1, 0, 1, 1⟩, ⟨0, 0, 1, 2⟩, ⟨0, 0, 2, 1⟩]

/-- The two regions of the corner. -/
theorem Source.eq_iff_covers_corner :
    cornerBoxes.Accepted ∧ cornerRectangles.Accepted ∧ ∃ r r', cornerBoxes.build? = .ok r ∧
      cornerRectangles.build? = .ok r' ∧
      (r = r' ↔ ∀ x y, cornerBoxes.Covers x y ↔ cornerRectangles.Covers x y) ∧
      bandBoxes? r.boxes = .ok r.boxes := by
  have hboxes : cornerBoxes.Accepted := rfl
  have hrectangles : cornerRectangles.Accepted := by simp [cornerRectangles, Accepted]
  exact ⟨hboxes, hrectangles, Source.eq_iff_covers hboxes hrectangles⟩

end Region

/-! ## Some regions -/

/-- The smallest box over two pixels. -/
def Box.ofPixels (p q : Point Int) : Box Int where
  left := min p.x q.x
  top := min p.y q.y
  right := max p.x q.x + 1
  bottom := max p.y q.y + 1

namespace Region

/-- Eight pixels around one that is left out. -/
def frame : Region Int :=
  ⟨[{ left := 0, top := 0, right := 3, bottom := 1 },
    { left := 0, top := 1, right := 1, bottom := 2 },
    { left := 2, top := 1, right := 3, bottom := 2 },
    { left := 0, top := 2, right := 3, bottom := 3 }]⟩

theorem built_frame : frame.Built :=
  Canonical.built (by decide)

/-- A region of one pixel. -/
def pixel : Region Int :=
  ⟨[{ left := 0, top := 0, right := 1, bottom := 1 }]⟩

theorem built_pixel : pixel.Built :=
  Canonical.built (by decide)

end Region

end Confinement
