import Confinement.Outline.Basic
import Confinement.Proofs.Bands
import Mathlib.Data.List.SplitBy

/-!
# Regions in banded form

The boxes of a band are a row that fits it : they share its top and bottom, and their columns
are its spans (`Row.Fits`). A region is in banded form if its boxes are the rows of stacked
bands (`Region.Banded`). Then reading it row by row gives these rows back
(`Region.Banded.rowsOf_eq`), and it covers what the bands cover (`Region.Banded.covers_iff`).

Boxes in any order always make such a region, which covers what they cover
(`Region.ofUnordered?_eq_ok`). So every region that is built, from boxes in the order of
delivery or from rectangles, is in banded form (`Region.Built.banded`), and one is built from
whatever is accepted (`Region.Source.exists_build?`).
-/

namespace Confinement

/-! ## Lists with partners -/

section Partners

variable {α β : Type} {r : α → β → Prop} {xs : List α} {ys : List β}

theorem exists_partner (h : List.Forall₂ r xs ys) {x : α} (hx : x ∈ xs) : ∃ y ∈ ys, r x y := by
  induction h with
  | nil => simp at hx
  | @cons a b _ _ hab _ ih =>
    rcases List.mem_cons.mp hx with rfl | hx
    · exact ⟨b, List.mem_cons_self, hab⟩
    · obtain ⟨y, hy, hxy⟩ := ih hx
      exact ⟨y, List.mem_cons_of_mem _ hy, hxy⟩

/-- What holds of any two entries because it holds of their partners. -/
theorem pairwise_of_partners {s : β → β → Prop} {t : α → α → Prop} (h : List.Forall₂ r xs ys)
    (hs : ys.Pairwise s) (hst : ∀ x y x' y', r x y → r x' y' → s y y' → t x x') :
    xs.Pairwise t := by
  induction h with
  | nil => exact List.Pairwise.nil
  | @cons a b _ _ hab hrest ih =>
    refine List.pairwise_cons.mpr ⟨fun x hx => ?_, ih hs.of_cons⟩
    obtain ⟨y, hy, hxy⟩ := exists_partner hrest hx
    exact hst a b x y hab hxy (List.rel_of_pairwise_cons hs hy)

end Partners

/-! ## Rows -/

/-- A row of boxes that fills a band. -/
structure Row.Fits (row : Row Int) (band : Band Int) : Prop where
  top_eq : ∀ b ∈ row, b.top = band.top
  bottom_eq : ∀ b ∈ row, b.bottom = band.bottom
  columns : row.map Box.columns = band.spans

namespace Row.Fits

variable {row : Row Int} {band : Band Int}

theorem ne_nil (h : Row.Fits row band) (hb : band.Sound) : row ≠ [] := by
  intro hnil
  apply hb.spans_ne_nil
  rw [← h.columns, hnil, List.map_nil]

theorem exists_columns (h : Row.Fits row band) {p : Span Int → Prop} :
    (∃ b ∈ row, p b.columns) ↔ ∃ s ∈ band.spans, p s := by
  rw [← h.columns]
  simp only [List.mem_map, exists_exists_and_eq_and]

/-- A row covers what its band covers. -/
theorem covers_iff (h : Row.Fits row band) (x y : Int) :
    (∃ b ∈ row, b.Covers x y) ↔ band.Covers x y := by
  have hbox : (∃ b ∈ row, b.Covers x y) ↔
      band.top ≤ y ∧ y < band.bottom ∧ ∃ b ∈ row, b.columns.Covers x := by
    constructor
    · rintro ⟨b, hb, hcov⟩
      rw [Box.covers_iff_columns, h.top_eq b hb, h.bottom_eq b hb] at hcov
      exact ⟨hcov.1, hcov.2.1, b, hb, hcov.2.2⟩
    · rintro ⟨hy, hy', b, hb, hx⟩
      refine ⟨b, hb, ?_⟩
      rw [Box.covers_iff_columns, h.top_eq b hb, h.bottom_eq b hb]
      exact ⟨hy, hy', hx⟩
  rw [hbox, h.exists_columns (p := fun s => s.Covers x)]
  rfl

end Row.Fits

/-- The boxes between two rows over spans that hold a column each. -/
theorem exists_row {top bottom : Int} (h : top < bottom) {spans : List (Span Int)}
    (hs : ∀ s ∈ spans, s.left < s.right) :
    ∃ row : Row Int, spans.mapM (fun s => Box.ofCorners? s.left top s.right bottom) = .ok row ∧
      Row.Fits row ⟨top, bottom, spans⟩ := by
  induction spans with
  | nil => exact ⟨[], rfl, by simp, by simp, rfl⟩
  | cons s spans ih =>
    obtain ⟨row, hrow, hfits⟩ := ih fun t ht => hs t (List.mem_cons_of_mem _ ht)
    have hbox := Box.ofCorners?_eq_ok (hs s List.mem_cons_self) h
    refine ⟨_ :: row, mapM_eq_ok_iff.mpr (List.Forall₂.cons hbox (mapM_eq_ok_iff.mp hrow)), ?_⟩
    exact ⟨List.forall_mem_cons.mpr ⟨rfl, hfits.top_eq⟩,
      List.forall_mem_cons.mpr ⟨rfl, hfits.bottom_eq⟩,
      congrArg₂ List.cons rfl hfits.columns⟩

/-- A sound band has a row that fills it. -/
theorem Band.boxes?_eq_ok {b : Band Int} (h : b.Sound) :
    ∃ row, b.boxes? = .ok row ∧ Row.Fits row b :=
  exists_row h.top_lt_bottom h.separated.left_lt_right

theorem exists_rows {bands : List (Band Int)} (h : ∀ b ∈ bands, b.Sound) :
    ∃ rows, bands.mapM Band.boxes? = .ok rows ∧ List.Forall₂ Row.Fits rows bands := by
  induction bands with
  | nil => exact ⟨[], rfl, List.Forall₂.nil⟩
  | cons b bands ih =>
    obtain ⟨rows, hrows, hfits⟩ := ih fun c hc => h c (List.mem_cons_of_mem _ hc)
    obtain ⟨row, hrow, hfit⟩ := Band.boxes?_eq_ok (h b List.mem_cons_self)
    exact ⟨row :: rows,
      mapM_eq_ok_iff.mpr (List.Forall₂.cons hrow (mapM_eq_ok_iff.mp hrows)),
      List.Forall₂.cons hfit hfits⟩

/-- Rows of edges can always be told apart. -/
theorem checkEdges?_eq_ok (boxes : List (Box Int)) : checkEdges? boxes = .ok () :=
  forM_eq_ok fun _ _ => rfl

/-- Boxes can always be brought into banded form. -/
theorem bandBoxes?_eq_ok (boxes : List (Box Int)) :
    ∃ rows, bandBoxes? boxes = .ok rows.flatten ∧
      List.Forall₂ Row.Fits rows (bandsOf boxes) := by
  obtain ⟨rows, hrows, hfits⟩ := exists_rows (stacked_bandsOf boxes).sound
  refine ⟨rows, ?_, hfits⟩
  unfold bandBoxes?
  rw [checkEdges?_eq_ok, hrows]
  rfl

/-! ## Rectangles -/

/-- The positions a rectangle covers. -/
def Rectangle.Covers (rect : Rectangle Int) (x y : Int) : Prop :=
  rect.x ≤ x ∧ x < rect.x + rect.width ∧ rect.y ≤ y ∧ y < rect.y + rect.height

theorem Rectangle.checkSize?_eq_ok_iff {rect : Rectangle Int} :
    rect.checkSize? = .ok () ↔ 0 ≤ rect.width ∧ 0 ≤ rect.height := by
  simp only [checkSize?, Coordinate.ofInt_int, Coordinate.before?_int, Except.mapError, bind,
    Except.bind, pure, Except.pure, throw, throwThe, MonadExceptOf.throw, decide_eq_true_eq]
  split
  · exact iff_of_false (fun h => nomatch h) (by omega)
  · split
    · exact iff_of_false (fun h => nomatch h) (by omega)
    · exact iff_of_true rfl (by omega)

/-- A rectangle without a negative size has a box that covers what it covers, or is empty. -/
theorem Rectangle.box?_eq_ok {rect : Rectangle Int} (hw : 0 ≤ rect.width) (hh : 0 ≤ rect.height) :
    ∃ found, rect.box? = .ok found ∧ ∀ x y, rect.Covers x y ↔ ∃ b ∈ found, b.Covers x y := by
  have hsize : rect.checkSize? = .ok () := checkSize?_eq_ok_iff.mpr ⟨hw, hh⟩
  unfold box? Covers
  rw [hsize]
  by_cases hempty : rect.width = 0 ∨ rect.height = 0
  · have hempty' : (rect.width == (Coordinate.ofInt 0 : Int) ||
        rect.height == (Coordinate.ofInt 0 : Int)) = true := by simpa using hempty
    refine ⟨none, ?_, fun x y => iff_of_false (by omega) (by simp)⟩
    show (if _ then _ else _) = _
    rw [if_pos hempty']
    rfl
  · have hempty' : ¬(rect.width == (Coordinate.ofInt 0 : Int) ||
        rect.height == (Coordinate.ofInt 0 : Int)) = true := by simpa using hempty
    have hx : rect.x < rect.x + rect.width := by omega
    have hy : rect.y < rect.y + rect.height := by omega
    refine ⟨some ⟨rect.x, rect.y, rect.x + rect.width, rect.y + rect.height, by omega, by omega⟩,
      ?_, fun x y => ?_⟩
    · show (if _ then _ else _) = _
      rw [if_neg hempty', Coordinate.add_int, Coordinate.add_int]
      show (some <$> (Box.ofCorners? rect.x rect.y (rect.x + rect.width)
        (rect.y + rect.height)).mapError _) = _
      rw [Box.ofCorners?_eq_ok hx hy]
      rfl
    · simp [Box.Covers]

/-! ## Regions -/

namespace Region

/-- A region whose boxes are the rows of stacked bands. -/
structure Banded (r : Region Int) (rows : List (Row Int)) (bands : List (Band Int)) : Prop where
  boxes_eq : r.boxes = rows.flatten
  fits : List.Forall₂ Row.Fits rows bands
  stacked : Band.Stacked bands

namespace Banded

variable {r : Region Int} {rows : List (Row Int)} {bands : List (Band Int)}

theorem covers_rows (h : List.Forall₂ Row.Fits rows bands) (x y : Int) :
    (∃ b ∈ rows.flatten, b.Covers x y) ↔ ∃ band ∈ bands, band.Covers x y := by
  induction h with
  | nil => simp
  | cons hfit _ ih =>
    simp only [List.flatten_cons, List.mem_append, or_and_right, exists_or, ih,
      hfit.covers_iff, List.exists_mem_cons_iff]

/-- A region in banded form covers what its bands cover. -/
theorem covers_iff (h : r.Banded rows bands) (x y : Int) :
    r.Covers x y ↔ ∃ band ∈ bands, band.Covers x y := by
  rw [Region.Covers, h.boxes_eq, covers_rows h.fits]

/-- Every box of the rows has the top of one of the bands. -/
theorem exists_top_eq (h : List.Forall₂ Row.Fits rows bands) {b : Box Int}
    (hb : b ∈ rows.flatten) : ∃ band ∈ bands, b.top = band.top := by
  obtain ⟨row, hrow, hmem⟩ := List.mem_flatten.mp hb
  obtain ⟨band, hband, hfit⟩ := exists_partner h hrow
  exact ⟨band, hband, hfit.top_eq b hmem⟩

/-- The rows of bands, one below the other, are the runs of boxes with the same top. -/
theorem rowsOf_flatten (h : List.Forall₂ Row.Fits rows bands) (hb : Band.Layered bands) :
    rowsOf rows.flatten = rows := by
  induction h with
  | nil => rfl
  | @cons row band rows bands hfit hrest ih =>
    have hchain : row.IsChain fun b c => (b.top == c.top) = true := by
      refine (List.pairwise_of_forall_mem_list fun b hb c hc => ?_).isChain
      rw [beq_iff_eq, hfit.top_eq b hb, hfit.top_eq c hc]
    have hbreak : ∀ b ∈ row.getLast?, ∀ c ∈ rows.flatten.head?, (b.top == c.top) = false := by
      intro b hb' c hc
      obtain ⟨next, hnext, htop⟩ := exists_top_eq hrest (List.mem_of_mem_head? hc)
      have := hb.head.top_lt_bottom
      have := hb.bottom_le hnext
      rw [beq_eq_false_iff_ne, hfit.top_eq b (List.mem_of_mem_getLast? hb'), htop]
      omega
    rw [rowsOf, List.flatten_cons, List.splitBy_append hbreak,
      List.splitBy_of_isChain (hfit.ne_nil hb.head) hchain]
    exact congrArg (row :: ·) (ih hb.tail)

/-- Reading a region in banded form row by row gives its rows. -/
theorem rowsOf_eq (h : r.Banded rows bands) : rowsOf r.boxes = rows := by
  rw [h.boxes_eq, rowsOf_flatten h.fits h.stacked.toLayered]

end Banded

/-- Boxes in any order make a region in banded form, which covers what they cover. -/
theorem ofUnordered?_eq_ok (boxes : List (Box Int)) :
    ∃ r rows bands, ofUnordered? boxes = .ok r ∧ r.Banded rows bands ∧
      ∀ x y, r.Covers x y ↔ ∃ b ∈ boxes, b.Covers x y := by
  obtain ⟨rows, hrows, hfits⟩ := bandBoxes?_eq_ok boxes
  have hbanded : Banded ⟨rows.flatten⟩ rows (bandsOf boxes) :=
    ⟨rfl, hfits, stacked_bandsOf boxes⟩
  refine ⟨⟨rows.flatten⟩, rows, bandsOf boxes, by rw [ofUnordered?, hrows], hbanded, ?_⟩
  intro x y
  rw [hbanded.covers_iff, covers_bandsOf]

/-- Rectangles without negative sizes make a region, which covers what they cover. -/
theorem ofRectangles?_eq_ok {rectangles : List (Rectangle Int)}
    (h : ∀ rect ∈ rectangles, 0 ≤ rect.width ∧ 0 ≤ rect.height) :
    ∃ r, ofRectangles? rectangles = .ok r ∧
      ∀ x y, r.Covers x y ↔ ∃ rect ∈ rectangles, rect.Covers x y := by
  have hboxes : ∃ boxes, rectangles.mapM Rectangle.box? = .ok boxes ∧
      ∀ x y, (∃ b ∈ boxes.filterMap id, b.Covers x y) ↔ ∃ rect ∈ rectangles, rect.Covers x y := by
    induction rectangles with
    | nil => exact ⟨[], rfl, by simp⟩
    | cons rect rectangles ih =>
      obtain ⟨hrect, hrest⟩ := List.forall_mem_cons.mp h
      obtain ⟨found, hfound, hcovers⟩ := Rectangle.box?_eq_ok hrect.1 hrect.2
      obtain ⟨boxes, hboxes, hcovers'⟩ := ih hrest
      refine ⟨found :: boxes, mapM_eq_ok_iff.mpr
        (List.Forall₂.cons hfound (mapM_eq_ok_iff.mp hboxes)), fun x y => ?_⟩
      rw [List.exists_mem_cons_iff, ← hcovers', hcovers]
      cases found <;> simp
  obtain ⟨boxes, hboxes, hcovers⟩ := hboxes
  obtain ⟨r, -, -, hr, -, hcovers'⟩ := ofUnordered?_eq_ok (boxes.filterMap id)
  refine ⟨r, ?_, fun x y => (hcovers' x y).trans (hcovers x y)⟩
  unfold ofRectangles?
  rw [hboxes]
  exact hr

/-- A region that is built, from boxes in the order of delivery or from rectangles. -/
inductive Built : Region Int → Prop where
  /-- Boxes in the order of delivery. -/
  | ofBoxes {boxes : List (Box Int)} {r : Region Int} (h : ofBoxes? boxes = .ok r) : Built r
  /-- Rectangles in any order. -/
  | ofRectangles {rectangles : List (Rectangle Int)} {r : Region Int}
    (h : ofRectangles? rectangles = .ok r) : Built r

/-- What is built is built from boxes in some order. -/
theorem Built.exists_ofUnordered? {r : Region Int} (h : r.Built) :
    ∃ boxes, ofUnordered? boxes = .ok r := by
  cases h with
  | @ofBoxes boxes _ h =>
    unfold ofBoxes? at h
    split at h
    · exact ⟨boxes, h⟩
    · cases h
  | @ofRectangles rectangles _ h =>
    unfold ofRectangles? at h
    cases hboxes : rectangles.mapM Rectangle.box? with
    | error e => rw [hboxes] at h; cases h
    | ok boxes =>
      rw [hboxes] at h
      exact ⟨boxes.filterMap id, h⟩

/-- A region that is built is in banded form. -/
theorem Built.banded {r : Region Int} (h : r.Built) : ∃ rows bands, r.Banded rows bands := by
  obtain ⟨boxes, hboxes⟩ := h.exists_ofUnordered?
  obtain ⟨r', rows, bands, hr', hbanded, -⟩ := ofUnordered?_eq_ok boxes
  cases hboxes.symm.trans hr'
  exact ⟨rows, bands, hbanded⟩

/-! ## What regions are built from -/

/-- What a region can be built from. -/
inductive Source where
  /-- Boxes in the order of delivery. -/
  | boxes (boxes : List (Box Int))
  /-- Rectangles in any order. -/
  | rectangles (rectangles : List (Rectangle Int))

namespace Source

/-- The region built from it. -/
def build? : Source → Except (RegionError Int) (Region Int)
  | boxes bs => ofBoxes? bs
  | rectangles rects => ofRectangles? rects

/-- Boxes must come in the order of delivery, rectangles must not have a negative size. -/
def Accepted : Source → Prop
  | boxes bs => rowMajor? bs = .ok ()
  | rectangles rects => ∀ rect ∈ rects, 0 ≤ rect.width ∧ 0 ≤ rect.height

/-- The positions it covers. -/
def Covers : Source → Int → Int → Prop
  | boxes bs, x, y => ∃ b ∈ bs, b.Covers x y
  | rectangles rects, x, y => ∃ rect ∈ rects, rect.Covers x y

/-- From what is accepted a region is built that covers the same positions. -/
theorem exists_build? {s : Source} (h : s.Accepted) :
    ∃ r, s.build? = .ok r ∧ r.Built ∧ ∀ x y, r.Covers x y ↔ s.Covers x y := by
  cases s with
  | boxes bs =>
    obtain ⟨r, -, -, hr, -, hcovers⟩ := ofUnordered?_eq_ok bs
    have hbuild : ofBoxes? bs = .ok r := by
      unfold ofBoxes?
      rw [show rowMajor? bs = .ok () from h]
      exact hr
    exact ⟨r, hbuild, .ofBoxes hbuild, hcovers⟩
  | rectangles rects =>
    obtain ⟨r, hr, hcovers⟩ := ofRectangles?_eq_ok h
    exact ⟨r, hr, .ofRectangles hr, hcovers⟩

/-- What a region is built from is accepted. -/
theorem accepted_of_build? {s : Source} {r : Region Int} (h : s.build? = .ok r) : s.Accepted := by
  cases s with
  | boxes bs =>
    have hbuild : ofBoxes? bs = .ok r := h
    unfold ofBoxes? at hbuild
    split at hbuild
    · assumption
    · cases hbuild
  | rectangles rects =>
    intro rect hrect
    obtain ⟨boxes, hboxes, -⟩ := bind_eq_ok_iff.mp h
    obtain ⟨found, -, hfound⟩ := exists_partner (mapM_eq_ok_iff.mp hboxes) hrect
    obtain ⟨⟨⟩, hsize, -⟩ := bind_eq_ok_iff.mp hfound
    exact Rectangle.checkSize?_eq_ok_iff.mp hsize

end Source

/-! ## Stairs -/

/-- Two boxes, of which the lower one begins further to the right, make a region. -/
theorem exists_stairs : ∃ r : Region Int,
    ofRectangles? [⟨0, 0, 2, 1⟩, ⟨1, 1, 2, 1⟩] = .ok r ∧ r.Covers 1 0 := by
  have hsizes : ∀ rect ∈ ([⟨0, 0, 2, 1⟩, ⟨1, 1, 2, 1⟩] : List (Rectangle Int)),
      0 ≤ rect.width ∧ 0 ≤ rect.height := by simp
  obtain ⟨r, hr, hcovers⟩ := ofRectangles?_eq_ok hsizes
  refine ⟨r, hr, (hcovers 1 0).mpr ?_⟩
  simp [Rectangle.Covers]

end Region

end Confinement
