import Confinement.Proofs.Extractions
import Mathlib.Order.Bounds.Basic
import Mathlib.Tactic.MkIffOfInductiveProp

/-!
# Extents

The extents of a region take the least left and the greatest right end of its boxes, but only the
top of the first box and the bottom of the last. In banded form these are the least top and the
greatest bottom : a box that comes later lies beside in the same row, or below
(`Canonical.exists_extents?`). So the extents are reached by a box on each side and hold every box.

What a region is built from has other boxes or rectangles, which overlap and reach across many rows.
But the sides reached by pieces of any kind are told by the first and the last column and row of the
positions that the pieces cover (`Box.outermost_iff_bounds`), and a region covers what it is built
from. So the extents are reached by the boxes or rectangles that went in as well, and there is no
smaller box around the positions covered (`Region.Source.extents?_outermost`).
-/

namespace Confinement

/-! ## Ranges -/

section Ranges

variable {ι : Type} {pieces : Set ι} {low high : ι → Int} {line : Int → Prop}

/-- The least start of ranges on a line is the first position that they cover. -/
theorem isLeast_image_iff (hlt : ∀ p ∈ pieces, low p < high p)
    (hline : ∀ z, line z ↔ ∃ p ∈ pieces, low p ≤ z ∧ z < high p) (a : Int) :
    IsLeast (low '' pieces) a ↔ IsLeast {z | line z} a := by
  have hstart : ∀ p ∈ pieces, line (low p) := fun p hp =>
    (hline _).mpr ⟨p, hp, le_rfl, hlt p hp⟩
  constructor
  · rintro ⟨⟨p, hp, rfl⟩, hleast⟩
    refine ⟨hstart p hp, fun z hz => ?_⟩
    obtain ⟨q, hq, hqz, -⟩ := (hline z).mp hz
    exact (hleast ⟨q, hq, rfl⟩).trans hqz
  · rintro ⟨ha, hleast⟩
    obtain ⟨p, hp, hpa, -⟩ := (hline a).mp ha
    have heq : low p = a := le_antisymm hpa (hleast (hstart p hp))
    refine ⟨⟨p, hp, heq⟩, ?_⟩
    rintro _ ⟨q, hq, rfl⟩
    exact hleast (hstart q hq)

/-- The greatest end of ranges on a line comes right after the last position that they cover. -/
theorem isGreatest_image_iff (hlt : ∀ p ∈ pieces, low p < high p)
    (hline : ∀ z, line z ↔ ∃ p ∈ pieces, low p ≤ z ∧ z < high p) (a : Int) :
    IsGreatest (high '' pieces) a ↔ IsGreatest {z | line (z - 1)} a := by
  have hend : ∀ p ∈ pieces, line (high p - 1) := fun p hp =>
    (hline _).mpr ⟨p, hp, Int.le_sub_one_of_lt (hlt p hp), Int.sub_one_lt_of_le le_rfl⟩
  constructor
  · rintro ⟨⟨p, hp, rfl⟩, hgreatest⟩
    refine ⟨hend p hp, fun z hz => ?_⟩
    obtain ⟨q, hq, -, hzq⟩ := (hline _).mp hz
    exact (Int.le_of_sub_one_lt hzq).trans (hgreatest ⟨q, hq, rfl⟩)
  · rintro ⟨ha, hgreatest⟩
    obtain ⟨p, hp, -, hap⟩ := (hline _).mp ha
    have heq : high p = a :=
      le_antisymm (hgreatest (hend p hp)) (Int.le_of_sub_one_lt hap)
    refine ⟨⟨p, hp, heq⟩, ?_⟩
    rintro _ ⟨q, hq, rfl⟩
    exact hgreatest (hend q hq)

end Ranges

/-! ## A box around pieces -/

namespace Box

/-- Whether the sides of a box are the outermost ones of some pieces : each side is that of a piece,
and no piece reaches beyond it. -/
@[mk_iff]
structure Outermost {ι : Type} (box : Box Int) (pieces : Set ι) (left top right bottom : ι → Int) :
    Prop where
  left : IsLeast (left '' pieces) box.left
  top : IsLeast (top '' pieces) box.top
  right : IsGreatest (right '' pieces) box.right
  bottom : IsGreatest (bottom '' pieces) box.bottom

/-- Whether the sides of a box lie at the first and after the last column and row of some
positions. -/
@[mk_iff]
structure Bounds (box : Box Int) (covered : Int → Int → Prop) : Prop where
  left : IsLeast {x | ∃ y, covered x y} box.left
  top : IsLeast {y | ∃ x, covered x y} box.top
  right : IsGreatest {x | ∃ y, covered (x - 1) y} box.right
  bottom : IsGreatest {y | ∃ x, covered x (y - 1)} box.bottom

/-- Whether a box is the smallest one around some positions. -/
structure Smallest (box : Box Int) (covered : Int → Int → Prop) : Prop where
  covers : ∀ x y, covered x y → box.Covers x y
  least : ∀ c : Box Int, (∀ x y, covered x y → c.Covers x y) →
    ∀ x y, box.Covers x y → c.Covers x y

/-- A box between the first and the last column and row of positions is the smallest one around
them. -/
theorem Bounds.smallest {box : Box Int} {covered : Int → Int → Prop} (h : box.Bounds covered) :
    box.Smallest covered := by
  constructor
  · intro x y hxy
    have hright : x + 1 ≤ box.right := h.right.2 ⟨y, by rwa [Int.add_sub_cancel]⟩
    have hbottom : y + 1 ≤ box.bottom := h.bottom.2 ⟨x, by rwa [Int.add_sub_cancel]⟩
    exact ⟨h.left.2 ⟨y, hxy⟩, hright, h.top.2 ⟨x, hxy⟩, hbottom⟩
  · intro c hc x y hxy
    obtain ⟨_, hleft⟩ := h.left.1
    obtain ⟨_, htop⟩ := h.top.1
    obtain ⟨_, hright⟩ := h.right.1
    obtain ⟨_, hbottom⟩ := h.bottom.1
    have hl := (hc _ _ hleft).1
    have ht := (hc _ _ htop).2.2.1
    have hr := (hc _ _ hright).2.1
    have hb := (hc _ _ hbottom).2.2.2
    unfold Covers at hxy ⊢
    omega

/-- The outermost sides of pieces that hold a position each are told by the positions that the
pieces cover together. -/
theorem outermost_iff_bounds {ι : Type} {pieces : Set ι} {left top right bottom : ι → Int}
    {covered : Int → Int → Prop}
    (hlt : ∀ p ∈ pieces, left p < right p ∧ top p < bottom p)
    (hcovered : ∀ x y, covered x y ↔
      ∃ p ∈ pieces, (left p ≤ x ∧ x < right p) ∧ top p ≤ y ∧ y < bottom p) (box : Box Int) :
    box.Outermost pieces left top right bottom ↔ box.Bounds covered := by
  have hx : ∀ p ∈ pieces, left p < right p := fun p hp => (hlt p hp).1
  have hy : ∀ p ∈ pieces, top p < bottom p := fun p hp => (hlt p hp).2
  have hcolumns : ∀ x, (∃ y, covered x y) ↔ ∃ p ∈ pieces, left p ≤ x ∧ x < right p := by
    intro x
    simp only [hcovered]
    constructor
    · rintro ⟨y, p, hp, hpx, -⟩
      exact ⟨p, hp, hpx⟩
    · rintro ⟨p, hp, hpx⟩
      exact ⟨top p, p, hp, hpx, le_rfl, hy p hp⟩
  have hrows : ∀ y, (∃ x, covered x y) ↔ ∃ p ∈ pieces, top p ≤ y ∧ y < bottom p := by
    intro y
    simp only [hcovered]
    constructor
    · rintro ⟨x, p, hp, -, hpy⟩
      exact ⟨p, hp, hpy⟩
    · rintro ⟨p, hp, hpy⟩
      exact ⟨left p, p, hp, ⟨le_rfl, hx p hp⟩, hpy⟩
  rw [outermost_iff, bounds_iff, isLeast_image_iff hx hcolumns, isLeast_image_iff hy hrows,
    isGreatest_image_iff hx hcolumns, isGreatest_image_iff hy hrows]

/-- The outermost sides of boxes are told by the positions that they cover. -/
theorem outermost_boxes_iff (box : Box Int) (boxes : List (Box Int)) :
    box.Outermost {b | b ∈ boxes} Box.left Box.top Box.right Box.bottom ↔
      box.Bounds fun x y => ∃ b ∈ boxes, b.Covers x y :=
  outermost_iff_bounds (fun b _ => ⟨b.left_lt_right, b.top_lt_bottom⟩)
    (fun _ _ => by simp only [Covers, and_assoc, Set.mem_ofPred_eq]) box

end Box

/-! ## The extents of boxes in banded form -/

/-- Going through entries and keeping the lesser of two values ends with the least. -/
theorem isLeast_foldl_min {ι : Type} (f : ι → Int) (first : ι) (rest : List ι) :
    IsLeast (f '' {b | b ∈ first :: rest})
      (rest.foldl (fun least b => Coordinate.min least (f b)) (f first)) := by
  have hmin : ((first :: rest).map f).min? =
      some (rest.foldl (fun least b => Coordinate.min least (f b)) (f first)) := by
    rw [List.map_cons, List.min?_cons', List.foldl_map]
    simp only [Coordinate.min_int]
  obtain ⟨hmem, hle⟩ := List.min?_eq_some_iff.mp hmin
  refine ⟨List.mem_map.mp hmem, ?_⟩
  rintro _ ⟨b, hb, rfl⟩
  exact hle _ (List.mem_map_of_mem hb)

/-- Going through entries and keeping the greater of two values ends with the greatest. -/
theorem isGreatest_foldl_max {ι : Type} (f : ι → Int) (first : ι) (rest : List ι) :
    IsGreatest (f '' {b | b ∈ first :: rest})
      (rest.foldl (fun greatest b => Coordinate.max greatest (f b)) (f first)) := by
  have hmax : ((first :: rest).map f).max? =
      some (rest.foldl (fun greatest b => Coordinate.max greatest (f b)) (f first)) := by
    rw [List.map_cons, List.max?_cons', List.foldl_map]
    simp only [Coordinate.max_int]
  obtain ⟨hmem, hle⟩ := List.max?_eq_some_iff.mp hmax
  refine ⟨List.mem_map.mp hmem, ?_⟩
  rintro _ ⟨b, hb, rfl⟩
  exact hle _ (List.mem_map_of_mem hb)

namespace Canonical

variable {boxes : List (Box Int)}

theorem bottoms_sorted (h : Canonical boxes) : boxes.Pairwise fun b c => b.bottom ≤ c.bottom := by
  refine h.beside_or_below.imp ?_
  rintro b c (⟨⟨-, hbottom⟩, -⟩ | hbelow)
  · exact hbottom.le
  · exact hbelow.trans c.top_lt_bottom.le

/-- No box has a top above that of the first. -/
theorem isLeast_top {first : Box Int} {rest : List (Box Int)} (h : Canonical (first :: rest)) :
    IsLeast (Box.top '' {b | b ∈ first :: rest}) first.top := by
  refine ⟨⟨first, List.mem_cons_self, rfl⟩, ?_⟩
  rintro _ ⟨b, hb, rfl⟩
  rcases List.mem_cons.mp hb with rfl | hb
  · exact le_rfl
  · exact List.rel_of_pairwise_cons h.tops_sorted hb

/-- No box has a bottom below that of the last. -/
theorem isGreatest_bottom {first : Box Int} {rest : List (Box Int)}
    (h : Canonical (first :: rest)) :
    IsGreatest (Box.bottom '' {b | b ∈ first :: rest}) (rest.getLastD first).bottom := by
  have hlast : rest.getLastD first = (first :: rest).getLast (List.cons_ne_nil _ _) :=
    (List.getLast_eq_getLastD _).symm
  have : Std.Refl fun b c : Box Int => b.bottom ≤ c.bottom := ⟨fun _ => le_rfl⟩
  rw [hlast]
  refine ⟨⟨_, List.getLast_mem _, rfl⟩, ?_⟩
  rintro _ ⟨b, hb, rfl⟩
  exact h.bottoms_sorted.rel_getLast hb

/-- Boxes in banded form have extents, the sides of which are the outermost ones. -/
theorem exists_extents? {r : Region Int} (h : Canonical r.boxes) (hne : r.isEmpty = false) :
    ∃ box, r.extents? = .ok (some box) ∧
      box.Outermost {b | b ∈ r.boxes} Box.left Box.top Box.right Box.bottom := by
  obtain ⟨_ | ⟨first, rest⟩⟩ := r
  · cases hne
  · have hleft := isLeast_foldl_min Box.left first rest
    have hright := isGreatest_foldl_max Box.right first rest
    have hfirst : first ∈ {b | b ∈ first :: rest} := List.mem_cons_self
    have hx := ((hleft.2 ⟨first, hfirst, rfl⟩).trans_lt first.left_lt_right).trans_le
      (hright.2 ⟨first, hfirst, rfl⟩)
    have hy := first.top_lt_bottom.trans_le (h.isGreatest_bottom.2 ⟨first, hfirst, rfl⟩)
    refine ⟨⟨_, _, _, _, not_le.mpr hx, not_le.mpr hy⟩, ?_,
      ⟨hleft, h.isLeast_top, hright, h.isGreatest_bottom⟩⟩
    show some <$> Box.ofCorners? _ _ _ _ = _
    rw [Box.ofCorners?_eq_ok hx hy]
    rfl

end Canonical

/-! ## The extents of what is built -/

namespace Region

namespace Source

/-- Whether the sides of a box are the outermost ones of the boxes or of the rectangles with a
size. -/
def Outermost (box : Box Int) : Source → Prop
  | boxes bs => box.Outermost {b | b ∈ bs} Box.left Box.top Box.right Box.bottom
  | rectangles rects =>
    box.Outermost {rect | rect ∈ rects ∧ rect.width ≠ 0 ∧ rect.height ≠ 0}
      Rectangle.x Rectangle.y (fun rect => rect.x + rect.width) fun rect => rect.y + rect.height

/-- The outermost sides of what a region is built from are told by the positions covered. -/
theorem outermost_iff_bounds {s : Source} (h : s.Accepted) (box : Box Int) :
    s.Outermost box ↔ box.Bounds s.Covers := by
  cases s with
  | boxes bs => exact box.outermost_boxes_iff bs
  | rectangles rects =>
    refine Box.outermost_iff_bounds ?_ (fun x y => exists_congr fun rect => ?_) box
    · rintro rect ⟨hrect, hwidth, hheight⟩
      obtain ⟨hw, hh⟩ := h rect hrect
      exact ⟨by omega, by omega⟩
    · -- A rectangle without a size covers nothing.
      simp only [Rectangle.Covers, Set.mem_ofPred_eq, and_assoc]
      refine and_congr_right fun _ => ?_
      omega

/-- A region that is built and not empty has extents. Each side of them is that of one of its
boxes, and no box reaches beyond it; so it is with the boxes that the region is built from, or with
the rectangles that have a size. There is no smaller box around the positions that the region
covers. -/
theorem extents?_outermost {s : Source} {r : Region Int} (h : s.build? = .ok r)
    (hne : r.isEmpty = false) :
    ∃ box, r.extents? = .ok (some box) ∧
      box.Outermost {b | b ∈ r.boxes} Box.left Box.top Box.right Box.bottom ∧
      box.Smallest r.Covers ∧ s.Outermost box := by
  have haccepted := accepted_of_build? h
  obtain ⟨r', hr', hbuilt, hcovers⟩ := exists_build? haccepted
  cases Except.ok.inj (h.symm.trans hr')
  obtain ⟨rows, bands, hbanded⟩ := hbuilt.banded
  obtain ⟨box, hbox, houter⟩ := hbanded.canonical.exists_extents? hne
  have hbounds : box.Bounds r.Covers := (box.outermost_boxes_iff r.boxes).mp houter
  have hsame : r.Covers = s.Covers := funext₂ fun x y => propext (hcovers x y)
  exact ⟨box, hbox, houter, hbounds.smallest, (outermost_iff_bounds haccepted box).mpr
    (hsame ▸ hbounds)⟩

end Source

/-- A pole of five pixels with a cloth of two beside its second one. -/
def pennant : Region Int :=
  ⟨[.ofPixels ⟨0, 0⟩ ⟨0, 0⟩, .ofPixels ⟨0, 1⟩ ⟨2, 1⟩, .ofPixels ⟨0, 2⟩ ⟨0, 4⟩]⟩

namespace Source

/-- The pennant of two bars, and a rectangle far away that has no column. -/
theorem build?_pennant :
    (rectangles [⟨0, 0, 1, 5⟩, ⟨1, 1, 2, 1⟩, ⟨9, 9, 0, 4⟩]).build? = .ok pennant := by
  have hsizes : (rectangles [⟨0, 0, 1, 5⟩, ⟨1, 1, 2, 1⟩, ⟨9, 9, 0, 4⟩]).Accepted := by
    simp [Accepted]
  have hcanonical : Canonical pennant.boxes := by decide
  refine hcanonical.banded.build?_eq_ok hsizes fun x y => ?_
  simp only [Source.Covers, Region.Covers, pennant, Rectangle.Covers, Box.Covers, Box.ofPixels,
    List.mem_cons, List.not_mem_nil, or_false, exists_eq_or_imp, exists_eq_left]
  omega

/-- The pennant, the pole of which goes in first and outlasts the cloth. -/
theorem extents?_outermost_pennant :
    (rectangles [⟨0, 0, 1, 5⟩, ⟨1, 1, 2, 1⟩, ⟨9, 9, 0, 4⟩]).build? = .ok pennant ∧
      pennant.isEmpty = false ∧ ∃ box, pennant.extents? = .ok (some box) ∧
        box.Outermost {b | b ∈ pennant.boxes} Box.left Box.top Box.right Box.bottom ∧
        box.Smallest pennant.Covers ∧
        (rectangles [⟨0, 0, 1, 5⟩, ⟨1, 1, 2, 1⟩, ⟨9, 9, 0, 4⟩]).Outermost box :=
  ⟨build?_pennant, rfl, extents?_outermost build?_pennant rfl⟩

example : pennant.extents? = .ok (some { left := 0, top := 0, right := 3, bottom := 5 }) := by
  rfl

end Source

end Region

end Confinement
