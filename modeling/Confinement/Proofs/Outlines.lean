import Confinement.Outline.OfRegion
import Confinement.Proofs.Runs
import Confinement.Proofs.Seams

/-!
# Exact outlines

The edge of an area runs along the sides of its pixels beyond which there is none
(`EdgeTop`, `EdgeLeft`). The outline of a region that is built is the edge of what it covers :
one border along every such side, which blocks motion out of the area, and no other
(`Outline.Exact`, `Outline.exact_of_built`).

The rows of a region are walked from top to bottom. The sides of a row are the edge of its band
to the left and right, because the spans of a band have gaps between them
(`Row.Fits.countLeft_sides`). Between two rows, whether they touch or not, lies the edge below
the upper and above the lower one (`Outline.exists_between?`), and by induction from the last row
on, all that is put under a row is the edge of the area from its bottom on
(`Outline.exists_under?`). Joining runs at the end moves no side
(`Run.exists_join?`).
-/

namespace Confinement

/-! ## Edges of an area -/

/-- Whether the top of a pixel belongs to the edge of an area, with this blocking. -/
def EdgeTop (area : Int → Int → Prop) (x y : Int) (blocks : Directions) : Prop :=
  blocks = .only .up ∧ area x y ∧ ¬area x (y - 1) ∨
    blocks = .only .down ∧ area x (y - 1) ∧ ¬area x y

/-- Whether the left of a pixel belongs to the edge of an area, with this blocking. -/
def EdgeLeft (area : Int → Int → Prop) (x y : Int) (blocks : Directions) : Prop :=
  blocks = .only .left ∧ area x y ∧ ¬area (x - 1) y ∨
    blocks = .only .right ∧ area (x - 1) y ∧ ¬area x y

section Decidable

variable (area : Int → Int → Prop) [∀ x y, Decidable (area x y)] (x y : Int) (blocks : Directions)

instance : Decidable (EdgeTop area x y blocks) :=
  inferInstanceAs (Decidable (_ ∧ _ ∧ _ ∨ _ ∧ _ ∧ _))

instance : Decidable (EdgeLeft area x y blocks) :=
  inferInstanceAs (Decidable (_ ∧ _ ∧ _ ∨ _ ∧ _ ∧ _))

end Decidable

/-! ## Rows -/

namespace Row.Fits

variable {row : Row Int} {band : Band Int}

/-- The columns of the boxes have gaps between them. -/
theorem gap (h : Row.Fits row band) (hb : band.Sound) :
    row.Pairwise fun b c => b.right < c.left := by
  have hgap := hb.separated.gap
  rw [← h.columns] at hgap
  exact List.pairwise_map.mp hgap

theorem sideBySide (h : Row.Fits row band) (hb : band.Sound) : Seam.SideBySide row :=
  (h.gap hb).imp Int.le_of_lt

/-- Horizontal borders over the boxes of a row run along the tops of the pixels below them. -/
theorem countTop_map (h : Row.Fits row band) (hb : band.Sound) (line : Int) (d : Direction)
    (x y : Int) (blocks : Directions) :
    Outline.countTop (row.map fun b => Border.horizontal b.left b.right line d) x y blocks =
      if line = y ∧ (∃ s ∈ band.spans, s.Covers x) ∧ Directions.only d = blocks then 1 else 0 := by
  have hiff (b : Box Int) : ((Border.horizontal b.left b.right line d).AlongTop x y ∧
      (Border.horizontal b.left b.right line d).blocks = blocks) ↔
      line = y ∧ b.columns.Covers x ∧ Directions.only d = blocks := by
    rw [Border.alongTop_horizontal, and_assoc]
    exact Iff.rfl
  have hexclusive : row.Pairwise fun b c =>
      (line = y ∧ b.columns.Covers x ∧ Directions.only d = blocks) →
        ¬(line = y ∧ c.columns.Covers x ∧ Directions.only d = blocks) := by
    refine (h.gap hb).imp fun {b c} hgap hb hc => ?_
    have : x < b.right := hb.2.1.2
    have : c.left ≤ x := hc.2.1.1
    omega
  rw [Outline.countTop, List.countP_map]
  simp only [Function.comp_def, hiff]
  rw [countP_of_exclusive hexclusive]
  refine if_congr ?_ rfl rfl
  rw [← h.exists_columns (p := fun s => s.Covers x)]
  constructor
  · rintro ⟨b, hb, hline, hx, hd⟩
    exact ⟨hline, ⟨b, hb, hx⟩, hd⟩
  · rintro ⟨hline, ⟨b, hb, hx⟩, hd⟩
    exact ⟨b, hb, hline, hx, hd⟩

theorem tops_eq (h : Row.Fits row band) :
    row.tops = row.map fun b => Border.horizontal b.left b.right band.top .up :=
  List.map_congr_left fun b hb => by rw [h.top_eq b hb]

theorem bottoms_eq (h : Row.Fits row band) :
    row.bottoms = row.map fun b => Border.horizontal b.left b.right band.bottom .down :=
  List.map_congr_left fun b hb => by rw [h.bottom_eq b hb]

theorem sides_eq (h : Row.Fits row band) : row.sides = row.flatMap fun b =>
    [Border.vertical b.left band.top band.bottom .left,
      Border.vertical b.right band.top band.bottom .right] := by
  unfold Row.sides
  rw [List.flatMap_def, List.flatMap_def]
  congr 1
  exact List.map_congr_left fun b hb => by rw [h.top_eq b hb, h.bottom_eq b hb]

/-- Of vertical borders at columns that differ from box to box, one at most runs along the left
of a pixel. -/
theorem countLeft_map {column : Box Int → Int}
    (hcolumn : row.Pairwise fun b c => column b ≠ column c) (top bottom : Int) (d : Direction)
    (x y : Int) (blocks : Directions) :
    Outline.countLeft (row.map fun b => Border.vertical (column b) top bottom d) x y blocks =
      if (∃ b ∈ row, column b = x) ∧ top ≤ y ∧ y < bottom ∧ Directions.only d = blocks
      then 1 else 0 := by
  have hiff (b : Box Int) : ((Border.vertical (column b) top bottom d).AlongLeft x y ∧
      (Border.vertical (column b) top bottom d).blocks = blocks) ↔
      column b = x ∧ top ≤ y ∧ y < bottom ∧ Directions.only d = blocks := by
    rw [Border.alongLeft_vertical, and_assoc, and_assoc]
    exact Iff.rfl
  have hexclusive : row.Pairwise fun b c =>
      (column b = x ∧ top ≤ y ∧ y < bottom ∧ Directions.only d = blocks) →
        ¬(column c = x ∧ top ≤ y ∧ y < bottom ∧ Directions.only d = blocks) :=
    hcolumn.imp fun hne hb hc => hne (hb.1.trans hc.1.symm)
  rw [Outline.countLeft, List.countP_map]
  simp only [Function.comp_def, hiff]
  rw [countP_of_exclusive hexclusive]
  refine if_congr ?_ rfl rfl
  constructor
  · rintro ⟨b, hb, hx, hrest⟩
    exact ⟨⟨b, hb, hx⟩, hrest⟩
  · rintro ⟨⟨b, hb, hx⟩, hrest⟩
    exact ⟨b, hb, hx, hrest⟩

theorem countLeft_pairs (row : Row Int) (f g : Box Int → Border Int) (x y : Int)
    (blocks : Directions) :
    Outline.countLeft (row.flatMap fun b => [f b, g b]) x y blocks =
      Outline.countLeft (row.map f) x y blocks + Outline.countLeft (row.map g) x y blocks := by
  induction row with
  | nil => rfl
  | cons b row ih =>
    simp only [List.flatMap_cons, List.map_cons, Outline.countLeft_append, Outline.countLeft_cons,
      Outline.countLeft_nil, ih]
    omega

/-- The sides of a row run along the pixels where it starts or ends. -/
theorem countLeft_sides (h : Row.Fits row band) (hb : band.Sound) (x y : Int)
    (blocks : Directions) :
    Outline.countLeft row.sides x y blocks =
      if EdgeLeft band.Covers x y blocks then 1 else 0 := by
  have hleft := hb.separated.splits.exists_left_iff x
  have hright := hb.separated.splits.exists_right_iff x
  rw [← h.exists_columns (p := fun s => s.left = x)] at hleft
  rw [← h.exists_columns (p := fun s => s.right = x)] at hright
  have hdiffer : row.Pairwise fun b c => b.left ≠ c.left := (h.gap hb).imp fun {b c} hgap => by
    have := b.left_lt_right
    omega
  have hdiffer' : row.Pairwise fun b c => b.right ≠ c.right := (h.gap hb).imp fun {b c} hgap => by
    have := c.left_lt_right
    omega
  rw [h.sides_eq, countLeft_pairs, countLeft_map hdiffer, countLeft_map hdiffer']
  have hexclude : ¬((∃ b ∈ row, b.left = x) ∧ ∃ b ∈ row, b.right = x) := by
    rintro ⟨hl, hr⟩
    exact (hright.mp hr).2 (hleft.mp hl).1
  have hedge : EdgeLeft band.Covers x y blocks ↔
      ((∃ b ∈ row, b.left = x) ∧ band.top ≤ y ∧ y < band.bottom ∧ .only .left = blocks) ∨
        (∃ b ∈ row, b.right = x) ∧ band.top ≤ y ∧ y < band.bottom ∧ .only .right = blocks := by
    have hleft : (∃ b ∈ row, b.left = x) ↔ _ := hleft
    have hright : (∃ b ∈ row, b.right = x) ↔ _ := hright
    rw [hleft, hright]
    constructor
    · rintro (⟨rfl, ⟨ht, hb, hx⟩, hnot⟩ | ⟨rfl, ⟨ht, hb, hx⟩, hnot⟩)
      · exact Or.inl ⟨⟨hx, fun hx' => hnot ⟨ht, hb, hx'⟩⟩, ht, hb, rfl⟩
      · exact Or.inr ⟨⟨hx, fun hx' => hnot ⟨ht, hb, hx'⟩⟩, ht, hb, rfl⟩
    · rintro (⟨⟨hx, hnot⟩, ht, hb, rfl⟩ | ⟨⟨hx, hnot⟩, ht, hb, rfl⟩)
      · exact Or.inl ⟨rfl, ⟨ht, hb, hx⟩, fun hcov => hnot hcov.2.2⟩
      · exact Or.inr ⟨rfl, ⟨ht, hb, hx⟩, fun hcov => hnot hcov.2.2⟩
  rw [ite_add_ite fun hboth => hexclude ⟨hboth.1.1, hboth.2.1⟩]
  exact if_congr hedge.symm rfl rfl

end Row.Fits

namespace Row

variable {row : Row Int}

theorem proper_tops : ∀ b ∈ row.tops, b.Proper := by
  intro b hb
  obtain ⟨box, -, rfl⟩ := List.mem_map.mp hb
  exact Or.inl ⟨rfl, box.left_lt_right⟩

theorem proper_bottoms : ∀ b ∈ row.bottoms, b.Proper := by
  intro b hb
  obtain ⟨box, -, rfl⟩ := List.mem_map.mp hb
  exact Or.inl ⟨rfl, box.left_lt_right⟩

theorem upright_sides : ∀ b ∈ row.sides, b.Upright := by
  intro b hb
  obtain ⟨box, -, hb⟩ := List.mem_flatMap.mp hb
  simp only [List.mem_cons, List.not_mem_nil, or_false] at hb
  rcases hb with rfl | rfl
  · exact ⟨rfl, box.top_lt_bottom⟩
  · exact ⟨rfl, box.top_lt_bottom⟩

theorem not_alongLeft_tops (x y : Int) : ∀ b ∈ row.tops, ¬b.AlongLeft x y := by
  intro b hb
  obtain ⟨box, -, rfl⟩ := List.mem_map.mp hb
  exact Border.not_alongLeft_horizontal

theorem not_alongLeft_bottoms (x y : Int) : ∀ b ∈ row.bottoms, ¬b.AlongLeft x y := by
  intro b hb
  obtain ⟨box, -, rfl⟩ := List.mem_map.mp hb
  exact Border.not_alongLeft_horizontal

end Row

/-! ## Bands one below the other -/

namespace Band

/-- The positions of bands. -/
def Area (bands : List (Band Int)) (x y : Int) : Prop :=
  ∃ b ∈ bands, b.Covers x y

instance (bands : List (Band Int)) (x y : Int) : Decidable (Area bands x y) :=
  inferInstanceAs (Decidable (∃ b ∈ bands, b.Covers x y))

variable {b next : Band Int} {bands : List (Band Int)}

/-- Above the bottom of the first band there is no other. -/
theorem Layered.area_of_lt (h : Layered (b :: bands)) {y : Int} (hy : y < b.bottom) (x : Int) :
    Area (b :: bands) x y ↔ b.top ≤ y ∧ ∃ s ∈ b.spans, s.Covers x := by
  constructor
  · rintro ⟨c, hc, hcov⟩
    rcases List.mem_cons.mp hc with rfl | hc
    · exact ⟨hcov.1, hcov.2.2⟩
    · have := h.bottom_le hc
      have := hcov.1
      omega
  · rintro ⟨hy', hx⟩
    exact ⟨b, List.mem_cons_self, hy', hy, hx⟩

/-- Below the first band there are only the others. -/
theorem area_of_le {y : Int} (hy : b.bottom ≤ y) (x : Int) :
    Area (b :: bands) x y ↔ Area bands x y := by
  unfold Area
  rw [List.exists_mem_cons_iff, or_iff_right]
  intro hcov
  have := hcov.2.1
  omega

/-- The edge between two bands, and what lies below. -/
theorem Layered.edgeTop_cons_cons (h : Layered (b :: next :: bands)) {y : Int}
    (hy : b.bottom ≤ y) (x : Int) (blocks : Directions) :
    EdgeTop (Area (b :: next :: bands)) x y blocks ↔
      (.only .down = blocks ∧ b.bottom = y ∧ (∃ s ∈ b.spans, s.Covers x) ∧
            ¬(next.top = y ∧ ∃ s ∈ next.spans, s.Covers x) ∨
          .only .up = blocks ∧ next.top = y ∧ (∃ s ∈ next.spans, s.Covers x) ∧
            ¬(b.bottom = y ∧ ∃ s ∈ b.spans, s.Covers x)) ∨
        next.bottom ≤ y ∧ EdgeTop (Area (next :: bands)) x y blocks := by
  have htop := h.head.top_lt_bottom
  have hnext := h.tail.head.top_lt_bottom
  have hle := h.bottom_le List.mem_cons_self
  unfold EdgeTop
  rw [area_of_le hy]
  by_cases hbelow : next.bottom ≤ y
  · rw [area_of_le (show b.bottom ≤ y - 1 by omega)]
    grind
  · rw [h.tail.area_of_lt (by omega)]
    by_cases hrow : b.bottom = y
    · rw [h.area_of_lt (by omega)]
      grind
    · rw [area_of_le (show b.bottom ≤ y - 1 by omega), h.tail.area_of_lt (by omega)]
      grind

/-- Below the last band lies its bottom. -/
theorem Sound.edgeTop_singleton (h : b.Sound) {y : Int} (hy : b.bottom ≤ y) (x : Int)
    (blocks : Directions) : EdgeTop (Area [b]) x y blocks ↔
      b.bottom = y ∧ (∃ s ∈ b.spans, s.Covers x) ∧ .only .down = blocks := by
  have htop := h.top_lt_bottom
  have hlayer : Layered [b] := Layered.cons h (by simp) ⟨by simp, List.Pairwise.nil⟩
  have hout : ¬Area [b] x y := by
    rw [area_of_le hy]
    simp [Area]
  unfold EdgeTop
  by_cases hrow : b.bottom = y
  · rw [hlayer.area_of_lt (show y - 1 < b.bottom by omega)]
    have : b.top ≤ y - 1 := by omega
    grind
  · have hout' : ¬Area [b] x (y - 1) := by
      rw [area_of_le (show b.bottom ≤ y - 1 by omega)]
      simp [Area]
    simp [hout, hout', hrow]

/-- Above the bottom of the first band lies its top. -/
theorem Layered.edgeTop_of_lt (h : Layered (b :: bands)) {y : Int} (hy : y < b.bottom) (x : Int)
    (blocks : Directions) : EdgeTop (Area (b :: bands)) x y blocks ↔
      b.top = y ∧ (∃ s ∈ b.spans, s.Covers x) ∧ .only .up = blocks := by
  unfold EdgeTop
  rw [h.area_of_lt hy, h.area_of_lt (show y - 1 < b.bottom by omega)]
  grind

/-- The sides of the first band, and those of the others. -/
theorem Layered.edgeLeft_cons (h : Layered (b :: bands)) (x y : Int) (blocks : Directions) :
    (EdgeLeft (Area (b :: bands)) x y blocks ↔
        EdgeLeft b.Covers x y blocks ∨ EdgeLeft (Area bands) x y blocks) ∧
      ¬(EdgeLeft b.Covers x y blocks ∧ EdgeLeft (Area bands) x y blocks) := by
  have hother : ∀ z, b.Covers z y → ∀ w, ¬Area bands w y := by
    rintro z hz w ⟨c, hc, hcov⟩
    have := h.bottom_le hc
    have := hz.2.1
    have := hcov.1
    omega
  have hcons : ∀ z, Area (b :: bands) z y ↔ b.Covers z y ∨ Area bands z y := fun z => by
    unfold Area
    rw [List.exists_mem_cons_iff]
  unfold EdgeLeft
  rw [hcons, hcons]
  have := hother x
  have := hother (x - 1)
  grind

end Band

/-! ## Rows one below the other -/

namespace Outline

/-- Proper borders pass the check. -/
theorem checked?_eq_ok {borders : List (Border Int)} (h : ∀ b ∈ borders, b.Proper) :
    checked? borders = .ok borders := by
  have hpass : Border.checked? borders = .ok borders := by
    refine Border.checked?_eq_ok fun b hb => ?_
    unfold Border.ofSegment?
    rcases h b hb with ⟨hy, hx⟩ | ⟨hx, hy⟩
    · rw [beq_eq_false_iff_ne.mpr (Int.ne_of_lt hx), beq_iff_eq.mpr hy]
      rfl
    · rw [beq_eq_false_iff_ne.mpr (Int.ne_of_lt hy), beq_iff_eq.mpr hx]
      rfl
  unfold checked?
  rw [hpass]
  rfl

variable {above row : Row Int} {band next : Band Int}

/-- Between two rows that touch lies what is left when their edges are swept in order. -/
theorem between?_of_touch {a b : Box Int} {above below : Row Int} (htouch : b.top = a.bottom) :
    between? (a :: above) (b :: below) = (Seam.sweep? a.bottom
      ((Seam.facing (a :: above) (b :: below)).insertionSort fun e f => !f.before e)).mapError
        .seam := by
  have htouch' : (b.top == a.bottom) = true := by
    rw [htouch]
    exact beq_self_eq_true _
  simp only [between?, htouch', if_true, Seam.borders?_of_touch htouch]

/-- Between two rows that touch lies their seam. -/
theorem exists_between?_of_touch (habove : Row.Fits above band) (hrow : Row.Fits row next)
    (hb : band.Sound) (hn : next.Sound) (htouch : next.top = band.bottom) :
    ∃ kept, between? above row = .ok (kept.map (Seam.Edge.border band.bottom)).reverse ∧
      Seam.Swept kept [] ∧
      ∀ x y blocks, countTop (kept.map (Seam.Edge.border band.bottom)).reverse x y blocks =
        if band.bottom = y ∧
          (blocks = .only .down ∧ (∃ s ∈ band.spans, s.Covers x) ∧
              ¬(∃ s ∈ next.spans, s.Covers x) ∨
            blocks = .only .up ∧ (∃ s ∈ next.spans, s.Covers x) ∧
              ¬∃ s ∈ band.spans, s.Covers x)
        then 1 else 0 := by
  obtain ⟨a, as, rfl⟩ := List.exists_cons_of_ne_nil (habove.ne_nil hb)
  obtain ⟨b, bs, rfl⟩ := List.exists_cons_of_ne_nil (hrow.ne_nil hn)
  obtain ⟨kept, hseam, hkept, hcount⟩ := Seam.exists_borders? (habove.ne_nil hb) (hrow.ne_nil hn)
    habove.bottom_eq (htouch ▸ hrow.top_eq) (habove.sideBySide hb) (hrow.sideBySide hn)
  have htouch' : (b.top == a.bottom) = true := by
    rw [hrow.top_eq b List.mem_cons_self, habove.bottom_eq a List.mem_cons_self, htouch]
    exact beq_self_eq_true _
  refine ⟨kept, ?_, hkept, fun x y blocks => ?_⟩
  · simp only [between?, htouch', if_true, hseam]
    rfl
  · rw [hcount]
    refine if_congr ?_ rfl rfl
    rw [habove.exists_columns (p := fun s => s.Covers x),
      hrow.exists_columns (p := fun s => s.Covers x)]

/-- Between two rows that do not touch lie the bottom of the upper and the top of the lower one. -/
theorem between?_of_gap (habove : Row.Fits above band) (hrow : Row.Fits row next)
    (hb : band.Sound) (hn : next.Sound) (hgap : next.top ≠ band.bottom) :
    between? above row = .ok (above.bottoms ++ row.tops) := by
  obtain ⟨a, as, rfl⟩ := List.exists_cons_of_ne_nil (habove.ne_nil hb)
  obtain ⟨b, bs, rfl⟩ := List.exists_cons_of_ne_nil (hrow.ne_nil hn)
  have hgap' : (b.top == a.bottom) = false := by
    rw [hrow.top_eq b List.mem_cons_self, habove.bottom_eq a List.mem_cons_self]
    exact beq_eq_false_iff_ne.mpr hgap
  simp only [between?, hgap', Bool.false_eq_true, if_false, Row.roof_eq_tops]
  exact checked?_eq_ok fun c hc =>
    (List.mem_append.mp hc).elim (Row.proper_bottoms c) (Row.proper_tops c)

/-- Between two rows lie the bottom of the upper and the top of the lower one, without the
parts that they share. -/
theorem exists_between? (habove : Row.Fits above band) (hrow : Row.Fits row next)
    (hb : band.Sound) (hn : next.Sound) :
    ∃ borders, between? above row = .ok borders ∧ (∀ b ∈ borders, b.Proper) ∧
      (∀ x y, ∀ b ∈ borders, ¬b.AlongLeft x y) ∧
      ∀ x y blocks, countTop borders x y blocks =
        if .only .down = blocks ∧ band.bottom = y ∧ (∃ s ∈ band.spans, s.Covers x) ∧
              ¬(next.top = y ∧ ∃ s ∈ next.spans, s.Covers x) ∨
            .only .up = blocks ∧ next.top = y ∧ (∃ s ∈ next.spans, s.Covers x) ∧
              ¬(band.bottom = y ∧ ∃ s ∈ band.spans, s.Covers x)
        then 1 else 0 := by
  by_cases htouch : next.top = band.bottom
  · obtain ⟨kept, hbetween, hkept, hcount⟩ :=
      exists_between?_of_touch habove hrow hb hn htouch
    refine ⟨_, hbetween, ?_, ?_, fun x y blocks => ?_⟩
    · intro c hc
      obtain ⟨k, hk, rfl⟩ := List.mem_map.mp (List.mem_reverse.mp hc)
      exact Or.inl ⟨rfl, (hkept.kept_sound k hk).left_lt_right⟩
    · intro x y c hc
      obtain ⟨k, -, rfl⟩ := List.mem_map.mp (List.mem_reverse.mp hc)
      exact Border.not_alongLeft_horizontal
    · rw [hcount]
      refine if_congr ?_ rfl rfl
      rw [htouch]
      constructor
      · rintro ⟨rfl, ⟨rfl, hin, hout⟩ | ⟨rfl, hin, hout⟩⟩
        · exact Or.inl ⟨rfl, rfl, hin, fun h => hout h.2⟩
        · exact Or.inr ⟨rfl, rfl, hin, fun h => hout h.2⟩
      · rintro (⟨rfl, rfl, hin, hout⟩ | ⟨rfl, rfl, hin, hout⟩)
        · exact ⟨rfl, Or.inl ⟨rfl, hin, fun h => hout ⟨rfl, h⟩⟩⟩
        · exact ⟨rfl, Or.inr ⟨rfl, hin, fun h => hout ⟨rfl, h⟩⟩⟩
  · refine ⟨_, between?_of_gap habove hrow hb hn htouch, ?_, ?_, fun x y blocks => ?_⟩
    · exact fun c hc => (List.mem_append.mp hc).elim (Row.proper_bottoms c) (Row.proper_tops c)
    · intro x y c hc
      exact (List.mem_append.mp hc).elim (Row.not_alongLeft_bottoms x y c)
        (Row.not_alongLeft_tops x y c)
    · rw [countTop_append, habove.bottoms_eq, habove.countTop_map hb, hrow.tops_eq,
        hrow.countTop_map hn, ite_add_ite fun h => htouch (h.2.1.trans h.1.1.symm)]
      refine if_congr ?_ rfl rfl
      constructor
      · rintro (⟨rfl, hin, rfl⟩ | ⟨rfl, hin, rfl⟩)
        · exact Or.inl ⟨rfl, rfl, hin, fun h => htouch h.1⟩
        · exact Or.inr ⟨rfl, rfl, hin, fun h => htouch h.1.symm⟩
      · rintro (⟨rfl, rfl, hin, -⟩ | ⟨rfl, rfl, hin, -⟩)
        · exact Or.inl ⟨rfl, hin, rfl⟩
        · exact Or.inr ⟨rfl, hin, rfl⟩

/-- Under the last row lies its bottom. -/
theorem under?_nil (row : Row Int) : under? row [] = .ok row.bottoms :=
  checked?_eq_ok Row.proper_bottoms

/-- What lies under a row : its border to the next one, the sides of that, and what lies under
it. -/
theorem under?_cons {rows : List (Row Int)} {between below : List (Border Int)}
    (hbetween : between? above row = .ok between) (hbelow : under? row rows = .ok below) :
    under? above (row :: rows) = .ok (between ++ row.sides ++ below) := by
  simp only [under?, hbetween, checked?_eq_ok fun b hb => (Row.upright_sides b hb).proper, hbelow]
  rfl

/-- What the rows have : the top of the first one, its sides, and what lies under it. -/
theorem ofRows?_cons {rows : List (Row Int)} {below : List (Border Int)}
    (hbelow : under? row rows = .ok below) :
    ofRows? (row :: rows) = .ok (row.tops ++ row.sides ++ below) := by
  have hfirst : ∀ b ∈ row.tops ++ row.sides, b.Proper := fun b hb =>
    (List.mem_append.mp hb).elim (Row.proper_tops b) fun hb => (Row.upright_sides b hb).proper
  simp only [ofRows?, Row.roof_eq_tops, checked?_eq_ok hfirst, hbelow]
  rfl

/-- Below a row lies the edge of the area from its bottom on. -/
theorem exists_under? {rows : List (Row Int)} {bands : List (Band Int)}
    (habove : Row.Fits above band) (hrows : List.Forall₂ Row.Fits rows bands)
    (h : Band.Layered (band :: bands)) :
    ∃ borders, under? above rows = .ok borders ∧ (∀ b ∈ borders, b.Proper) ∧
      (∀ x y blocks, countTop borders x y blocks =
        if band.bottom ≤ y ∧ EdgeTop (Band.Area (band :: bands)) x y blocks then 1 else 0) ∧
      ∀ x y blocks, countLeft borders x y blocks =
        if EdgeLeft (Band.Area bands) x y blocks then 1 else 0 := by
  induction hrows generalizing above band with
  | nil =>
    refine ⟨above.bottoms, under?_nil above, Row.proper_bottoms, ?_, ?_⟩
    · intro x y blocks
      rw [habove.bottoms_eq, habove.countTop_map h.head]
      refine if_congr ?_ rfl rfl
      constructor
      · intro hy
        exact ⟨hy.1.le, (h.head.edgeTop_singleton hy.1.le x blocks).mpr hy⟩
      · rintro ⟨hle, hedge⟩
        exact (h.head.edgeTop_singleton hle x blocks).mp hedge
    · intro x y blocks
      rw [countLeft_eq_zero (Row.not_alongLeft_bottoms x y), if_neg]
      simp [EdgeLeft, Band.Area]
  | @cons row next rows bands hrow _ ih =>
    have hle := h.bottom_le List.mem_cons_self
    have hnext := h.tail.head.top_lt_bottom
    obtain ⟨between, hbetween, hproper, hnone, htop⟩ :=
      exists_between? habove hrow h.head h.tail.head
    obtain ⟨below, hbelow, hproper', htop', hleft'⟩ := ih hrow h.tail
    refine ⟨between ++ row.sides ++ below, under?_cons hbetween hbelow, ?_, fun x y blocks => ?_,
      fun x y blocks => ?_⟩
    · intro b hb
      rcases List.mem_append.mp hb with hb | hb
      · rcases List.mem_append.mp hb with hb | hb
        · exact hproper b hb
        · exact (Row.upright_sides b hb).proper
      · exact hproper' b hb
    · have hsides : countTop row.sides x y blocks = 0 :=
        countTop_eq_zero fun b hb => (Row.upright_sides b hb).not_alongTop x y
      rw [countTop_append, countTop_append, hsides, Nat.add_zero, htop, htop', ite_add_ite]
      · refine if_congr ?_ rfl rfl
        have hedge := fun hy => h.edgeTop_cons_cons (y := y) hy x blocks
        grind
      · grind
    · rw [countLeft_append, countLeft_append, countLeft_eq_zero (hnone x y), Nat.zero_add,
        hrow.countLeft_sides h.tail.head, hleft', ite_add_ite (h.tail.edgeLeft_cons x y blocks).2]
      exact if_congr (h.tail.edgeLeft_cons x y blocks).1.symm rfl rfl

/-- Rows have the edge of the area of their bands. -/
theorem exists_ofRows? {rows : List (Row Int)} {bands : List (Band Int)}
    (hrows : List.Forall₂ Row.Fits rows bands) (h : Band.Layered bands) :
    ∃ borders, ofRows? rows = .ok borders ∧ (∀ b ∈ borders, b.Proper) ∧
      (∀ x y blocks, countTop borders x y blocks =
        if EdgeTop (Band.Area bands) x y blocks then 1 else 0) ∧
      ∀ x y blocks, countLeft borders x y blocks =
        if EdgeLeft (Band.Area bands) x y blocks then 1 else 0 := by
  cases hrows with
  | nil => exact ⟨[], rfl, by simp, by simp [EdgeTop, Band.Area], by simp [EdgeLeft, Band.Area]⟩
  | @cons row band rows bands hrow hrows =>
    obtain ⟨below, hbelow, hproper, htop, hleft⟩ := exists_under? hrow hrows h
    refine ⟨row.tops ++ row.sides ++ below, ofRows?_cons hbelow, fun b hb => ?_,
      fun x y blocks => ?_, fun x y blocks => ?_⟩
    · rcases List.mem_append.mp hb with hb | hb
      · exact (List.mem_append.mp hb).elim (Row.proper_tops b) fun hb =>
          (Row.upright_sides b hb).proper
      · exact hproper b hb
    · have hsides : countTop row.sides x y blocks = 0 :=
        countTop_eq_zero fun b hb => (Row.upright_sides b hb).not_alongTop x y
      have := h.head.top_lt_bottom
      rw [countTop_append, countTop_append, hsides, Nat.add_zero, hrow.tops_eq,
        hrow.countTop_map h.head, htop, ite_add_ite fun hboth => by omega]
      refine if_congr ?_ rfl rfl
      by_cases hy : y < band.bottom
      · rw [h.edgeTop_of_lt hy, or_iff_left fun hle => by omega]
      · rw [or_iff_right fun hin => by omega, and_iff_right (Int.not_lt.mp hy)]
    · rw [countLeft_append, countLeft_append, countLeft_eq_zero (Row.not_alongLeft_tops x y),
        Nat.zero_add, hrow.countLeft_sides h.head, hleft,
        ite_add_ite (h.edgeLeft_cons x y blocks).2]
      exact if_congr (h.edgeLeft_cons x y blocks).1.symm rfl rfl

/-- What an outline must be to be the edge of a region : borders from left to right or from top
to bottom, one along every side between a pixel of the region and another, and no other. -/
structure Exact (outline : Outline Int) (r : Region Int) : Prop where
  proper : ∀ b ∈ outline, b.Proper
  top : ∀ x y blocks, countTop outline x y blocks = if EdgeTop r.Covers x y blocks then 1 else 0
  left : ∀ x y blocks, countLeft outline x y blocks = if EdgeLeft r.Covers x y blocks then 1 else 0

/-- A region in banded form has an exact outline. -/
theorem exists_ofRegion? {r : Region Int} (h : ∃ rows bands, r.Banded rows bands) :
    ∃ outline, ofRegion? r = .ok outline ∧ Exact outline r := by
  obtain ⟨rows, bands, h⟩ := h
  obtain ⟨borders, hborders, hproper, htop, hleft⟩ := exists_ofRows? h.fits h.stacked.toLayered
  obtain ⟨outline, hjoin, hproper', htop', hleft'⟩ := Run.exists_join? hproper
  have harea : Band.Area bands = r.Covers := by
    funext x y
    exact propext (h.covers_iff x y).symm
  refine ⟨outline, ?_, hproper', fun x y blocks => ?_, fun x y blocks => ?_⟩
  · simp only [ofRegion?, h.rowsOf_eq, hborders]
    show (Run.join? borders).mapError OutlineError.run = .ok outline
    rw [hjoin]
    rfl
  · rw [htop', htop]
    simp only [harea]
  · rw [hleft', hleft]
    simp only [harea]

/-- The outline of a region that is built is exact : the top of a pixel has one border that
blocks motion up if the pixel is covered and the one above is not, one that blocks motion down
if it is the other way round, and no other border, and the left of a pixel likewise. -/
theorem exact_of_built {r : Region Int} (h : r.Built) :
    ∃ outline, ofRegion? r = .ok outline ∧ Exact outline r :=
  exists_ofRegion? h.banded

/-- The outline of two boxes, of which the lower one begins further to the right. -/
theorem exact_of_stairs : ∃ r : Region Int,
    Region.ofRectangles? [⟨0, 0, 2, 1⟩, ⟨1, 1, 2, 1⟩] = .ok r ∧
      ∃ outline, ofRegion? r = .ok outline ∧ Exact outline r := by
  obtain ⟨r, hr, -⟩ := Region.exists_stairs
  exact ⟨r, hr, exact_of_built (.ofRectangles hr)⟩

end Outline

end Confinement
