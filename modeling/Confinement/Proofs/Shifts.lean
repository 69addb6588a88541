import Confinement.Proofs.Membership
import Confinement.Proofs.Outlines
import Confinement.Proofs.Uniqueness

/-!
# Shifted regions

Rectangles that are shifted by whole pixels make the shifted region, whose outline is the shifted
outline : the same borders in the same order, each with its own blocking
(`Region.ofRectangles?_shift`).

For the region it is enough that the shifted boxes are in banded form again, as there is one such
form for what the shifted rectangles cover. The outline has no such description, since it matters
in which order its borders come, so each stage of its extraction is followed : a stage that
answers for a region answers for the shifted one with what is shifted. Every stage looks at
differences of coordinates only, by comparing two of them.
-/

namespace Confinement

/-! ## Shifted shapes -/

section Shapes

variable {α : Type} [Add α]

/-- The point moved to the right and down. -/
def Point.shift (p : Point α) (dx dy : α) : Point α :=
  ⟨p.x + dx, p.y + dy⟩

/-- The segment moved to the right and down. -/
def Segment.shift (s : Segment α) (dx dy : α) : Segment α :=
  ⟨s.start.shift dx dy, s.stop.shift dx dy⟩

/-- The border moved to the right and down, with the same blocking. -/
def Border.shift (b : Border α) (dx dy : α) : Border α :=
  ⟨b.line.shift dx dy, b.blocks⟩

/-- The outline with every border moved. -/
def Outline.shift (outline : Outline α) (dx dy : α) : Outline α :=
  outline.map fun b => b.shift dx dy

variable [IsRightCancelAdd α] [Coordinate α] [LawfulBEq α]

theorem Coordinate.beq_add_right (a b d : α) : (a + d == b + d) = (a == b) := by
  rw [Bool.eq_iff_iff, beq_iff_eq, beq_iff_eq, add_left_inj]

@[simp]
theorem Border.isHorizontal_shift (b : Border α) (dx dy : α) :
    (b.shift dx dy).isHorizontal = b.isHorizontal :=
  Coordinate.beq_add_right b.line.start.y b.line.stop.y dy

@[simp]
theorem Point.same_shift (p q : Point α) (dx dy : α) :
    (p.shift dx dy).same (q.shift dx dy) = p.same q := by
  simp only [same, shift, Coordinate.beq_add_right]

/-- A border is moved to a border. -/
theorem Border.ofSegment?_shift {line : Segment α} {blocks : Directions} {b : Border α}
    (h : ofSegment? line blocks = .ok b) (dx dy : α) :
    ofSegment? (line.shift dx dy) blocks = .ok (b.shift dx dy) := by
  unfold ofSegment? at h ⊢
  simp only [Segment.shift, Point.shift, Coordinate.beq_add_right]
  split at h
  · cases h
  · rename_i hsame
    cases h
    rw [if_neg hsame]
    rfl

end Shapes

/-- The rectangle moved by whole pixels. -/
def Rectangle.shift (rect : Rectangle Int) (dx dy : Int) : Rectangle Int :=
  ⟨rect.x + dx, rect.y + dy, rect.width, rect.height⟩

/-- The box between the moved corners, if there is one. -/
def Box.shift? (b : Box Int) (dx dy : Int) : Except (BoxError Int) (Box Int) :=
  ofCorners? (b.left + dx) (b.top + dy) (b.right + dx) (b.bottom + dy)

/-- The moved corners are still apart. -/
theorem Box.shift?_eq_ok (b : Box Int) (dx dy : Int) : b.shift? dx dy = .ok (b.shift dx dy) :=
  ofCorners?_eq_ok (Int.add_lt_add_right b.left_lt_right dx)
    (Int.add_lt_add_right b.top_lt_bottom dy)

/-! ## Shifted bands -/

/-- The span moved to the right. -/
def Span.shift (s : Span Int) (dx : Int) : Span Int :=
  ⟨s.left + dx, s.right + dx⟩

/-- The band moved to the right and down. -/
def Band.shift (b : Band Int) (dx dy : Int) : Band Int :=
  ⟨b.top + dy, b.bottom + dy, b.spans.map fun s => s.shift dx⟩

/-- The row moved to the right and down. -/
def Row.shift (row : Row Int) (dx dy : Int) : Row Int :=
  row.map fun b => b.shift dx dy

theorem Span.injective_shift (dx : Int) : Function.Injective fun s : Span Int => s.shift dx := by
  rintro ⟨left, right⟩ ⟨left', right'⟩ h
  simp only [shift, mk.injEq, add_left_inj] at h
  exact congrArg₂ mk h.1 h.2

theorem Span.Separated.shift {spans : List (Span Int)} (h : Separated spans) (dx : Int) :
    Separated (spans.map fun s => s.shift dx) := by
  refine ⟨fun s hs => ?_, List.pairwise_map.mpr (h.gap.imp fun hgap => ?_)⟩
  · obtain ⟨t, ht, rfl⟩ := List.mem_map.mp hs
    exact Int.add_lt_add_right (h.left_lt_right t ht) dx
  · exact Int.add_lt_add_right hgap dx

theorem Band.Sound.shift {b : Band Int} (h : b.Sound) (dx dy : Int) : (b.shift dx dy).Sound :=
  ⟨Int.add_lt_add_right h.top_lt_bottom dy, mt List.map_eq_nil_iff.mp h.spans_ne_nil,
    h.separated.shift dx⟩

theorem Band.Stacked.shift {bands : List (Band Int)} (h : Stacked bands) (dx dy : Int) :
    Stacked (bands.map fun b => b.shift dx dy) := by
  refine ⟨⟨fun b hb => ?_, List.pairwise_map.mpr (h.order.imp fun hle => ?_)⟩,
    (List.isChain_map _).mpr (h.distinct.imp fun {b c} hdistinct htouch hspans => ?_)⟩
  · obtain ⟨c, hc, rfl⟩ := List.mem_map.mp hb
    exact (h.sound c hc).shift dx dy
  · exact Int.add_le_add_right hle dy
  · exact hdistinct (add_right_cancel htouch)
      (List.map_injective_iff.mpr (Span.injective_shift dx) hspans)

theorem Row.Fits.shift {row : Row Int} {band : Band Int} (h : Row.Fits row band) (dx dy : Int) :
    Row.Fits (row.shift dx dy) (band.shift dx dy) := by
  refine ⟨fun b hb => ?_, fun b hb => ?_, ?_⟩
  · obtain ⟨c, hc, rfl⟩ := List.mem_map.mp hb
    exact congrArg (· + dy) (h.top_eq c hc)
  · obtain ⟨c, hc, rfl⟩ := List.mem_map.mp hb
    exact congrArg (· + dy) (h.bottom_eq c hc)
  · show (row.map fun b => b.shift dx dy).map Box.columns = band.spans.map fun s => s.shift dx
    rw [← h.columns, List.map_map, List.map_map]
    rfl

namespace Region

variable {r : Region Int} {rows : List (Row Int)} {bands : List (Band Int)}

/-- A region in banded form is moved to a region in banded form, row by row. -/
theorem Banded.shift (h : r.Banded rows bands) (dx dy : Int) :
    (r.shift dx dy).Banded (rows.map fun row => row.shift dx dy)
      (bands.map fun b => b.shift dx dy) := by
  refine ⟨?_, ?_, h.stacked.shift dx dy⟩
  · show r.boxes.map (fun b => b.shift dx dy) = _
    rw [h.boxes_eq, List.map_flatten]
    rfl
  · rw [List.forall₂_map_left_iff, List.forall₂_map_right_iff]
    exact h.fits.imp fun _ _ hfit => hfit.shift dx dy

theorem covers_shift (r : Region Int) (dx dy x y : Int) :
    (r.shift dx dy).Covers x y ↔ r.Covers (x - dx) (y - dy) := by
  have hbox (b : Box Int) : (b.shift dx dy).Covers x y ↔ b.Covers (x - dx) (y - dy) := by
    simp only [Box.Covers, Box.shift, sub_lt_iff_lt_add, le_sub_iff_add_le]
  simp only [Covers, shift, List.mem_map, exists_exists_and_eq_and, hbox]

end Region

theorem Rectangle.covers_shift (rect : Rectangle Int) (dx dy x y : Int) :
    (rect.shift dx dy).Covers x y ↔ rect.Covers (x - dx) (y - dy) := by
  unfold Covers shift
  simp only
  omega

/-! ## Shifted seams -/

namespace Seam

/-- The edge moved to the right. -/
def Edge.shift (e : Edge Int) (dx : Int) : Edge Int :=
  ⟨e.left + dx, e.right + dx, e.blocked⟩

/-- The sweep moved to the right and down. -/
def Sweep.shift (sweep : Sweep Int) (dx dy : Int) : Sweep Int :=
  ⟨sweep.pending.map fun e => e.shift dx, sweep.found.map fun b => b.shift dx dy⟩

variable {y : Int} (dx dy : Int)

theorem Edge.before_shift (e f : Edge Int) : (e.shift dx).before (f.shift dx) = e.before f := by
  rw [Bool.eq_iff_iff, before_iff, before_iff]
  simp only [shift, add_lt_add_iff_right, add_left_inj]

theorem keep_shift {found kept : List (Border Int)} {e : Edge Int} (h : keep y found e = .ok kept) :
    keep (y + dy) (found.map fun b => b.shift dx dy) (e.shift dx) =
      .ok (kept.map fun b => b.shift dx dy) := by
  unfold keep at h ⊢
  simp only [Edge.shift, add_lt_add_iff_right]
  split at h
  · rename_i hwide
    rw [if_pos hwide]
    cases found with
    | nil =>
      cases h
      rfl
    | cons last found =>
      have hiff : (last.shift dx dy).line.start.x ≤ e.left + dx ↔
          last.line.start.x ≤ e.left :=
        add_le_add_iff_right dx
      simp only [List.map_cons, hiff] at h ⊢
      split at h
      · rename_i hle
        cases h
        rw [if_pos hle]
        rfl
      · cases h
  · rename_i hempty
    cases h
    rw [if_neg hempty]

theorem remainder_shift (p e : Edge Int) :
    remainder (p.shift dx) (e.shift dx) = (remainder p e).map fun q => q.shift dx := by
  unfold remainder
  simp only [Edge.shift, add_lt_add_iff_right]
  split
  · rfl
  · split <;> rfl

theorem step_shift {sweep next : Sweep Int} {e : Edge Int} (h : step y sweep e = .ok next) :
    step (y + dy) (sweep.shift dx dy) (e.shift dx) = .ok (next.shift dx dy) := by
  obtain ⟨pending, found⟩ := sweep
  cases pending with
  | none =>
    cases h
    rfl
  | some p =>
    obtain ⟨left, right, blocked⟩ := e
    obtain ⟨left', right', blocked'⟩ := p
    show step _ ⟨some ⟨left' + dx, right' + dx, blocked'⟩, _⟩ ⟨left + dx, right + dx, blocked⟩ = _
    simp only [step, add_le_add_iff_right, Coordinate.beq_add_right] at h ⊢
    split at h
    · cases h
    · rename_i hle
      rw [if_neg hle]
      split at h
      · rename_i hchain
        cases h
        rw [if_pos hchain]
        rfl
      · rename_i hchain
        rw [if_neg hchain]
        split at h
        · rename_i hapart
          obtain ⟨kept, hkept, hnext⟩ := bind_eq_ok_iff.mp h
          cases hnext
          rw [if_pos hapart]
          exact bind_eq_ok_iff.mpr ⟨_, keep_shift dx dy hkept, rfl⟩
        · rename_i hapart
          obtain ⟨kept, hkept, hnext⟩ := bind_eq_ok_iff.mp h
          cases hnext
          rw [if_neg hapart]
          refine bind_eq_ok_iff.mpr ⟨_, keep_shift dx dy hkept, ?_⟩
          exact congrArg (fun q => Except.ok (Sweep.mk q _))
            (remainder_shift dx ⟨left', right', blocked'⟩ ⟨left, right, blocked⟩)

theorem sweep?_shift {edges : List (Edge Int)} {borders : List (Border Int)}
    (h : sweep? y edges = .ok borders) :
    sweep? (y + dy) (edges.map fun e => e.shift dx) =
      .ok (borders.map fun b => b.shift dx dy) := by
  obtain ⟨⟨pending, found⟩, hfold, h⟩ := bind_eq_ok_iff.mp h
  have hshifted := foldlM_map_eq_ok (s := fun sweep => sweep.shift dx dy)
    (fun _ _ _ => step_shift dx dy) hfold
  refine bind_eq_ok_iff.mpr ⟨_, hshifted, ?_⟩
  cases pending with
  | none =>
    cases h
    exact congrArg Except.ok List.map_reverse.symm
  | some p =>
    obtain ⟨kept, hkept, h⟩ := bind_eq_ok_iff.mp h
    cases h
    refine bind_eq_ok_iff.mpr ⟨_, keep_shift dx dy hkept, ?_⟩
    exact congrArg Except.ok List.map_reverse.symm

theorem sorted?_shift (edges : List (Edge Int)) : ∃ sorted, sorted? edges = .ok sorted ∧
    sorted? (edges.map fun e => e.shift dx) = .ok (sorted.map fun e => e.shift dx) := by
  refine ⟨_, sorted?_eq_ok edges, ?_⟩
  rw [sorted?_eq_ok, List.map_mergeSort fun e _ f _ => ?_]
  rw [Edge.before_shift]

theorem facing_shift (above below : Row Int) :
    facing (above.shift dx dy) (below.shift dx dy) =
      (facing above below).map fun e => e.shift dx := by
  simp only [facing, Row.shift, List.map_append, List.map_map]
  rfl

theorem borders?_shift {above below : Row Int} {borders : List (Border Int)}
    (h : borders? above below = .ok borders) :
    borders? (above.shift dx dy) (below.shift dx dy) =
      .ok (borders.map fun b => b.shift dx dy) := by
  cases above with
  | nil => cases h
  | cons a as =>
    cases below with
    | nil => cases h
    | cons b bs =>
      obtain ⟨sorted, hsorted, hshifted⟩ := sorted?_shift dx (facing (a :: as) (b :: bs))
      rw [← facing_shift dx dy] at hshifted
      simp only [borders?, hsorted] at h
      split at h
      · rename_i hrow
        have hrow' : ((b.shift dx dy).top == (a.shift dx dy).bottom) = true :=
          (Coordinate.beq_add_right b.top a.bottom dy).trans hrow
        show (if _ then _ else _) = _
        rw [if_pos hrow']
        exact bind_eq_ok_iff.mpr ⟨_, hshifted, sweep?_shift dx dy h⟩
      · cases h

end Seam

/-! ## Shifted runs -/

/-- The run with its border moved. -/
def Run.shift (r : Run Int) (dx dy : Int) : Run Int :=
  ⟨r.border.shift dx dy, r.isOpen⟩

namespace Run

variable {b : Border Int} {runs : List (Run Int)} (dx dy : Int)

theorem endsAt_shift (r : Run Int) (p : Point Int) (blocks : Directions) :
    (r.shift dx dy).endsAt (p.shift dx dy) blocks = r.endsAt p blocks := by
  unfold endsAt
  rw [← Point.same_shift r.border.line.stop p dx dy]
  rfl

theorem closeAt_shift (r : Run Int) (p : Point Int) (blocks : Directions) :
    (r.shift dx dy).closeAt (p.shift dx dy) blocks = (r.closeAt p blocks).shift dx dy := by
  unfold closeAt
  rw [endsAt_shift]
  split <;> rfl

theorem lengthen?_shift {found : Option (List (Run Int))} (h : lengthen? b runs = .ok found) :
    lengthen? (b.shift dx dy) (runs.map fun r => r.shift dx dy) =
      .ok (found.map fun longer => longer.map fun r => r.shift dx dy) := by
  induction runs generalizing found with
  | nil =>
    cases h
    rfl
  | cons r runs ih =>
    have hends : (r.shift dx dy).endsAt (b.shift dx dy).line.start (b.shift dx dy).blocks =
        r.endsAt b.line.start b.blocks := endsAt_shift dx dy r b.line.start b.blocks
    simp only [List.map_cons, lengthen?, hends] at h ⊢
    split at h
    · rename_i hopen
      rw [if_pos hopen]
      split at h
      · rename_i longer hlonger
        cases h
        have hshifted := Border.ofSegment?_shift hlonger dx dy
        simp only [Segment.shift] at hshifted
        simp only [shift, Border.shift, Segment.shift, hshifted]
        rfl
      · cases h
    · rename_i hopen
      rw [if_neg hopen]
      split at h
      · rename_i rest hrest
        cases h
        rw [ih hrest]
        cases rest <;> rfl
      · cases h

theorem stepVertical_shift {next : List (Run Int)} (h : stepVertical runs b = .ok next) :
    stepVertical (runs.map fun r => r.shift dx dy) (b.shift dx dy) =
      .ok (next.map fun r => r.shift dx dy) := by
  have hclose : (runs.map fun r => r.shift dx dy).map
      (closeAt (b.shift dx dy).line.stop (b.shift dx dy).blocks) =
        (runs.map (closeAt b.line.stop b.blocks)).map fun r => r.shift dx dy := by
    rw [List.map_map, List.map_map]
    exact List.map_congr_left fun r _ => closeAt_shift dx dy r b.line.stop b.blocks
  simp only [stepVertical, hclose] at h ⊢
  split at h
  · rename_i longer hlonger
    cases h
    rw [lengthen?_shift dx dy hlonger]
    rfl
  · rename_i hnone
    cases h
    rw [lengthen?_shift dx dy hnone, List.map_append]
    rfl
  · cases h

theorem step_shift {next : List (Run Int)} (h : step runs b = .ok next) :
    step (runs.map fun r => r.shift dx dy) (b.shift dx dy) =
      .ok (next.map fun r => r.shift dx dy) := by
  unfold step at h ⊢
  rw [Border.isHorizontal_shift]
  split at h
  · rename_i hhorizontal
    cases h
    rw [if_pos hhorizontal, List.map_append]
    rfl
  · rename_i hhorizontal
    rw [if_neg hhorizontal]
    exact stepVertical_shift dx dy h

theorem join?_shift {borders joined : List (Border Int)} (h : join? borders = .ok joined) :
    join? (borders.map fun b => b.shift dx dy) = .ok (joined.map fun b => b.shift dx dy) := by
  unfold join? at h ⊢
  split at h
  · rename_i runs hfold
    cases h
    have hshifted := foldlM_map_eq_ok (s := fun runs => runs.map fun r => r.shift dx dy)
      (fun _ _ _ => step_shift dx dy) hfold
    rw [List.map_nil] at hshifted
    rw [hshifted, List.map_map]
    exact congrArg Except.ok List.map_map
  · cases h

end Run

/-! ## Shifted outlines -/

namespace Row

variable (row : Row Int) (dx dy : Int)

theorem tops_shift : (row.shift dx dy).tops = row.tops.map fun b => b.shift dx dy := by
  simp only [tops, shift, List.map_map]
  rfl

theorem roof_shift : (row.shift dx dy).roof = row.roof.map fun b => b.shift dx dy := by
  rw [roof_eq_tops, roof_eq_tops, tops_shift]

theorem bottoms_shift : (row.shift dx dy).bottoms = row.bottoms.map fun b => b.shift dx dy := by
  simp only [bottoms, shift, List.map_map]
  rfl

theorem sides_shift : (row.shift dx dy).sides = row.sides.map fun b => b.shift dx dy := by
  simp only [sides, shift, List.flatMap_map, List.map_flatMap]
  rfl

end Row

namespace Outline

variable (dx dy : Int)

/-- Borders that are checked are checked where they are moved to. -/
theorem checked?_shift {borders checked : List (Border Int)} (h : checked? borders = .ok checked) :
    checked? (borders.map fun b => b.shift dx dy) =
      .ok (checked.map fun b => b.shift dx dy) := by
  have hpass := mapM_eq_ok_iff.mp (mapError_eq_ok_iff.mp h)
  refine mapError_eq_ok_iff.mpr (mapM_eq_ok_iff.mpr ?_)
  rw [List.forall₂_map_left_iff, List.forall₂_map_right_iff]
  exact hpass.imp fun b c hb => Border.ofSegment?_shift hb dx dy

theorem between?_shift {above row : Row Int} {borders : List (Border Int)}
    (h : between? above row = .ok borders) :
    between? (above.shift dx dy) (row.shift dx dy) =
      .ok (borders.map fun b => b.shift dx dy) := by
  cases above with
  | nil => cases h
  | cons a as =>
    cases row with
    | nil => cases h
    | cons b bs =>
      have htouch : ((b.shift dx dy).top == (a.shift dx dy).bottom) = (b.top == a.bottom) :=
        Coordinate.beq_add_right b.top a.bottom dy
      simp only [between?] at h
      show (if _ then _ else _) = _
      rw [htouch]
      split at h
      · rename_i hrow
        rw [if_pos hrow]
        exact mapError_eq_ok_iff.mpr (Seam.borders?_shift dx dy (mapError_eq_ok_iff.mp h))
      · rename_i hrow
        have hmap : (Row.shift (a :: as) dx dy).bottoms ++ (Row.shift (b :: bs) dx dy).roof =
            (Row.bottoms (a :: as) ++ Row.roof (b :: bs)).map fun b => b.shift dx dy := by
          rw [Row.bottoms_shift, Row.roof_shift, List.map_append]
        rw [if_neg hrow]
        exact hmap ▸ checked?_shift dx dy h

theorem under?_shift {above : Row Int} {rows : List (Row Int)} {borders : List (Border Int)}
    (h : under? above rows = .ok borders) :
    under? (above.shift dx dy) (rows.map fun row => row.shift dx dy) =
      .ok (borders.map fun b => b.shift dx dy) := by
  induction rows generalizing above borders with
  | nil =>
    show checked? (above.shift dx dy).bottoms = _
    rw [Row.bottoms_shift]
    exact checked?_shift dx dy h
  | cons row rest ih =>
    obtain ⟨between, hbetween, h⟩ := bind_eq_ok_iff.mp h
    obtain ⟨sides, hsides, h⟩ := bind_eq_ok_iff.mp h
    obtain ⟨below, hbelow, h⟩ := bind_eq_ok_iff.mp h
    cases h
    refine bind_eq_ok_iff.mpr ⟨_, between?_shift dx dy hbetween, bind_eq_ok_iff.mpr
      ⟨_, Row.sides_shift row dx dy ▸ checked?_shift dx dy hsides, bind_eq_ok_iff.mpr
        ⟨_, ih hbelow, ?_⟩⟩⟩
    rw [List.map_append, List.map_append]
    rfl

theorem ofRows?_shift {rows : List (Row Int)} {borders : List (Border Int)}
    (h : ofRows? rows = .ok borders) :
    ofRows? (rows.map fun row => row.shift dx dy) = .ok (borders.map fun b => b.shift dx dy) := by
  cases rows with
  | nil =>
    cases h
    rfl
  | cons row rest =>
    obtain ⟨top, htop, h⟩ := bind_eq_ok_iff.mp h
    obtain ⟨below, hbelow, h⟩ := bind_eq_ok_iff.mp h
    cases h
    have hmap : (row.shift dx dy).roof ++ (row.shift dx dy).sides =
        (row.roof ++ row.sides).map fun b => b.shift dx dy := by
      rw [Row.roof_shift, Row.sides_shift, List.map_append]
    refine bind_eq_ok_iff.mpr ⟨_, hmap ▸ checked?_shift dx dy htop, bind_eq_ok_iff.mpr
      ⟨_, under?_shift dx dy hbelow, ?_⟩⟩
    rw [List.map_append]
    rfl

/-- The outline of a shifted region is the shifted outline. -/
theorem ofRegion?_shift {r : Region Int} {rows : List (Row Int)} {bands : List (Band Int)}
    (h : r.Banded rows bands) {outline : Outline Int} (houtline : ofRegion? r = .ok outline) :
    ofRegion? (r.shift dx dy) = .ok (outline.shift dx dy) := by
  obtain ⟨borders, hborders, hjoin⟩ := bind_eq_ok_iff.mp houtline
  rw [h.rowsOf_eq] at hborders
  refine bind_eq_ok_iff.mpr ⟨_, ?_,
    mapError_eq_ok_iff.mpr (Run.join?_shift dx dy (mapError_eq_ok_iff.mp hjoin))⟩
  rw [(h.shift dx dy).rowsOf_eq]
  exact ofRows?_shift dx dy hborders

end Outline

/-! ## Regions of shifted rectangles -/

namespace Region

variable (r : Region Int) (dx dy : Int)

theorem coveredBy?_shift (x y : Int) (boxes : List (Box Int)) :
    coveredBy? (x + dx) (y + dy) (boxes.map fun b => b.shift dx dy) = coveredBy? x y boxes := by
  induction boxes with
  | nil => rfl
  | cons b boxes ih =>
    have hbelow : y + dy < (b.shift dx dy).top ↔ y < b.top := add_lt_add_iff_right dy
    have hcovers : (b.shift dx dy).Covers (x + dx) (y + dy) ↔ b.Covers x y := by
      simp only [Box.Covers, Box.shift, add_le_add_iff_right, add_lt_add_iff_right]
    have hsearch (x y : Int) (b : Box Int) (boxes : List (Box Int)) :
        coveredBy? x y (b :: boxes) = if y < b.top then .ok false
          else if b.Covers x y then .ok true else coveredBy? x y boxes := rfl
    rw [List.map_cons, hsearch, hsearch, ih, if_congr hbelow rfl (if_congr hcovers rfl rfl)]

/-- A shifted region contains a point where the region contains it before both are moved. -/
theorem contains_shift (p : Point Rat) :
    (r.shift dx dy).contains (p.shift (dx : Rat) dy) = r.contains p := by
  show coveredBy? ⌊p.x + dx⌋ ⌊p.y + dy⌋ _ = coveredBy? ⌊p.x⌋ ⌊p.y⌋ r.boxes
  rw [Int.floor_add_intCast, Int.floor_add_intCast]
  exact coveredBy?_shift dx dy ⌊p.x⌋ ⌊p.y⌋ r.boxes

/-- Shifted rectangles make the shifted region, of boxes between the moved corners. Its outline has
the same borders in the same order, moved, and it contains a point where the region contains it
before both are moved. -/
theorem ofRectangles?_shift {rectangles : List (Rectangle Int)}
    (h : ∀ rect ∈ rectangles, 0 ≤ rect.width ∧ 0 ≤ rect.height) (dx dy : Int) :
    ∃ r outline, ofRectangles? rectangles = .ok r ∧ Outline.ofRegion? r = .ok outline ∧
      r.boxes.mapM (fun b => b.shift? dx dy) = .ok (r.shift dx dy).boxes ∧
      ofRectangles? (rectangles.map fun rect => rect.shift dx dy) = .ok (r.shift dx dy) ∧
      Outline.ofRegion? (r.shift dx dy) = .ok (outline.shift dx dy) ∧
      ∀ p : Point Rat, ∃ inside, r.contains p = .ok inside ∧
        (r.shift dx dy).contains (p.shift (dx : Rat) dy) = .ok inside := by
  have hsizes : ∀ rect ∈ rectangles.map fun rect => rect.shift dx dy,
      0 ≤ rect.width ∧ 0 ≤ rect.height := List.forall_mem_map.mpr h
  obtain ⟨r, hr, hcovers⟩ := ofRectangles?_eq_ok h
  obtain ⟨r', hr', hcovers'⟩ := ofRectangles?_eq_ok hsizes
  have hbuilt : r.Built := .ofRectangles hr
  obtain ⟨rows, bands, hbanded⟩ := hbuilt.banded
  obtain ⟨rows', bands', hbanded'⟩ := Built.banded (.ofRectangles hr')
  obtain ⟨outline, houtline, -⟩ := Outline.exists_ofRegion? hbuilt.banded
  -- there is one region in banded form for what the shifted rectangles cover
  cases hbanded'.eq_of_covers (hbanded.shift dx dy) fun x y => by
    rw [hcovers', covers_shift, hcovers]
    simp only [List.mem_map, exists_exists_and_eq_and, Rectangle.covers_shift]
  refine ⟨r, outline, hr, houtline, ?_, hr', Outline.ofRegion?_shift dx dy hbanded houtline,
    fun p => ⟨_, hbuilt.contains_eq_ok p, ?_⟩⟩
  · refine mapM_eq_ok_iff.mpr (List.forall₂_map_right_iff.mpr (List.forall₂_same.mpr ?_))
    exact fun b _ => b.shift?_eq_ok dx dy
  · rw [contains_shift, hbuilt.contains_eq_ok]

/-- Two boxes, of which the lower one begins further to the right, and an empty rectangle. -/
def stairRectangles : List (Rectangle Int) :=
  [⟨0, 0, 2, 1⟩, ⟨1, 1, 2, 1⟩, ⟨4, 4, 0, 3⟩]

theorem ofRectangles?_shift_stairs :
    (∀ rect ∈ stairRectangles, 0 ≤ rect.width ∧ 0 ≤ rect.height) ∧
    ∃ r outline, ofRectangles? stairRectangles = .ok r ∧ Outline.ofRegion? r = .ok outline ∧
      r.boxes.mapM (fun b => b.shift? 5 (-5)) = .ok (r.shift 5 (-5)).boxes ∧
      ofRectangles? (stairRectangles.map fun rect => rect.shift 5 (-5)) = .ok (r.shift 5 (-5)) ∧
      Outline.ofRegion? (r.shift 5 (-5)) = .ok (outline.shift 5 (-5)) ∧
      ∀ p : Point Rat, ∃ inside, r.contains p = .ok inside ∧
        (r.shift 5 (-5)).contains (p.shift ((5 : Int) : Rat) ((-5 : Int) : Rat)) = .ok inside := by
  have hsizes : ∀ rect ∈ stairRectangles, 0 ≤ rect.width ∧ 0 ≤ rect.height := by
    simp [stairRectangles]
  exact ⟨hsizes, ofRectangles?_shift hsizes 5 (-5)⟩

end Region

end Confinement
