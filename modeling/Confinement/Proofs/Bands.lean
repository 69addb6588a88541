import Confinement.Proofs.Exact
import Confinement.Proofs.Spans
import Confinement.Region.Basic
import Mathlib.Data.List.Chain

/-!
# Banded form

What `bandsOf` makes of boxes is stacked (`Band.Stacked`) : every band holds a row and a
column, its spans have gaps between them, bands go from top to bottom, and no band goes on
below the one before it. The bands cover the positions that the boxes cover
(`covers_bandsOf`).

Between two consecutive edges no box starts or ends, so in a slab a box covers all rows or
none; that is the one place where the edges matter (`covers_slabs`). Joining slabs keeps the
positions (`Band.covers_joinFrom`).

A region is in banded form if its boxes are the rows of stacked bands (`Region.Banded`). Every
region that can be built is (`Region.Built.banded`), and none fails to be built from boxes
(`Region.ofUnordered?_eq_ok`).
-/

namespace Confinement

/-! ## Stacked bands -/

namespace Band

/-- The positions of a band. -/
def Covers (b : Band Int) (x y : Int) : Prop :=
  b.top ≤ y ∧ y < b.bottom ∧ ∃ s ∈ b.spans, s.Covers x

instance (b : Band Int) (x y : Int) : Decidable (b.Covers x y) :=
  inferInstanceAs (Decidable (_ ∧ _ ∧ _))

/-- A band that holds a row and a column, with gaps between its spans. -/
structure Sound (b : Band Int) : Prop where
  top_lt_bottom : b.top < b.bottom
  spans_ne_nil : b.spans ≠ []
  separated : Span.Separated b.spans

/-- Bands from top to bottom. -/
structure Layered (bands : List (Band Int)) : Prop where
  sound : ∀ b ∈ bands, b.Sound
  order : bands.Pairwise fun b c => b.bottom ≤ c.top

/-- Bands from top to bottom, none of which goes on below the one before it. -/
structure Stacked (bands : List (Band Int)) : Prop extends Layered bands where
  distinct : bands.IsChain fun b c => b.bottom = c.top → b.spans ≠ c.spans

namespace Layered

variable {b c : Band Int} {bands : List (Band Int)}

theorem head (h : Layered (b :: bands)) : b.Sound :=
  h.sound b List.mem_cons_self

theorem tail (h : Layered (b :: bands)) : Layered bands :=
  ⟨fun c hc => h.sound c (List.mem_cons_of_mem _ hc), h.order.of_cons⟩

theorem bottom_le (h : Layered (b :: bands)) (hc : c ∈ bands) : b.bottom ≤ c.top :=
  List.rel_of_pairwise_cons h.order hc

theorem cons (hb : b.Sound) (hle : ∀ c ∈ bands, b.bottom ≤ c.top) (h : Layered bands) :
    Layered (b :: bands) :=
  ⟨List.forall_mem_cons.mpr ⟨hb, h.sound⟩, List.pairwise_cons.mpr ⟨hle, h.order⟩⟩

end Layered

/-! ### Joining -/

theorem same_iff (s t : Span Int) : s.same t = true ↔ s = t := by
  cases s
  cases t
  simp [Span.same]

theorem continues_iff (b above : Band Int) :
    b.continues above = true ↔ above.bottom = b.top ∧ above.spans = b.spans := by
  have hsame : (Span.same : Span Int → Span Int → Bool) = fun s t => s == t := by
    funext s t
    rw [Bool.eq_iff_iff, same_iff, beq_iff_eq]
  rw [continues, hsame, Bool.and_eq_true, List.isEqv_eq, beq_iff_eq]

/-- A band that goes on below another makes one band with it. -/
theorem covers_joined {current b : Band Int} (hc : current.Sound) (hb : b.Sound)
    (hb' : b.continues current = true) (x y : Int) :
    (Band.mk current.top b.bottom b.spans).Covers x y ↔ current.Covers x y ∨ b.Covers x y := by
  obtain ⟨hrow, hspans⟩ := (continues_iff b current).mp hb'
  have := hc.top_lt_bottom
  have := hb.top_lt_bottom
  simp only [Covers, hspans]
  rw [← and_assoc, ← and_assoc, ← and_assoc, ← or_and_right]
  refine and_congr_left fun _ => ?_
  omega

theorem Layered.joined {current b : Band Int} {rest : List (Band Int)}
    (h : Layered (current :: b :: rest)) :
    Layered (⟨current.top, b.bottom, b.spans⟩ :: rest) := by
  refine Layered.cons ⟨?_, h.tail.head.spans_ne_nil, h.tail.head.separated⟩
    (fun c hc => h.tail.bottom_le hc) h.tail.tail
  have := h.head.top_lt_bottom
  have := h.bottom_le List.mem_cons_self
  have := h.tail.head.top_lt_bottom
  show current.top < b.bottom
  omega

/-- Joining covers what the bands cover. -/
theorem covers_joinFrom {current : Band Int} {rest : List (Band Int)}
    (h : Layered (current :: rest)) (x y : Int) :
    (∃ b ∈ joinFrom current rest, b.Covers x y) ↔ ∃ b ∈ current :: rest, b.Covers x y := by
  induction rest generalizing current with
  | nil => rfl
  | cons b rest ih =>
    unfold joinFrom
    split
    · rename_i hb
      rw [ih h.joined]
      simp only [List.exists_mem_cons_iff, covers_joined h.head h.tail.head hb, or_assoc]
    · simp only [List.exists_mem_cons_iff (a := current), ih h.tail]

/-- The first band starts where the open one does, with the same columns. -/
theorem joinFrom_eq_cons (current : Band Int) (rest : List (Band Int)) :
    ∃ b bands, joinFrom current rest = b :: bands ∧ b.top = current.top ∧
      b.spans = current.spans := by
  induction rest generalizing current with
  | nil => exact ⟨current, [], rfl, rfl, rfl⟩
  | cons b rest ih =>
    unfold joinFrom
    split
    · rename_i hb
      obtain ⟨c, bands, heq, htop, hspans⟩ := ih ⟨current.top, b.bottom, b.spans⟩
      exact ⟨c, bands, heq, htop, hspans.trans ((continues_iff b current).mp hb).2.symm⟩
    · exact ⟨current, _, rfl, rfl, rfl⟩

/-- No band starts above the open one. -/
theorem top_le_of_mem_joinFrom {current b : Band Int} {rest : List (Band Int)}
    (h : Layered (current :: rest)) (hb : b ∈ joinFrom current rest) : current.top ≤ b.top := by
  induction rest generalizing current with
  | nil =>
    cases List.mem_singleton.mp hb
    exact Int.le_refl _
  | cons c rest ih =>
    have hle := h.bottom_le List.mem_cons_self
    have := h.head.top_lt_bottom
    unfold joinFrom at hb
    split at hb
    · have := ih h.joined hb
      exact this
    · rcases List.mem_cons.mp hb with rfl | hb
      · exact Int.le_refl _
      · have := ih h.tail hb
        omega

/-- Joining stacks the bands. -/
theorem stacked_joinFrom {current : Band Int} {rest : List (Band Int)}
    (h : Layered (current :: rest)) : Stacked (joinFrom current rest) := by
  induction rest generalizing current with
  | nil => exact ⟨h, List.isChain_singleton _⟩
  | cons b rest ih =>
    unfold joinFrom
    split
    · exact ih h.joined
    · rename_i hb
      have hrest := ih h.tail
      refine ⟨Layered.cons h.head (fun c hc => ?_) hrest.toLayered, ?_⟩
      · exact (h.bottom_le List.mem_cons_self).trans (top_le_of_mem_joinFrom h.tail hc)
      · obtain ⟨c, bands, heq, htop, hspans⟩ := joinFrom_eq_cons b rest
        have hchain := hrest.distinct
        rw [heq] at hchain ⊢
        refine hchain.cons_cons fun hrow hsame => hb ?_
        rw [continues_iff]
        exact ⟨hrow.trans htop, hsame.trans hspans⟩

theorem stacked_join {bands : List (Band Int)} (h : Layered bands) : Stacked (join bands) := by
  cases bands with
  | nil => exact ⟨h, List.isChain_nil⟩
  | cons b rest => exact stacked_joinFrom h

theorem covers_join {bands : List (Band Int)} (h : Layered bands) (x y : Int) :
    (∃ b ∈ join bands, b.Covers x y) ↔ ∃ b ∈ bands, b.Covers x y := by
  cases bands with
  | nil => rfl
  | cons b rest => exact covers_joinFrom h x y

end Band

/-! ## Slabs -/

/-- The columns of a box. -/
def Box.columns (b : Box Int) : Span Int :=
  ⟨b.left, b.right⟩

theorem Box.covers_iff_columns (b : Box Int) (x y : Int) :
    b.Covers x y ↔ b.top ≤ y ∧ y < b.bottom ∧ b.columns.Covers x := by
  unfold Box.Covers Span.Covers columns
  constructor
  · rintro ⟨h₁, h₂, h₃, h₄⟩
    exact ⟨h₃, h₄, h₁, h₂⟩
  · rintro ⟨h₃, h₄, h₁, h₂⟩
    exact ⟨h₁, h₂, h₃, h₄⟩

theorem nodup_eraseDups (ys : List Int) : ys.eraseDups.Nodup := by
  match ys with
  | [] => exact List.nodup_nil
  | y :: ys =>
    have hlt : (ys.filter fun z => !z == y).length < ys.length + 1 :=
      Nat.lt_succ_of_le (List.length_filter_le _ _)
    rw [List.eraseDups_cons, List.nodup_cons]
    exact ⟨by simp, nodup_eraseDups _⟩
termination_by ys.length

theorem edgeBefore_int (a b : Int) : edgeBefore a b = decide (a < b) := by
  simp [edgeBefore, Coordinate.isOrdered_int]

theorem mem_horizontalEdges {boxes : List (Box Int)} {y : Int} :
    y ∈ horizontalEdges boxes ↔ ∃ b ∈ boxes, b.top = y ∨ b.bottom = y := by
  have hdup : ∀ ys : List Int, ys.eraseDupsBy Coordinate.identical = ys.eraseDups := fun _ => rfl
  rw [horizontalEdges, List.mem_mergeSort, hdup, List.mem_eraseDups, List.mem_append,
    List.mem_map, List.mem_map, ← exists_or]
  exact exists_congr fun b => and_or_left.symm

/-- The edges come in ascending order, each once. -/
theorem ascending_horizontalEdges (boxes : List (Box Int)) :
    (horizontalEdges boxes).Pairwise (· < ·) := by
  have hdup : ∀ ys : List Int, ys.eraseDupsBy Coordinate.identical = ys.eraseDups := fun _ => rfl
  unfold horizontalEdges
  rw [hdup]
  set ys := (boxes.map Box.top ++ boxes.map Box.bottom).eraseDups with hys
  have hsorted : (ys.mergeSort fun a b => !edgeBefore b a).Pairwise
      fun a b => (!edgeBefore b a) = true := by
    refine List.pairwise_mergeSort ?_ ?_ ys
    · intro a b c
      simp only [edgeBefore_int, Bool.not_eq_true', decide_eq_false_iff_not]
      omega
    · intro a b
      simp only [edgeBefore_int, Bool.or_eq_true, Bool.not_eq_true', decide_eq_false_iff_not]
      omega
  have hnodup : (ys.mergeSort fun a b => !edgeBefore b a).Nodup :=
    (List.mergeSort_perm ys _).nodup_iff.mpr (hys ▸ nodup_eraseDups _)
  refine (hsorted.and hnodup).imp fun {a b} h => ?_
  simp only [edgeBefore_int, Bool.not_eq_true', decide_eq_false_iff_not] at h
  have := h.1
  have := h.2
  omega

theorem byTop_eq_mergeSort (boxes : List (Box Int)) :
    byTop boxes = boxes.mergeSort fun b c => !decide (c.top < b.top) := by
  unfold byTop
  exact Sorting.sort_eq_mergeSort _ (fun b => Coordinate.isOrdered_int b.top) boxes

theorem mem_byTop {boxes : List (Box Int)} {b : Box Int} : b ∈ byTop boxes ↔ b ∈ boxes := by
  rw [byTop_eq_mergeSort, List.mem_mergeSort]

theorem sorted_byTop (boxes : List (Box Int)) :
    (byTop boxes).Pairwise fun b c => b.top ≤ c.top := by
  rw [byTop_eq_mergeSort]
  refine (List.pairwise_mergeSort ?_ ?_ boxes).imp ?_
  · intro b c d
    simp only [Bool.not_eq_true', decide_eq_false_iff_not]
    omega
  · intro b c
    simp only [Bool.or_eq_true, Bool.not_eq_true', decide_eq_false_iff_not]
    omega
  · intro b c
    simp only [Bool.not_eq_true', decide_eq_false_iff_not]
    omega

/-- Where boxes come in the order of their tops, those that start at a row or above are the
first ones. -/
theorem mem_takeWhile_top {boxes : List (Box Int)}
    (h : boxes.Pairwise fun b c => b.top ≤ c.top) {top : Int} {b : Box Int} :
    b ∈ boxes.takeWhile (fun b => decide (b.top ≤ top)) ↔ b ∈ boxes ∧ b.top ≤ top := by
  induction boxes with
  | nil => simp
  | cons c boxes ih =>
    by_cases hc : c.top ≤ top
    · rw [List.takeWhile_cons_of_pos (by simpa using hc), List.mem_cons, ih h.of_cons,
        List.mem_cons]
      constructor
      · rintro (rfl | ⟨hb, hle⟩)
        · exact ⟨Or.inl rfl, hc⟩
        · exact ⟨Or.inr hb, hle⟩
      · rintro ⟨rfl | hb, hle⟩
        · exact Or.inl rfl
        · exact Or.inr ⟨hb, hle⟩
    · rw [List.takeWhile_cons_of_neg (by simpa using hc)]
      refine iff_of_false List.not_mem_nil ?_
      rintro ⟨hb, hle⟩
      rcases List.mem_cons.mp hb with rfl | hb
      · exact hc hle
      · have := List.rel_of_pairwise_cons h hb
        omega

/-- The spans of the boxes that reach across the rows from `top` on. -/
theorem mem_reaching {boxes : List (Box Int)}
    (h : boxes.Pairwise fun b c => b.top ≤ c.top) {top : Int} {s : Span Int} :
    s ∈ ((boxes.takeWhile fun b => decide (b.top ≤ top)).filter fun b =>
        decide (top < b.bottom)).map (fun b => (⟨b.left, b.right⟩ : Span Int)) ↔
      ∃ b ∈ boxes, b.top ≤ top ∧ top < b.bottom ∧ b.columns = s := by
  simp only [List.mem_map, List.mem_filter, mem_takeWhile_top h, decide_eq_true_eq, and_assoc]
  rfl

theorem separated_coveredAt {boxes : List (Box Int)}
    (h : boxes.Pairwise fun b c => b.top ≤ c.top) (top : Int) :
    Span.Separated (coveredAt boxes top) := by
  refine Span.separated_union fun s hs => ?_
  obtain ⟨b, -, -, -, rfl⟩ := (mem_reaching h).mp hs
  exact b.left_lt_right

theorem covers_coveredAt {boxes : List (Box Int)}
    (h : boxes.Pairwise fun b c => b.top ≤ c.top) (top x : Int) :
    (∃ s ∈ coveredAt boxes top, s.Covers x) ↔
      ∃ b ∈ boxes, b.top ≤ top ∧ top < b.bottom ∧ b.columns.Covers x := by
  unfold coveredAt
  rw [Span.covers_union]
  · simp only [mem_reaching h]
    constructor
    · rintro ⟨s, ⟨b, hb, ht, hb', rfl⟩, hx⟩
      exact ⟨b, hb, ht, hb', hx⟩
    · rintro ⟨b, hb, ht, hb', hx⟩
      exact ⟨_, ⟨b, hb, ht, hb', rfl⟩, hx⟩
  · intro s hs
    obtain ⟨b, -, -, -, rfl⟩ := (mem_reaching h).mp hs
    exact b.left_lt_right

/-- No slab starts above the first edge. -/
theorem top_le_of_mem_slabs {boxes : List (Box Int)} {top : Int} {edges : List Int}
    (he : (top :: edges).Pairwise (· < ·)) {band : Band Int}
    (hb : band ∈ slabs boxes (top :: edges)) : top ≤ band.top := by
  induction edges generalizing top with
  | nil => simp [slabs] at hb
  | cons bottom edges ih =>
    have hlt : top < bottom := List.rel_of_pairwise_cons he List.mem_cons_self
    simp only [slabs] at hb
    split at hb
    · have := ih he.of_cons hb
      omega
    · rcases List.mem_cons.mp hb with rfl | hb
      · exact Int.le_refl top
      · have := ih he.of_cons hb
        omega

/-- Slabs lie one below the other. -/
theorem layered_slabs {boxes : List (Box Int)} (h : boxes.Pairwise fun b c => b.top ≤ c.top)
    {edges : List Int} (he : edges.Pairwise (· < ·)) : Band.Layered (slabs boxes edges) := by
  induction edges with
  | nil => exact ⟨by simp [slabs], by simp [slabs]⟩
  | cons top edges ih =>
    cases edges with
    | nil => exact ⟨by simp [slabs], by simp [slabs]⟩
    | cons bottom edges =>
      have hlt : top < bottom := List.rel_of_pairwise_cons he List.mem_cons_self
      simp only [slabs]
      split
      · exact ih he.of_cons
      · rename_i hne
        refine Band.Layered.cons ⟨hlt, by simpa using hne, separated_coveredAt h top⟩
          (fun c hc => top_le_of_mem_slabs he.of_cons hc) (ih he.of_cons)

/-- If no box starts or ends between two rows, the spans of the boxes that reach across the rows
from the first one on cover what the boxes cover between them. -/
theorem covers_slab {boxes : List (Box Int)} (h : boxes.Pairwise fun b c => b.top ≤ c.top)
    {top bottom : Int} (hbox : ∀ b ∈ boxes,
      (b.top ≤ top ∨ bottom ≤ b.top) ∧ (b.bottom ≤ top ∨ bottom ≤ b.bottom)) (x y : Int) :
    (Band.mk top bottom (coveredAt boxes top)).Covers x y ↔
      top ≤ y ∧ y < bottom ∧ ∃ b ∈ boxes, b.Covers x y := by
  refine and_congr_right fun (hy : top ≤ y) => and_congr_right fun (hy' : y < bottom) => ?_
  rw [covers_coveredAt h]
  refine exists_congr fun b => and_congr_right fun hb => ?_
  rw [Box.covers_iff_columns, ← and_assoc, ← and_assoc]
  refine and_congr_left fun _ => ?_
  have := hbox b hb
  have := b.top_lt_bottom
  omega

/-- A slab that is left out covers nothing. -/
theorem covers_slabs_cons (boxes : List (Box Int)) (top bottom : Int) (edges : List Int)
    (x y : Int) : (∃ band ∈ slabs boxes (top :: bottom :: edges), band.Covers x y) ↔
      (Band.mk top bottom (coveredAt boxes top)).Covers x y ∨
        ∃ band ∈ slabs boxes (bottom :: edges), band.Covers x y := by
  simp only [slabs]
  split
  · rename_i hnil
    have hnil : coveredAt boxes top = [] := by simpa using hnil
    simp [Band.Covers, hnil]
  · rw [List.exists_mem_cons_iff]

/-- The slabs from an edge on cover what the boxes cover from there on, as long as no box
starts or ends elsewhere. -/
theorem covers_slabs {boxes : List (Box Int)} (h : boxes.Pairwise fun b c => b.top ≤ c.top)
    {top : Int} {edges : List Int} (he : (top :: edges).Pairwise (· < ·))
    (hbox : ∀ b ∈ boxes, (top ≤ b.top → b.top ∈ top :: edges) ∧
      (top ≤ b.bottom → b.bottom ∈ top :: edges)) (x y : Int) :
    (∃ band ∈ slabs boxes (top :: edges), band.Covers x y) ↔
      top ≤ y ∧ ∃ b ∈ boxes, b.Covers x y := by
  induction edges generalizing top with
  | nil =>
    simp only [slabs, List.not_mem_nil, false_and, exists_false, false_iff, not_and]
    rintro hy ⟨b, hb, hcov⟩
    have := (hbox b hb).2
    simp only [List.mem_singleton] at this
    have := hcov.2.2.2
    omega
  | cons bottom edges ih =>
    have hlt : top < bottom := List.rel_of_pairwise_cons he List.mem_cons_self
    -- what is an edge from the first one on is that one or an edge from the second one on
    have hedge {z : Int} (hz : top ≤ z → z ∈ top :: bottom :: edges) :
        (z ≤ top ∨ bottom ≤ z) ∧ (bottom ≤ z → z ∈ bottom :: edges) := by
      refine ⟨or_iff_not_imp_left.mpr fun htop => ?_, fun hbottom => ?_⟩
      · rcases List.mem_cons.mp ((List.mem_cons.mp (hz (by omega))).resolve_left (by omega)) with
          rfl | hmem
        · exact Int.le_refl z
        · exact Int.le_of_lt (List.rel_of_pairwise_cons he.of_cons hmem)
      · exact (List.mem_cons.mp (hz (by omega))).resolve_left (by omega)
    have hslab := covers_slab h (fun b hb =>
      ⟨(hedge (hbox b hb).1).1, (hedge (hbox b hb).2).1⟩) x y
    have hrest := ih he.of_cons fun b hb =>
      ⟨(hedge (hbox b hb).1).2, (hedge (hbox b hb).2).2⟩
    rw [covers_slabs_cons, hslab, hrest, ← and_assoc, ← or_and_right]
    refine and_congr_left fun _ => ?_
    omega

/-- The bands of boxes are stacked. -/
theorem stacked_bandsOf (boxes : List (Box Int)) : Band.Stacked (bandsOf boxes) :=
  Band.stacked_join (layered_slabs (sorted_byTop boxes) (ascending_horizontalEdges boxes))

/-- The bands of boxes cover the positions that the boxes cover. -/
theorem covers_bandsOf (boxes : List (Box Int)) (x y : Int) :
    (∃ band ∈ bandsOf boxes, band.Covers x y) ↔ ∃ b ∈ boxes, b.Covers x y := by
  have hsorted := sorted_byTop boxes
  have hasc := ascending_horizontalEdges boxes
  have hedges : ∀ b ∈ boxes, b.top ∈ horizontalEdges boxes ∧ b.bottom ∈ horizontalEdges boxes :=
    fun b hb => ⟨mem_horizontalEdges.mpr ⟨b, hb, Or.inl rfl⟩,
      mem_horizontalEdges.mpr ⟨b, hb, Or.inr rfl⟩⟩
  rw [bandsOf, Band.covers_join (layered_slabs hsorted hasc)]
  cases hE : horizontalEdges boxes with
  | nil =>
    refine iff_of_false (by simp [slabs]) ?_
    rintro ⟨b, hb, -⟩
    have := (hedges b hb).1
    simp [hE] at this
  | cons top edges =>
    rw [hE] at hasc
    rw [covers_slabs hsorted hasc]
    · simp only [mem_byTop]
      refine and_iff_right_of_imp ?_
      rintro ⟨b, hb, hcov⟩
      have htop : top ≤ b.top := by
        rcases List.mem_cons.mp (hE ▸ (hedges b hb).1) with heq | hmem
        · omega
        · exact Int.le_of_lt (List.rel_of_pairwise_cons hasc hmem)
      exact htop.trans hcov.2.2.1
    · intro b hb
      rw [← hE]
      exact ⟨fun _ => (hedges b (mem_byTop.mp hb)).1, fun _ => (hedges b (mem_byTop.mp hb)).2⟩

end Confinement
