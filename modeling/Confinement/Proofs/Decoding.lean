import Confinement.Proofs.Uniqueness
import Confinement.Proofs.Vertices

/-!
# Outlines read back

The outline of a region tells which pixels the region covers (`Outline.Decodes`,
`Outline.Exact.decodes`). Going along a row from the left, a border that blocks motion to the left
leads into the region, and one that blocks motion to the right leads out of it. So the borders
passed so far that lead in are as many as those that lead out, and one more where a pixel is
covered; down a column it is the same.

Both are one induction : two numbers are the same far out, and change in the same way from one
line to the next (`eq_of_steps`). Passing a line adds the borders along it
(`Outline.Exact.countBefore_eq_add`, `Outline.Exact.countAbove_eq_add`), and an exact outline has
one where the pixels before and after the line differ.

Regions whose outlines have the same borders therefore cover the same pixels, and are equal if they
are in banded form (`Outline.Exact.covers_iff_of_mem_iff`).
-/

namespace Confinement

/-- Two numbers that agree at one line and change in the same way from every line to the next
agree from there on. -/
theorem eq_of_steps (f g : Int → Int) (hstep : ∀ z, f z - f (z - 1) = g z - g (z - 1))
    {low z : Int} (hlow : f low = g low) (hz : low ≤ z) : f z = g z := by
  induction z, hz using Int.leInduction with
  | base => exact hlow
  | succ z _ ih =>
    have := hstep (z + 1)
    rw [Int.add_sub_cancel] at this
    omega

/-- Above some row and before some column no pixel is covered. -/
theorem Region.exists_le_of_covers (r : Region Int) :
    ∃ low : Int, ∀ x y, r.Covers x y → low ≤ x ∧ low ≤ y := by
  obtain ⟨boxes⟩ := r
  induction boxes with
  | nil => exact ⟨0, by rintro x y ⟨b, hb, -⟩; cases hb⟩
  | cons b boxes ih =>
    obtain ⟨low, hlow⟩ := ih
    refine ⟨low ⊓ (b.left ⊓ b.top), ?_⟩
    rintro x y ⟨c, hc, hcov⟩
    rcases List.mem_cons.mp hc with rfl | hc
    · obtain ⟨hleft, -, htop, -⟩ := hcov
      omega
    · have := hlow x y ⟨c, hc, hcov⟩
      omega

namespace Outline

/-- How many vertical borders with a blocking lie beside a row of pixels, at a column or before
it. -/
def countBefore (outline : Outline Int) (x y : Int) (blocks : Directions) : Nat :=
  outline.countP fun b => decide (b.isHorizontal = false ∧ b.line.start.x ≤ x ∧
    b.line.start.y ≤ y ∧ y < b.line.stop.y ∧ b.blocks = blocks)

/-- How many horizontal borders with a blocking lie over a column of pixels, at a row or above
it. -/
def countAbove (outline : Outline Int) (x y : Int) (blocks : Directions) : Nat :=
  outline.countP fun b => decide (b.isHorizontal = true ∧ b.line.start.y ≤ y ∧
    b.line.start.x ≤ x ∧ x < b.line.stop.x ∧ b.blocks = blocks)

/-- What an outline must be to tell which pixels a region covers : beside a row, the borders
up to a pixel that lead into the region are one more than those that lead out of it if the
pixel is covered, and as many if it is not, and so over a column. -/
structure Decodes (outline : Outline Int) (r : Region Int) : Prop where
  row : ∀ x y, (countBefore outline x y (.only .left) : Int) -
    countBefore outline x y (.only .right) = if r.Covers x y then 1 else 0
  column : ∀ x y, (countAbove outline x y (.only .up) : Int) -
    countAbove outline x y (.only .down) = if r.Covers x y then 1 else 0

variable {outline outline' : Outline Int} {r r' : Region Int} {x y : Int} {blocks : Directions}

/-! ## Along a row -/

/-- The borders at a column or before it are those before it and those along it. -/
theorem Exact.countBefore_eq_add (h : Exact outline r) (x y : Int) (blocks : Directions) :
    countBefore outline x y blocks =
      countBefore outline (x - 1) y blocks + countLeft outline x y blocks := by
  refine countP_or (fun b hb => ?_) fun b _ ⟨hbefore, halong, _⟩ => ?_
  · unfold Border.AlongLeft
    by_cases hhorizontal : b.isHorizontal = true
    · have : b.line.start.y = b.line.stop.y := beq_iff_eq.mp hhorizontal
      simp only [hhorizontal, Bool.true_eq_false, false_and, false_or, false_iff]
      omega
    · have hup := (h.proper b hb).upright hhorizontal
      have := hup.1
      by_cases hsame : b.blocks = blocks
      · simp only [hup.not_isHorizontal, hsame, and_true, true_and]
        omega
      · simp only [hsame, and_false, or_false]
  · have := hbefore.2.1
    have := halong.1
    omega

/-- Before the first column that is covered there is no border. -/
theorem Exact.countBefore_eq_zero (h : Exact outline r) (hout : ∀ z ≤ x, ∀ y, ¬r.Covers z y) :
    countBefore outline x y blocks = 0 := by
  refine List.countP_eq_zero.mpr fun b hb hdec => ?_
  obtain ⟨hvertical, hle, -⟩ := of_decide_eq_true hdec
  have hup := (h.proper b hb).upright (by rw [hvertical]; decide)
  have halong : b.AlongLeft b.line.start.x b.line.start.y := ⟨rfl, hup.1.symm, le_rfl, hup.2⟩
  rcases h.edgeLeft hb halong with ⟨-, hin, -⟩ | ⟨-, hin, -⟩
  · exact hout _ hle _ hin
  · exact hout _ (by omega) _ hin

/-- Passing a column changes the borders that lead in less those that lead out as it changes
whether the row is covered. -/
theorem Exact.countLeft_sub (h : Exact outline r) (x y : Int) :
    (countLeft outline x y (.only .left) : Int) - countLeft outline x y (.only .right) =
      (if r.Covers x y then 1 else 0) - if r.Covers (x - 1) y then 1 else 0 := by
  rw [h.left, h.left]
  simp only [EdgeLeft, Directions.only]
  by_cases hin : r.Covers x y <;> by_cases hbefore : r.Covers (x - 1) y <;> simp [hin, hbefore]

/-! ## Down a column -/

/-- The borders at a row or above it are those above it and those along it. -/
theorem Exact.countAbove_eq_add (h : Exact outline r) (x y : Int) (blocks : Directions) :
    countAbove outline x y blocks =
      countAbove outline x (y - 1) blocks + countTop outline x y blocks := by
  refine countP_or (fun b hb => ?_) fun b _ ⟨habove, halong, _⟩ => ?_
  · unfold Border.AlongTop
    by_cases hhorizontal : b.isHorizontal = true
    · have : b.line.start.y = b.line.stop.y := beq_iff_eq.mp hhorizontal
      by_cases hsame : b.blocks = blocks
      · simp only [hhorizontal, hsame, and_true, true_and]
        omega
      · simp only [hsame, and_false, or_false]
    · have hup := (h.proper b hb).upright hhorizontal
      have := hup.1
      have := hup.2
      simp only [hup.not_isHorizontal, Bool.false_eq_true, false_and, false_or, false_iff]
      omega
  · have := habove.2.1
    have := halong.1
    omega

/-- Above the first row that is covered there is no border. -/
theorem Exact.countAbove_eq_zero (h : Exact outline r) (hout : ∀ z ≤ y, ∀ x, ¬r.Covers x z) :
    countAbove outline x y blocks = 0 := by
  refine List.countP_eq_zero.mpr fun b hb hdec => ?_
  obtain ⟨hhorizontal, hle, hstart, hstop, -⟩ := of_decide_eq_true hdec
  have halong : b.AlongTop x b.line.start.y :=
    ⟨rfl, (beq_iff_eq.mp hhorizontal).symm, hstart, hstop⟩
  rcases h.edgeTop hb halong with ⟨-, hin, -⟩ | ⟨-, hin, -⟩
  · exact hout _ hle _ hin
  · exact hout _ (by omega) _ hin

/-- Passing a row changes the borders that lead in less those that lead out as it changes
whether the column is covered. -/
theorem Exact.countTop_sub (h : Exact outline r) (x y : Int) :
    (countTop outline x y (.only .up) : Int) - countTop outline x y (.only .down) =
      (if r.Covers x y then 1 else 0) - if r.Covers x (y - 1) then 1 else 0 := by
  rw [h.top, h.top]
  simp only [EdgeTop, Directions.only]
  by_cases hin : r.Covers x y <;> by_cases habove : r.Covers x (y - 1) <;> simp [hin, habove]

/-! ## Regions and their outlines -/

/-- An exact outline tells which pixels a region covers. -/
theorem Exact.decodes (h : Exact outline r) : Decodes outline r := by
  obtain ⟨low, hlow⟩ := r.exists_le_of_covers
  refine ⟨fun x y => ?_, fun x y => ?_⟩
  · have hout : ∀ z ≤ x ⊓ (low - 1), ∀ y, ¬r.Covers z y := fun z hz y hcov => by
      have := (hlow z y hcov).1
      omega
    refine eq_of_steps (fun x => (countBefore outline x y (.only .left) : Int) -
      countBefore outline x y (.only .right)) (fun x => if r.Covers x y then 1 else 0)
      (fun z => ?_) ?_ (inf_le_left : x ⊓ (low - 1) ≤ x)
    · have := h.countBefore_eq_add z y (.only .left)
      have := h.countBefore_eq_add z y (.only .right)
      have := h.countLeft_sub z y
      omega
    · simp only [h.countBefore_eq_zero hout, hout _ le_rfl y, if_false, Int.sub_self]
  · have hout : ∀ z ≤ y ⊓ (low - 1), ∀ x, ¬r.Covers x z := fun z hz x hcov => by
      have := (hlow x z hcov).2
      omega
    refine eq_of_steps (fun y => (countAbove outline x y (.only .up) : Int) -
      countAbove outline x y (.only .down)) (fun y => if r.Covers x y then 1 else 0)
      (fun z => ?_) ?_ (inf_le_left : y ⊓ (low - 1) ≤ y)
    · have := h.countAbove_eq_add x z (.only .up)
      have := h.countAbove_eq_add x z (.only .down)
      have := h.countTop_sub x z
      omega
    · simp only [h.countAbove_eq_zero hout, hout _ le_rfl x, if_false, Int.sub_self]

/-- Regions that have exact outlines with the same borders cover the same pixels. -/
theorem Exact.covers_iff_of_mem_iff (h : Exact outline r) (h' : Exact outline' r')
    (hmem : ∀ b, b ∈ outline ↔ b ∈ outline') (x y : Int) : r.Covers x y ↔ r'.Covers x y := by
  have hperm : outline.Perm outline' :=
    (List.perm_ext_iff_of_nodup h.nodup h'.nodup).mpr hmem
  have hcount : ∀ blocks, countBefore outline x y blocks = countBefore outline' x y blocks :=
    fun blocks => hperm.countP_eq _
  have hrow := h.decodes.row x y
  rw [hcount, hcount, h'.decodes.row] at hrow
  by_cases hin : r.Covers x y <;> by_cases hin' : r'.Covers x y <;> simp_all

end Outline

namespace Region

/-- The outline of a region that is built tells which pixels the region covers, and no other region
that is built has an outline with the same borders. -/
theorem Built.exists_decodes {r : Region Int} (h : r.Built) :
    ∃ outline, Outline.ofRegion? r = .ok outline ∧ Outline.Decodes outline r ∧
      ∀ (r' : Region Int) (outline' : Outline Int), r'.Built →
        Outline.ofRegion? r' = .ok outline' → (∀ b, b ∈ outline ↔ b ∈ outline') → r = r' := by
  obtain ⟨outline, houtline, hexact⟩ := Outline.exists_ofRegion? h.banded
  refine ⟨outline, houtline, hexact.decodes, fun r' outline' h' houtline' hmem => ?_⟩
  obtain ⟨found, hfound, hexact'⟩ := Outline.exists_ofRegion? h'.banded
  cases hfound.symm.trans houtline'
  obtain ⟨rows, bands, hbanded⟩ := h.banded
  obtain ⟨rows', bands', hbanded'⟩ := h'.banded
  exact hbanded.eq_of_covers hbanded' (hexact.covers_iff_of_mem_iff hexact' hmem)

/-- The outline of eight pixels around one that is left out. -/
theorem exists_decodes_frame : frame.Built ∧ ∃ outline, Outline.ofRegion? frame = .ok outline ∧
    Outline.Decodes outline frame ∧
      ∀ (r' : Region Int) (outline' : Outline Int), r'.Built →
        Outline.ofRegion? r' = .ok outline' → (∀ b, b ∈ outline ↔ b ∈ outline') → frame = r' :=
  ⟨built_frame, Built.exists_decodes built_frame⟩

end Region

end Confinement
