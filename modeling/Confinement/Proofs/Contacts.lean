import Confinement.Motion.Search
import Confinement.Proofs.Exact
import Mathlib.Tactic.FieldSimp
import Mathlib.Tactic.Linarith
import Mathlib.Tactic.LinearCombination
import Mathlib.Tactic.Ring

/-!
# Exact contacts

Over fractions two segments that are not parallel meet where a share of the one leads to the
same point as a share of the other, and `Segment.intersection` finds that point
(`Segment.exists_intersection`). A search of the outline always ends, with the first border of
least measure (`Outline.exists_least?`). Together they say which border a motion hits first :
the one that it meets after the least share of its way (`Outline.exists_firstHit?`).
-/

namespace Confinement

/-! ## Segments that meet -/

namespace Segment

/-- The point to which a share of a segment leads. -/
def along (s : Segment Rat) (t : Rat) : Point Rat :=
  ⟨s.start.x + t * (s.stop.x - s.start.x), s.start.y + t * (s.stop.y - s.start.y)⟩

/-- The signed area between the directions of two segments. -/
def area (a b : Segment Rat) : Rat :=
  (a.stop.x - a.start.x) * (b.stop.y - b.start.y) - (a.stop.y - a.start.y) * (b.stop.x - b.start.x)

/-- Whether two segments that are not parallel meet after these shares of both. -/
def MeetAt (a b : Segment Rat) (t u : Rat) : Prop :=
  a.area b ≠ 0 ∧ (0 ≤ t ∧ t ≤ 1) ∧ (0 ≤ u ∧ u ≤ 1) ∧ a.along t = b.along u

/-- The square of the length of a segment. -/
def squaredLength (s : Segment Rat) : Rat :=
  (s.stop.x - s.start.x) * (s.stop.x - s.start.x) + (s.stop.y - s.start.y) * (s.stop.y - s.start.y)

theorem MeetAt.on_way {a b : Segment Rat} {t u : Rat} (h : a.MeetAt b t u) : 0 ≤ u ∧ u ≤ 1 :=
  h.2.2.1

/-- A segment that meets another has a length. -/
theorem MeetAt.squaredLength_pos {a b : Segment Rat} {t u : Rat} (h : a.MeetAt b t u) :
    0 < b.squaredLength := by
  have hx := mul_self_nonneg (b.stop.x - b.start.x)
  have hy := mul_self_nonneg (b.stop.y - b.start.y)
  refine lt_of_le_of_ne (add_nonneg hx hy) fun hzero => h.1 ?_
  obtain ⟨hx, hy⟩ := (add_eq_zero_iff_of_nonneg hx hy).mp hzero.symm
  rw [area, mul_self_eq_zero.mp hx, mul_self_eq_zero.mp hy, mul_zero, mul_zero, sub_zero]

/-- Of two shares of a way, the measure of the lesser one is the lesser one. -/
theorem MeetAt.measure_le_iff {a b motion : Segment Rat} {s t u v : Rat}
    (ha : a.MeetAt motion u t) (hb : b.MeetAt motion v s) :
    t * t * motion.squaredLength ≤ s * s * motion.squaredLength ↔ t ≤ s := by
  rw [mul_le_mul_iff_left₀ ha.squaredLength_pos]
  exact (mul_self_le_mul_self_iff ha.on_way.1 hb.on_way.1).symm

@[simp]
theorem along_zero (s : Segment Rat) : s.along 0 = s.start := by
  simp [along]

@[simp]
theorem along_one (s : Segment Rat) : s.along 1 = s.stop := by
  simp [along]

/-- A further share of a segment leads on from the point that the first one leads to. -/
theorem along_add (s : Segment Rat) (t u : Rat) : s.along (t + u) =
    ⟨(s.along t).x + u * (s.stop.x - s.start.x), (s.along t).y + u * (s.stop.y - s.start.y)⟩ := by
  simp only [along, add_mul, add_assoc]

theorem holds_iff (t : Rat) : holds t = true ↔ 0 ≤ t ∧ t ≤ 1 := by
  simp only [holds, Coordinate.ofInt_rat, Int.cast_zero, Int.cast_one, decide_eq_true_eq]

/-- Where two segments meet, the two shares follow from cross products. -/
theorem along_eq_along_iff {a b : Segment Rat} (h : a.area b ≠ 0) (t u : Rat) :
    a.along t = b.along u ↔
      t * a.area b = (b.start.x - a.start.x) * (b.stop.y - b.start.y) -
          (b.start.y - a.start.y) * (b.stop.x - b.start.x) ∧
        u * a.area b = (b.start.x - a.start.x) * (a.stop.y - a.start.y) -
          (b.start.y - a.start.y) * (a.stop.x - a.start.x) := by
  unfold area at h
  unfold along area
  simp only [Point.mk.injEq]
  constructor
  · rintro ⟨hx, hy⟩
    exact ⟨by linear_combination (b.stop.y - b.start.y) * hx - (b.stop.x - b.start.x) * hy,
      by linear_combination (a.stop.y - a.start.y) * hx - (a.stop.x - a.start.x) * hy⟩
  · rintro ⟨ht, hu⟩
    constructor
    · apply mul_right_cancel₀ h
      linear_combination (a.stop.x - a.start.x) * ht - (b.stop.x - b.start.x) * hu
    · apply mul_right_cancel₀ h
      linear_combination (a.stop.y - a.start.y) * ht - (b.stop.y - b.start.y) * hu

/-- Segments that are not parallel meet, or would meet if they went on. -/
theorem exists_along_eq {a b : Segment Rat} (h : a.area b ≠ 0) : ∃ t u, a.along t = b.along u :=
  ⟨_, _, (along_eq_along_iff h _ _).mpr ⟨div_mul_cancel₀ _ h, div_mul_cancel₀ _ h⟩⟩

/-- Parallel segments never meet. -/
theorem intersection_of_area_eq_zero {a b : Segment Rat} (h : a.area b = 0) :
    a.intersection b = .ok none := by
  have hzero : ((a.stop.x - a.start.x) * (b.stop.y - b.start.y) -
      (a.stop.y - a.start.y) * (b.stop.x - b.start.x) == (Coordinate.ofInt 0 : Rat)) = true :=
    beq_iff_eq.mpr h
  simp only [intersection, Point.sub_rat, Point.cross_rat, bind, Except.bind, hzero, if_true, pure,
    Except.pure]

/-- Other segments meet where both shares are shares of the segments. -/
theorem intersection_of_along_eq {a b : Segment Rat} (h : a.area b ≠ 0) {t u : Rat}
    (htu : a.along t = b.along u) : a.intersection b =
      .ok (if (0 ≤ t ∧ t ≤ 1) ∧ 0 ≤ u ∧ u ≤ 1 then some (a.along t) else none) := by
  have hzero : ((a.stop.x - a.start.x) * (b.stop.y - b.start.y) -
      (a.stop.y - a.start.y) * (b.stop.x - b.start.x) == (Coordinate.ofInt 0 : Rat)) = false :=
    beq_eq_false_iff_ne.mpr h
  have hback : (b.stop.x - b.start.x) * (a.stop.y - a.start.y) -
      (b.stop.y - b.start.y) * (a.stop.x - a.start.x) = -a.area b := by
    unfold area
    ring
  have hback' : (b.stop.x - b.start.x) * (a.stop.y - a.start.y) -
      (b.stop.y - b.start.y) * (a.stop.x - a.start.x) ≠ 0 := by
    rw [hback]
    exact neg_ne_zero.mpr h
  obtain ⟨ht, hu⟩ := (along_eq_along_iff h t u).mp htu
  have ht' : Scalar.div ((b.start.x - a.start.x) * (b.stop.y - b.start.y) -
      (b.start.y - a.start.y) * (b.stop.x - b.start.x)) ((a.stop.x - a.start.x) *
        (b.stop.y - b.start.y) - (a.stop.y - a.start.y) * (b.stop.x - b.start.x)) = .ok t :=
    (Scalar.div_rat h).trans (congrArg Except.ok ((div_eq_iff h).mpr ht.symm))
  have hu' : Scalar.div ((a.start.x - b.start.x) * (a.stop.y - a.start.y) -
      (a.start.y - b.start.y) * (a.stop.x - a.start.x)) ((b.stop.x - b.start.x) *
        (a.stop.y - a.start.y) - (b.stop.y - b.start.y) * (a.stop.x - a.start.x)) = .ok u := by
    rw [Scalar.div_rat hback', Except.ok.injEq, div_eq_iff hback', hback]
    linear_combination hu
  have hz : (⟨a.start.x + (a.stop.x - a.start.x) * t, a.start.y + (a.stop.y - a.start.y) * t⟩ :
      Point Rat) = a.along t := by
    simp only [along, mul_comm]
  simp only [intersection, Point.sub_rat, Point.cross_rat, bind, Except.bind, hzero,
    Bool.false_eq_true, if_false, ht', hu',
    Bool.and_eq_true, holds_iff, Point.scale_rat, Point.add_rat, hz]
  split <;> rfl

/-- The point where two segments meet is found, if they do. -/
theorem exists_intersection (a b : Segment Rat) :
    ∃ found, a.intersection b = .ok found ∧
      ∀ z, found = some z ↔ ∃ t u, a.MeetAt b t u ∧ z = a.along t := by
  by_cases harea : a.area b = 0
  · refine ⟨none, intersection_of_area_eq_zero harea, fun z => iff_of_false (by simp) ?_⟩
    rintro ⟨t, u, hmeet, -⟩
    exact hmeet.1 harea
  · obtain ⟨t, u, htu⟩ := exists_along_eq harea
    refine ⟨_, intersection_of_along_eq harea htu, fun z => ?_⟩
    constructor
    · intro h
      split at h
      · rename_i hshares
        cases h
        exact ⟨t, u, ⟨harea, hshares.1, hshares.2, htu⟩, rfl⟩
      · cases h
    · rintro ⟨t', u', ⟨-, ht', hu', htu'⟩, rfl⟩
      obtain ⟨ht, hu⟩ := (along_eq_along_iff harea t u).mp htu
      obtain ⟨hs, hv⟩ := (along_eq_along_iff harea t' u').mp htu'
      cases mul_right_cancel₀ harea (ht.trans hs.symm)
      cases mul_right_cancel₀ harea (hu.trans hv.symm)
      rw [if_pos ⟨ht', hu'⟩]

end Segment

/-! ## The first border of least measure -/

namespace Outline

/-- A border that is the first of least measure in an outline. -/
def IsFirst (measure? : Border Rat → Except ArithmeticError (Option Rat)) (outline : Outline Rat)
    (b : Border Rat) (m : Rat) : Prop :=
  ∃ before after, outline = before ++ b :: after ∧ measure? b = .ok (some m) ∧
    (∀ c ∈ before, ∀ n, measure? c = .ok (some n) → m < n) ∧
    ∀ c ∈ after, ∀ n, measure? c = .ok (some n) → m ≤ n

section Least

variable {measure? : Border Rat → Except ArithmeticError (Option Rat)} {outline : Outline Rat}
  {b : Border Rat} {m : Rat}

theorem IsFirst.mem (h : IsFirst measure? outline b m) : b ∈ outline := by
  obtain ⟨before, after, rfl, -⟩ := h
  exact List.mem_append_right _ List.mem_cons_self

theorem IsFirst.measure_eq (h : IsFirst measure? outline b m) : measure? b = .ok (some m) := by
  obtain ⟨-, -, -, hm, -⟩ := h
  exact hm

theorem IsFirst.le (h : IsFirst measure? outline b m) {c : Border Rat} (hc : c ∈ outline) {n : Rat}
    (hn : measure? c = .ok (some n)) : m ≤ n := by
  obtain ⟨before, after, rfl, hm, hbefore, hafter⟩ := h
  rcases List.mem_append.mp hc with hc | hc
  · exact (hbefore c hc n hn).le
  · rcases List.mem_cons.mp hc with rfl | hc
    · cases hm.symm.trans hn
      exact le_rfl
    · exact hafter c hc n hn

theorem IsFirst.cons {c : Border Rat} (h : IsFirst measure? outline b m)
    (hc : ∀ n, measure? c = .ok (some n) → m < n) : IsFirst measure? (c :: outline) b m := by
  obtain ⟨before, after, rfl, hm, hbefore, hafter⟩ := h
  exact ⟨c :: before, after, rfl, hm, List.forall_mem_cons.mpr ⟨hc, hbefore⟩, hafter⟩

theorem leastFrom_cons_of_none {c : Border Rat} (hc : measure? c = .ok none)
    (best : Option (Border Rat × Rat)) :
    leastFrom measure? best (c :: outline) = leastFrom measure? best outline := by
  rw [leastFrom, hc]

theorem leastFrom_cons_of_improves {c : Border Rat} {k : Rat} (hc : measure? c = .ok (some k))
    {best : Option (Border Rat × Rat)} (h : improves best k = true) :
    leastFrom measure? best (c :: outline) = leastFrom measure? (some (c, k)) outline := by
  rw [leastFrom, hc]
  exact if_pos h

theorem leastFrom_cons_of_not_improves {c : Border Rat} {k : Rat}
    (hc : measure? c = .ok (some k)) {best : Option (Border Rat × Rat)}
    (h : improves best k = false) :
    leastFrom measure? best (c :: outline) = leastFrom measure? best outline := by
  rw [leastFrom, hc]
  exact if_neg (Bool.eq_false_iff.mp h)

/-- Whether a measure is less than the best one, if there is one. -/
theorem improves_iff (best : Option (Border Rat × Rat)) (k : Rat) :
    improves best k = true ↔ ∀ p ∈ best, k < p.2 := by
  cases best with
  | none => simp [improves, Scalar.isFinite]
  | some p => simp [improves]

/-- How a search goes on from the best border so far : it stays the best one, or the first of
least measure beats it. -/
inductive Ends (measure? : Border Rat → Except ArithmeticError (Option Rat))
    (best : Option (Border Rat × Rat)) (outline : Outline Rat) :
    Option (Border Rat × Rat) → Prop where
  | kept (h : ∀ c ∈ outline, ∀ n, measure? c = .ok (some n) → ∃ p ∈ best, p.2 ≤ n) :
    Ends measure? best outline best
  | beaten {b : Border Rat} {m : Rat} (h : IsFirst measure? outline b m)
    (hless : ∀ p ∈ best, m < p.2) : Ends measure? best outline (some (b, m))

variable {best result : Option (Border Rat × Rat)} {c : Border Rat} {k : Rat}

/-- A border that has no lesser measure than the best one is passed over. -/
theorem Ends.pass (h : Ends measure? best outline result)
    (hc : ∀ n, measure? c = .ok (some n) → ∃ p ∈ best, p.2 ≤ n) :
    Ends measure? best (c :: outline) result := by
  cases h with
  | kept hall => exact .kept (List.forall_mem_cons.mpr ⟨hc, hall⟩)
  | beaten hfirst hless =>
    refine .beaten (hfirst.cons fun n hn => ?_) hless
    obtain ⟨p, hp, hle⟩ := hc n hn
    exact (hless p hp).trans_le hle

/-- A border that has a lesser measure than the best one takes its place. -/
theorem Ends.take (h : Ends measure? (some (c, k)) outline result)
    (hc : measure? c = .ok (some k)) (hbest : ∀ p ∈ best, k < p.2) :
    Ends measure? best (c :: outline) result := by
  cases h with
  | kept hall =>
    refine .beaten ⟨[], outline, rfl, hc, by simp, fun d hd n hn => ?_⟩ hbest
    obtain ⟨p, hp, hle⟩ := hall d hd n hn
    cases hp
    exact hle
  | beaten hfirst hless =>
    have hmk := hless _ rfl
    refine .beaten (hfirst.cons fun n hn => ?_) fun p hp => hmk.trans (hbest p hp)
    cases hc.symm.trans hn
    exact hmk

/-- If every border can be measured, the search goes on to its end. -/
theorem exists_leastFrom (htotal : ∀ c ∈ outline, ∃ found, measure? c = .ok found)
    (best : Option (Border Rat × Rat)) : ∃ result,
      leastFrom measure? best outline = .ok result ∧ Ends measure? best outline result := by
  induction outline generalizing best with
  | nil => exact ⟨best, rfl, .kept (by simp)⟩
  | cons c rest ih =>
    obtain ⟨⟨found, hc⟩, hrest⟩ := List.forall_mem_cons.mp htotal
    cases found with
    | none =>
      obtain ⟨result, hresult, hends⟩ := ih hrest best
      refine ⟨result, (leastFrom_cons_of_none hc best).trans hresult, hends.pass fun n hn => ?_⟩
      cases hc.symm.trans hn
    | some k =>
      cases himproves : improves best k with
      | true =>
        obtain ⟨result, hresult, hends⟩ := ih hrest (some (c, k))
        exact ⟨result, (leastFrom_cons_of_improves hc himproves).trans hresult,
          hends.take hc ((improves_iff best k).mp himproves)⟩
      | false =>
        obtain ⟨result, hresult, hends⟩ := ih hrest best
        refine ⟨result, (leastFrom_cons_of_not_improves hc himproves).trans hresult,
          hends.pass fun n hn => ?_⟩
        cases hc.symm.trans hn
        have hnot := mt (improves_iff best k).mpr (Bool.eq_false_iff.mp himproves)
        simpa only [not_forall, not_lt, exists_prop] using hnot

/-- A search ends without a border if none has a measure, else with the first of least measure. -/
theorem exists_least? (htotal : ∀ c ∈ outline, ∃ found, measure? c = .ok found) :
    (least? measure? outline = .ok none ∧ ∀ c ∈ outline, measure? c = .ok none) ∨
      ∃ b m, least? measure? outline = .ok (some b) ∧ IsFirst measure? outline b m := by
  obtain ⟨result, hresult, hends⟩ := exists_leastFrom htotal none
  unfold least?
  rw [hresult]
  cases hends with
  | kept hall =>
    refine Or.inl ⟨rfl, fun c hc => ?_⟩
    obtain ⟨found, hfound⟩ := htotal c hc
    cases found with
    | none => exact hfound
    | some n =>
      obtain ⟨p, hp, -⟩ := hall c hc n hfound
      cases hp
  | beaten hfirst => exact Or.inr ⟨_, _, rfl, hfirst⟩

end Least

/-! ## The border hit first -/

/-- A border that blocks a motion and meets it is measured by the square of the way up to it. -/
theorem exists_contact? (motion : Segment Rat) (free : Directions) (b : Border Rat) :
    ∃ found, contact? motion free b = .ok found ∧ ∀ m, found = some m ↔
      b.blocksAny free = true ∧
        ∃ t u, b.line.MeetAt motion u t ∧ m = t * t * motion.squaredLength := by
  unfold contact?
  by_cases hblocks : b.blocksAny free = true
  · obtain ⟨found, hfound, hspec⟩ := b.line.exists_intersection motion
    cases found with
    | none =>
      refine ⟨none, by rw [if_pos hblocks, hfound]; rfl, fun m => iff_of_false (by simp) ?_⟩
      rintro ⟨-, t, u, hmeet, -⟩
      cases (hspec _).mpr ⟨u, t, hmeet, rfl⟩
    | some z =>
      obtain ⟨u, t, hmeet, hz⟩ := (hspec z).mp rfl
      have hdistance (s : Rat) : (motion.along s).squaredDistance motion.start =
          .ok (s * s * motion.squaredLength) := by
        rw [Point.squaredDistance_rat, Except.ok.injEq]
        unfold Segment.along Segment.squaredLength
        ring
      refine ⟨some (t * t * motion.squaredLength), ?_, fun m => ?_⟩
      · rw [if_pos hblocks, hfound, hz, hmeet.2.2.2]
        exact congrArg (fun d => d >>= fun d => pure (some d)) (hdistance t)
      · constructor
        · rintro ⟨⟩
          exact ⟨hblocks, t, u, hmeet, rfl⟩
        · rintro ⟨-, s, v, hmeet', rfl⟩
          cases (hspec _).mpr ⟨v, s, hmeet', rfl⟩
          have hsame : motion.along s = motion.along t :=
            hmeet'.2.2.2.symm.trans (hz.trans hmeet.2.2.2)
          rw [Option.some.injEq, ← Except.ok.injEq (ε := ArithmeticError), ← hdistance t,
            ← hdistance s, hsame]
  · refine ⟨none, if_neg hblocks, fun m => iff_of_false (by simp) fun h => hblocks h.1⟩

/-- Whether a border has a measure can always be told. -/
theorem exists_measure (motion : Segment Rat) (free : Directions) (b : Border Rat) :
    ∃ found, contact? motion free b = .ok found := by
  obtain ⟨found, hfound, -⟩ := exists_contact? motion free b
  exact ⟨found, hfound⟩

/-- A border that blocks a motion has a measure if the motion meets it. -/
theorem contact?_of_meetAt {motion : Segment Rat} {free : Directions} {b : Border Rat} {t u : Rat}
    (hblocks : b.blocksAny free = true) (hmeet : b.line.MeetAt motion u t) :
    contact? motion free b = .ok (some (t * t * motion.squaredLength)) := by
  obtain ⟨found, hfound, hspec⟩ := exists_contact? motion free b
  rw [hfound, (hspec _).mpr ⟨hblocks, t, u, hmeet, rfl⟩]

/-- A border that has a measure blocks the motion, which meets it. -/
theorem exists_meetAt_of_contact? {motion : Segment Rat} {free : Directions} {b : Border Rat}
    {m : Rat} (h : contact? motion free b = .ok (some m)) : b.blocksAny free = true ∧
      ∃ t u, b.line.MeetAt motion u t ∧ m = t * t * motion.squaredLength := by
  obtain ⟨found, hfound, hspec⟩ := exists_contact? motion free b
  exact (hspec m).mp (Except.ok.inj (hfound.symm.trans h))

/-- Whether a motion hits this border first, after this share of its way, of those that block one
of the directions. -/
structure HitAt (outline : Outline Rat) (motion : Segment Rat) (free : Directions)
    (b : Border Rat) (t : Rat) : Prop where
  mem : b ∈ outline
  blocks : b.blocksAny free = true
  meets : ∃ u, b.line.MeetAt motion u t
  first : ∀ c ∈ outline, c.blocksAny free = true → ∀ s u, c.line.MeetAt motion u s → t ≤ s

/-- A search of the outline ends without a border if the motion meets none of those that block
it, else with one that it hits first. -/
theorem exists_firstHit? (outline : Outline Rat) (motion : Segment Rat) (free : Directions) :
    (outline.firstHit? motion free = .ok none ∧
        ∀ c ∈ outline, c.blocksAny free = true → ∀ t u, ¬c.line.MeetAt motion u t) ∨
      ∃ b t, outline.firstHit? motion free = .ok (some b) ∧ outline.HitAt motion free b t := by
  rcases exists_least? fun c _ => exists_measure motion free c with
    ⟨hnone, hall⟩ | ⟨b, m, hb, hfirst⟩
  · refine Or.inl ⟨hnone, fun c hc hblocks t u hmeet => ?_⟩
    cases (hall c hc).symm.trans (contact?_of_meetAt hblocks hmeet)
  · obtain ⟨hblocks, t, u, hmeet, rfl⟩ := exists_meetAt_of_contact? hfirst.measure_eq
    refine Or.inr ⟨b, t, hb, hfirst.mem, hblocks, ⟨u, hmeet⟩, fun c hc hcblocks s v hcmeet => ?_⟩
    exact (hmeet.measure_le_iff hcmeet).mp (hfirst.le hc (contact?_of_meetAt hcblocks hcmeet))

/-- The border that a search ends with is hit first. -/
theorem exists_hitAt {outline : Outline Rat} {motion : Segment Rat} {free : Directions}
    {b : Border Rat} (hit : outline.firstHit? motion free = .ok (some b)) :
    ∃ t, outline.HitAt motion free b t := by
  rcases exists_firstHit? outline motion free with ⟨hnone, -⟩ | ⟨c, t, hsome, hc⟩
  · cases hit.symm.trans hnone
  · cases hit.symm.trans hsome
    exact ⟨t, hc⟩

end Outline

end Confinement
