import Confinement.Proofs.Contacts

/-!
# Where segments cross

Two segments that are not parallel have one point in common or none, and `Segment.intersection`
answers this point or nothing, whichever of the two is asked (`Segment.intersection_exact`). Of
parallel segments it answers nothing, even where they overlap. It never divides by zero : both
divisors are the area between the two directions, up to its sign.
-/

namespace Confinement

namespace Segment

/-- Whether a point lies on a segment, the ends included. -/
def Passes (s : Segment Rat) (p : Point Rat) : Prop :=
  ∃ t, (0 ≤ t ∧ t ≤ 1) ∧ s.along t = p

/-- Whether a segment is a single point, or the direction of another one is a multiple of its own;
the other one may be a single point too. -/
def Parallel (a b : Segment Rat) : Prop :=
  a.start = a.stop ∨ ∃ k, b.stop.x - b.start.x = k * (a.stop.x - a.start.x) ∧
    b.stop.y - b.start.y = k * (a.stop.y - a.start.y)

variable {a b : Segment Rat}

/-- Parallel segments are those with no area between their directions. -/
theorem parallel_iff : a.Parallel b ↔ a.area b = 0 := by
  constructor
  · rintro (hpoint | ⟨k, hx, hy⟩)
    · rw [area, hpoint, sub_self, sub_self, zero_mul, zero_mul, sub_zero]
    · rw [area, hx, hy]
      ring
  · intro h
    rw [area, sub_eq_zero] at h
    by_cases hx : a.stop.x - a.start.x = 0
    · by_cases hy : a.stop.y - a.start.y = 0
      · refine Or.inl ?_
        obtain ⟨⟨sx, sy⟩, ⟨tx, ty⟩⟩ := a
        exact congrArg₂ Point.mk (sub_eq_zero.mp hx).symm (sub_eq_zero.mp hy).symm
      · refine Or.inr ⟨(b.stop.y - b.start.y) / (a.stop.y - a.start.y), ?_, ?_⟩
        · rw [hx, zero_mul, zero_eq_mul] at h
          rw [hx, mul_zero, h.resolve_left hy]
        · rw [div_mul_cancel₀ _ hy]
    · refine Or.inr ⟨(b.stop.x - b.start.x) / (a.stop.x - a.start.x), ?_, ?_⟩
      · rw [div_mul_cancel₀ _ hx]
      · rw [div_mul_eq_mul_div, eq_div_iff hx, mul_comm, h, mul_comm]

/-- Which of two segments is called the first does not matter to where they meet. -/
theorem MeetAt.symm {t u : Rat} (h : a.MeetAt b t u) : b.MeetAt a u t := by
  obtain ⟨harea, ht, hu, heq⟩ := h
  refine ⟨fun hzero => harea ?_, hu, ht, heq.symm⟩
  have hback : b.area a = -a.area b := by
    unfold area
    ring
  rwa [hback, neg_eq_zero] at hzero

/-- Segments that are not parallel meet in the points that lie on both. -/
theorem exists_meetAt_iff (h : a.area b ≠ 0) (p : Point Rat) :
    (∃ t u, a.MeetAt b t u ∧ p = a.along t) ↔ a.Passes p ∧ b.Passes p := by
  constructor
  · rintro ⟨t, u, ⟨-, ht, hu, heq⟩, rfl⟩
    exact ⟨⟨t, ht, rfl⟩, u, hu, heq.symm⟩
  · rintro ⟨⟨t, ht, rfl⟩, u, hu, heq⟩
    exact ⟨t, u, ⟨h, ht, hu, heq.symm⟩, rfl⟩

/-- Segments that are not parallel have at most one point in common. -/
theorem eq_of_passes (h : a.area b ≠ 0) {p q : Point Rat} (hp : a.Passes p ∧ b.Passes p)
    (hq : a.Passes q ∧ b.Passes q) : q = p := by
  obtain ⟨⟨t, -, rfl⟩, u, -, hu⟩ := hp
  obtain ⟨⟨s, -, rfl⟩, v, -, hv⟩ := hq
  have ht := ((along_eq_along_iff h t u).mp hu.symm).1
  have hs := ((along_eq_along_iff h s v).mp hv.symm).1
  rw [mul_right_cancel₀ h (hs.trans ht.symm)]

/-- The answer for two segments is that for the same two the other way round. -/
theorem intersection_comm (a b : Segment Rat) : a.intersection b = b.intersection a := by
  obtain ⟨found, hfound, hmeet⟩ := exists_intersection a b
  obtain ⟨found', hfound', hmeet'⟩ := exists_intersection b a
  have hsame : ∀ p, found = some p ↔ found' = some p := fun p => by
    rw [hmeet, hmeet']
    constructor
    · rintro ⟨t, u, h, rfl⟩
      exact ⟨u, t, h.symm, h.2.2.2⟩
    · rintro ⟨u, t, h, rfl⟩
      exact ⟨t, u, h.symm, h.2.2.2⟩
  rw [hfound, hfound', Option.ext hsame]

/-- Two segments always have an answer, and exchanged they have the same. It is nothing if they are
parallel. If not, it is the one point that lies on both, or nothing if there is no such point. -/
theorem intersection_exact (a b : Segment Rat) :
    ∃ found, a.intersection b = .ok found ∧ b.intersection a = .ok found ∧
      (a.Parallel b → found = none) ∧
      (¬a.Parallel b →
        (∀ p, found = some p ↔
          (a.Passes p ∧ b.Passes p) ∧ ∀ q, a.Passes q ∧ b.Passes q → q = p) ∧
        (found = none ↔ ¬∃ p, a.Passes p ∧ b.Passes p)) := by
  obtain ⟨found, hfound, hmeet⟩ := exists_intersection a b
  refine ⟨found, hfound, intersection_comm a b ▸ hfound, fun hparallel => ?_, fun hparallel => ?_⟩
  · rw [intersection_of_area_eq_zero (parallel_iff.mp hparallel)] at hfound
    exact (Except.ok.inj hfound).symm
  · have harea : a.area b ≠ 0 := fun h => hparallel (parallel_iff.mpr h)
    have hsome : ∀ p, found = some p ↔ a.Passes p ∧ b.Passes p := fun p =>
      (hmeet p).trans (exists_meetAt_iff harea p)
    refine ⟨fun p => ?_, ?_⟩
    · rw [hsome]
      exact ⟨fun hp => ⟨hp, fun q hq => eq_of_passes harea hp hq⟩, fun hp => hp.1⟩
    · rw [Option.eq_none_iff_forall_ne_some, not_exists]
      exact forall_congr' fun p => not_congr (hsome p)

/-- The diagonals of a square cross in its middle. -/
example : (⟨⟨0, 0⟩, ⟨2, 2⟩⟩ : Segment Rat).intersection ⟨⟨0, 2⟩, ⟨2, 0⟩⟩ = .ok (some ⟨1, 1⟩) := by
  decide +kernel

end Segment

end Confinement
