import Confinement.Constraint
import Confinement.Proofs.Recoveries

/-!
# Constraints that keep pointers

A constraint for a region that is built allows the points of the region, and where there is no
area the origin alone (`Constraint.Allows`). With a step of less than one it recovers every pointer
to a position that it allows, and it leaves a pointer alone if and only if it allows its position
(`Constraint.Sound.exists_recover`).
-/

namespace Confinement

/-- Points over fractions are the same if and only if they are equal. -/
theorem Point.same_iff (p q : Point Rat) : p.same q = true ↔ p = q := by
  obtain ⟨px, py⟩ := p
  obtain ⟨qx, qy⟩ := q
  simp [same]

namespace Constraint

/-- A constraint is created with what it is given and the outline of its region, unless the margin
or the step is negative. -/
theorem create?_eq_ok_iff {κ α : Type} [Coordinate κ] [Scalar α] {origin : Point α}
    {margin step : α} {region : Region κ} {c : Constraint κ α} :
    create? region origin margin step = .ok c ↔
      (isNegative margin = false ∧ isNegative step = false) ∧
        ∃ outline, Outline.ofRegion? region = .ok outline ∧
          c = ⟨region, outline, origin, margin, step⟩ := by
  unfold create?
  cases isNegative margin with
  | true => simp
  | false =>
    cases isNegative step with
    | true => simp
    | false => cases Outline.ofRegion? region <;> simp [eq_comm]

/-- The position a motion may end at is the one that is confined to the outline. -/
theorem confine_eq_ok {c : Constraint Int Rat} {before asked : Point Rat}
    {confined : Confined Rat} (h : (c.outline.lift : Outline Rat).confine c.origin before asked
      c.margin c.step = .ok confined) : c.confine before asked = .ok confined.position := by
  unfold confine trace
  rw [h]
  rfl

/-- Whether a constraint is for a region that is built, with the outline of that region and a step
of less than one. -/
structure Sound (c : Constraint Int Rat) : Prop where
  built : c.region.Built
  outline_eq : Outline.ofRegion? c.region = .ok c.outline
  step_lt : c.step < 1

/-- Whether a pointer may be at a position. -/
def Allows (c : Constraint Int Rat) (p : Point Rat) : Prop :=
  if c.region.isEmpty then p = c.origin else c.region.contains (p.relativeTo c.origin) = .ok true

variable {c : Constraint Int Rat}

theorem allows_of_isEmpty (h : c.region.isEmpty = true) (p : Point Rat) :
    c.Allows p ↔ p = c.origin := by
  rw [Allows, if_pos h]

theorem allows_of_not_isEmpty (h : c.region.isEmpty = false) (p : Point Rat) :
    c.Allows p ↔ c.region.contains (p.relativeTo c.origin) = .ok true := by
  rw [Allows, if_neg (Bool.eq_false_iff.mp h)]

/-- A constraint that holds the outline of its region recovers a pointer as the region does. -/
theorem recover_eq_of_outline (h : Outline.ofRegion? c.region = .ok c.outline) (p : Point Rat) :
    c.recover p = c.region.recover c.origin p c.step := by
  rw [recover, Region.recover, h]
  rfl

/-- The position a pointer is to be at is the one that it is recovered to. -/
theorem ensure_eq_ok {p : Point Rat} {r : Recovery Rat} (h : c.recover p = .ok r) :
    c.ensure p = .ok r.position := by
  unfold ensure
  rw [h]
  rfl

namespace Sound

theorem of_create? {region : Region Int} (h : region.Built) {origin : Point Rat} {margin step : Rat}
    (hstep : step < 1) (hc : create? region origin margin step = .ok c) : c.Sound := by
  obtain ⟨-, outline, houtline, rfl⟩ := create?_eq_ok_iff.mp hc
  exact ⟨h, houtline, hstep⟩

theorem recover_eq (h : c.Sound) (p : Point Rat) :
    c.recover p = c.region.recover c.origin p c.step :=
  recover_eq_of_outline h.outline_eq p

/-- Every pointer is recovered to a position that is allowed, and left alone if its own one is. -/
theorem exists_recover (h : c.Sound) (p : Point Rat) : ∃ r, c.recover p = .ok r ∧
    (∀ origin, r = .noArea origin → origin = c.origin) ∧ c.Allows r.position ∧
    (r.position = p ↔ c.Allows p) := by
  cases hempty : c.region.isEmpty with
  | true =>
    refine ⟨.noArea c.origin, if_pos hempty, fun origin heq => (Recovery.noArea.inj heq).symm,
      (allows_of_isEmpty hempty _).mpr rfl, ?_⟩
    rw [allows_of_isEmpty hempty]
    exact eq_comm
  | false =>
    simp only [allows_of_not_isEmpty hempty, h.recover_eq]
    rcases h.built.recover_cases hempty c.origin p h.step_lt with
      ⟨hp, hrecover⟩ | ⟨hout, q, hrecover, hq⟩
    · exact ⟨_, hrecover, by simp, hp, iff_of_true rfl hp⟩
    · have hp : ¬c.region.contains (p.relativeTo c.origin) = .ok true := fun hp =>
        nomatch hp.symm.trans hout
      refine ⟨_, hrecover, by simp, hq, iff_of_false (fun heq => hp ?_) hp⟩
      rwa [← heq]

/-- A pointer is to be where it is if and only if it may be there. -/
theorem ensure_eq_iff (h : c.Sound) (p : Point Rat) : c.ensure p = .ok p ↔ c.Allows p := by
  obtain ⟨r, hr, -, -, hiff⟩ := h.exists_recover p
  rw [ensure_eq_ok hr, ← hiff]
  exact ⟨Except.ok.inj, congrArg Except.ok⟩

/-- A pointer that may be where it is is not corrected, and any other one is to where it is
recovered. -/
theorem correction?_eq (h : c.Sound) {p : Point Rat} {r : Recovery Rat} (hr : c.recover p = .ok r) :
    (c.Allows p → c.correction? p = .ok none) ∧
      (¬c.Allows p → c.correction? p = .ok (some r.position)) := by
  obtain ⟨r', hr', -, -, hiff⟩ := h.exists_recover p
  cases hr.symm.trans hr'
  have hcorrection : c.correction? p =
      .ok (if r.position.same p then none else some r.position) := by
    unfold correction? ensure
    rw [hr]
    rfl
  rw [hcorrection, ← hiff, ← Point.same_iff]
  exact ⟨fun hsame => by rw [if_pos hsame], fun hsame => by rw [if_neg hsame]⟩

/-- A pointer is corrected if and only if its position is not allowed, and then to one that is. -/
theorem correction?_cases (h : c.Sound) (p : Point Rat) :
    (c.Allows p ∧ c.correction? p = .ok none) ∨
      ¬c.Allows p ∧ ∃ q, c.correction? p = .ok (some q) ∧ c.Allows q := by
  obtain ⟨r, hr, -, hallows, -⟩ := h.exists_recover p
  obtain ⟨hnone, hsome⟩ := h.correction?_eq hr
  by_cases hp : c.Allows p
  · exact Or.inl ⟨hp, hnone hp⟩
  · exact Or.inr ⟨hp, r.position, hsome hp, hallows⟩

/-- A pointer outside a region is corrected to the point next to the border that is nearest. -/
theorem exists_inner (h : c.Sound) (hne : c.region.isEmpty = false) {p : Point Rat}
    (hp : ¬c.Allows p) : ∃ outline, Outline.Exact outline c.region ∧ ∃ b ∈ outline, ∃ m,
      Outline.IsFirst (fun b => some <$> b.squaredDistance (p.relativeTo c.origin)) outline.lift
        (b.map Lift.lift) m ∧
      ∃ q, c.correction? p = .ok (some q) ∧ q.relativeTo c.origin =
        (b.map (Lift.lift : Int → Rat)).inner (p.relativeTo c.origin) (recoveryStep c.step) := by
  have hout : c.region.contains (p.relativeTo c.origin) = .ok false := by
    rw [allows_of_not_isEmpty hne, h.built.contains_iff] at hp
    rw [h.built.contains_eq_ok, decide_eq_false hp]
  obtain ⟨outline, hexact, b, hb, m, hfirst, q, hq, hinner⟩ :=
    h.built.exists_moved hne hout c.step
  rw [← h.recover_eq] at hq
  exact ⟨outline, hexact, b, hb, m, hfirst, q, (h.correction?_eq hq).2 hp, hinner⟩

end Sound

end Constraint

/-- A constraint to a region that is built holds its exact outline. -/
theorem Region.Built.exists_create {r : Region Int} (h : r.Built) (origin : Point Rat)
    {margin step : Rat} (hmargin : 0 ≤ margin) (hstep : 0 ≤ step) :
    ∃ outline, Outline.Exact outline r ∧
      Constraint.create? r origin margin step = .ok ⟨r, outline, origin, margin, step⟩ := by
  obtain ⟨outline, houtline, hexact⟩ := Outline.exists_ofRegion? h.banded
  refine ⟨outline, hexact, Constraint.create?_eq_ok_iff.mpr ⟨⟨?_, ?_⟩, outline, houtline, rfl⟩⟩
  · simpa [Constraint.isNegative]
  · simpa [Constraint.isNegative]

end Confinement
