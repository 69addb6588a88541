import Confinement.Proofs.Sessions

/-!
# Rechecks that settle

A recheck leaves a pointer alone if and only if its constraint allows the position of the pointer
(`Session.isSettled_iff`), and otherwise warps it to a position that is allowed. Neither a recheck
nor a question replaces the region. So after one recheck the pointer stays where it is, up to the
next step that replaces the region or moves the pointer (`Session.settles_run`).

All this is about constraints for regions that are built, with a step of less than one. A session
that is started with one never has another, as long as its regions are replaced by such regions
(`Session.sound_run`).
-/

namespace Confinement

/-- Whether a step neither replaces the region nor puts or moves the pointer. -/
def SessionStep.IsQuiet {κ α : Type} [Coordinate κ] : SessionStep κ α → Prop
  | .confine _ _ => True
  | .ensure _ => True
  | .recheck => True
  | .update _ => False
  | .place _ => False
  | .move _ => False

/-- Whether a step that replaces the region does so by one that is built. -/
def SessionStep.BringsBuilt (action : SessionStep Int Rat) : Prop :=
  ∀ region, action = .update region → region.Built

namespace Session

variable {s : Session Int Rat}

/-- Whether the pointer is outside the region or, where there is no area, away from the origin. -/
def IsAstray (s : Session Int Rat) : Prop :=
  (s.constraint.region.isEmpty = false ∧
    s.constraint.region.contains (s.pointer.relativeTo s.constraint.origin) = .ok false) ∨
  s.constraint.region.isEmpty = true ∧ s.pointer ≠ s.constraint.origin

theorem isAstray_iff (h : s.constraint.Sound) :
    s.IsAstray ↔ ¬s.constraint.Allows s.pointer := by
  unfold IsAstray
  cases hempty : s.constraint.region.isEmpty with
  | true => simp [Constraint.allows_of_isEmpty hempty]
  | false =>
    rw [Constraint.allows_of_not_isEmpty hempty, h.built.contains_eq_ok]
    simp

/-! ## Single rechecks -/

/-- Where a pointer is that is put to where it is recovered. -/
theorem pointer_place {s : Session Int Rat} {r : Recovery Rat} {warps : Nat}
    (hr : ∀ origin, r = .noArea origin → origin = s.constraint.origin) :
    pointer { s with place := r.place, warps } = r.position := by
  cases r with
  | noArea origin => exact (hr origin rfl).symm
  | inside p => rfl
  | moved p => rfl

/-- A pointer is left alone if and only if it may be where it is. -/
theorem isSettled_iff (h : s.constraint.Sound) {r : Recovery Rat}
    (hr : s.constraint.recover s.pointer = .ok r) :
    s.isSettled r = true ↔ s.constraint.Allows s.pointer := by
  obtain ⟨r', hr', horigin, hallows, hiff⟩ := h.exists_recover s.pointer
  cases hr.symm.trans hr'
  rw [← hiff, ← Point.same_iff]
  unfold isSettled
  split
  · -- The pointer was put to the origin, and that is where it is recovered.
    rename_i hplace
    have hpointer : s.pointer = s.constraint.origin := by
      unfold pointer
      rw [hplace]
    simp [Point.same_iff, Recovery.position, hpointer, horigin _ rfl]
  · rfl

/-- A recheck warps the pointer to where it is recovered, unless it is settled. -/
theorem recheck_eq {r : Recovery Rat} (hr : s.constraint.recover s.pointer = .ok r) :
    s.step .recheck = .ok (.warped !s.isSettled r, s.next .recheck) ∧
      s.next .recheck =
        if s.isSettled r then s else { s with place := r.place, warps := s.warps + 1 } := by
  have hperform : (perform .recheck).run.run s = if s.isSettled r then (.ok (.warped false), s) else
      (.ok (.warped true), { s with place := r.place, warps := s.warps + 1 }) := by
    refine (run_ofExcept hr).trans ?_
    cases s.isSettled r <;> rfl
  unfold step next
  rw [hperform]
  cases s.isSettled r <;> exact ⟨rfl, rfl⟩

/-- A recheck leaves a pointer alone that may be where it is. -/
theorem recheck_of_allows (h : s.constraint.Sound) (hallows : s.constraint.Allows s.pointer) :
    s.step .recheck = .ok (.warped false, s) ∧ s.next .recheck = s := by
  obtain ⟨r, hr, -⟩ := h.exists_recover s.pointer
  obtain ⟨hstep, hnext⟩ := recheck_eq hr
  rw [(isSettled_iff h hr).mpr hallows] at hstep hnext
  rw [hnext] at hstep
  exact ⟨hstep, hnext⟩

/-- A recheck warps a pointer that may not be where it is to a position where it may be. -/
theorem recheck_of_not_allows (h : s.constraint.Sound)
    (hallows : ¬s.constraint.Allows s.pointer) :
    s.step .recheck = .ok (.warped true, s.next .recheck) ∧
      (s.next .recheck).constraint = s.constraint ∧ (s.next .recheck).warps = s.warps + 1 ∧
      s.constraint.Allows (s.next .recheck).pointer := by
  obtain ⟨r, hr, horigin, hposition, -⟩ := h.exists_recover s.pointer
  obtain ⟨hstep, hnext⟩ := recheck_eq hr
  rw [Bool.eq_false_iff.mpr (mt (isSettled_iff h hr).mp hallows)] at hstep hnext
  refine ⟨hstep, ?_⟩
  rw [hnext]
  refine ⟨rfl, rfl, ?_⟩
  rw [if_neg Bool.false_ne_true, pointer_place horigin]
  exact hposition

/-- A pointer is not warped if and only if it may be where it is. -/
theorem step_recheck_iff (h : s.constraint.Sound) :
    s.step .recheck = .ok (.warped false, s) ↔ s.constraint.Allows s.pointer := by
  refine ⟨fun hstep => ?_, fun hallows => (recheck_of_allows h hallows).1⟩
  by_contra hallows
  cases hstep.symm.trans (recheck_of_not_allows h hallows).1

/-! ## Runs -/

/-- The constraint of a session stays one for a region that is built. -/
theorem sound_next (h : s.constraint.Sound) {action : SessionStep Int Rat}
    (hbuilt : action.BringsBuilt) : (s.next action).constraint.Sound := by
  rcases s.constraint_next action with hsame | ⟨region, outline, hupdate, houtline, hnew⟩
  · rwa [hsame]
  · rw [hnew]
    exact ⟨hbuilt region hupdate, houtline, h.step_lt⟩

theorem sound_run (h : s.constraint.Sound) {actions : List (SessionStep Int Rat)}
    (hbuilt : ∀ action ∈ actions, action.BringsBuilt) : (s.run actions).constraint.Sound :=
  run_induction (P := fun s => s.constraint.Sound) h fun action haction _ hs =>
    sound_next hs (hbuilt action haction)

/-- While the pointer may be where it is, quiet steps leave the session as it is. -/
theorem run_of_allows (h : s.constraint.Sound) (hallows : s.constraint.Allows s.pointer)
    {actions : List (SessionStep Int Rat)} (hquiet : ∀ action ∈ actions, action.IsQuiet) :
    s.run actions = s := by
  refine run_induction (P := fun s' => s' = s) rfl fun action haction s' hs' => ?_
  have haction := hquiet action haction
  subst hs'
  cases action with
  | confine before asked => exact next_confine s' before asked
  | ensure position => exact next_ensure s' position
  | recheck => exact (recheck_of_allows h hallows).2
  | update region => exact haction.elim
  | place position => exact haction.elim
  | move vector => exact haction.elim

/-- What a recheck of a session does : it answers whether the pointer was astray, which it then
warps once. After that, up to the next step that is not quiet, nothing changes, and every recheck
answers that it did not warp. -/
structure Settles (s : Session Int Rat) : Prop where
  answers : ∃ warped, s.step .recheck = .ok (.warped warped, s.next .recheck) ∧
    (warped = true ↔ s.IsAstray) ∧
    (s.next .recheck).warps = s.warps + if warped then 1 else 0
  stays : ∀ actions, (∀ action ∈ actions, action.IsQuiet) →
    (s.next .recheck).run actions = s.next .recheck ∧
      ((s.next .recheck).run actions).step .recheck =
        .ok (.warped false, (s.next .recheck).run actions)

/-- After a recheck, the pointer may be where it is. -/
theorem allows_next_recheck (h : s.constraint.Sound) :
    (s.next .recheck).constraint.Allows (s.next .recheck).pointer := by
  by_cases hallows : s.constraint.Allows s.pointer
  · rwa [(recheck_of_allows h hallows).2]
  · obtain ⟨-, hconstraint, -, hafter⟩ := recheck_of_not_allows h hallows
    rwa [hconstraint]

theorem settles (h : s.constraint.Sound) : s.Settles where
  answers := by
    rw [isAstray_iff h]
    by_cases hallows : s.constraint.Allows s.pointer
    · obtain ⟨hstep, hnext⟩ := recheck_of_allows h hallows
      rw [hnext]
      exact ⟨false, hstep, by simp [hallows], rfl⟩
    · obtain ⟨hstep, -, hwarps, -⟩ := recheck_of_not_allows h hallows
      exact ⟨true, hstep, by simp [hallows], hwarps⟩
  stays := fun actions hquiet => by
    have hsound : (s.next .recheck).constraint.Sound := sound_next h fun _ heq => nomatch heq
    have hallows := allows_next_recheck h
    rw [run_of_allows hsound hallows hquiet]
    exact ⟨rfl, (recheck_of_allows hsound hallows).1⟩

/-- After any steps, with regions that are built and a step of less than one, a recheck settles
the session. -/
theorem settles_run {region : Region Int} (hregion : region.Built) {origin : Point Rat}
    {margin step : Rat} (hstep : step < 1) {c : Constraint Int Rat}
    (hc : Constraint.create? region origin margin step = .ok c) (pointer : Point Rat)
    {actions : List (SessionStep Int Rat)} (hbuilt : ∀ action ∈ actions, action.BringsBuilt) :
    ((start c pointer).run actions).Settles :=
  settles (sound_run (.of_create? hregion hstep hc) hbuilt)

/-- A pointer that is put into the hole of a frame, after a time without any area. -/
theorem settles_run_frame : ∃ c : Constraint Int Rat,
    Constraint.create? Region.frame ⟨2, 4⟩ (1 / 2) (1 / 256) = .ok c ∧ (1 / 256 : Rat) < 1 ∧
      (∀ action ∈ ([.update ⟨[]⟩, .recheck, .update Region.frame, .place ⟨7 / 2, 11 / 2⟩] :
        List (SessionStep Int Rat)), action.BringsBuilt) ∧
      ((start c ⟨3, 5⟩).run
        [.update ⟨[]⟩, .recheck, .update Region.frame, .place ⟨7 / 2, 11 / 2⟩]).Settles := by
  have hframe := Region.built_frame
  have hempty : (⟨[]⟩ : Region Int).Built := Canonical.built (by decide)
  have hstep : (1 / 256 : Rat) < 1 := by norm_num
  have hbuilt : ∀ action ∈ ([.update ⟨[]⟩, .recheck, .update Region.frame,
      .place ⟨7 / 2, 11 / 2⟩] : List (SessionStep Int Rat)), action.BringsBuilt := by
    simp [SessionStep.BringsBuilt, hempty, hframe]
  obtain ⟨outline, -, hc⟩ := hframe.exists_create (⟨2, 4⟩ : Point Rat)
    (show (0 : Rat) ≤ 1 / 2 by norm_num) (show (0 : Rat) ≤ 1 / 256 by norm_num)
  exact ⟨_, hc, hstep, hbuilt, settles_run hframe hstep hc _ hbuilt⟩

end Session

end Confinement
