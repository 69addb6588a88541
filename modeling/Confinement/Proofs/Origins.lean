import Confinement.Proofs.Recoveries
import Confinement.Proofs.Shifts

/-!
# Shifted regions and their origins

A region that is moved by whole pixels confines and recovers a pointer as the region itself does
from an origin that is moved instead (`Region.Built.confine_recover_shift`). What is searched is a
motion as seen from the origin, so in the moved region it is the same motion, moved
(`Point.relativeTo_shift`). Where two segments meet, and how far that is, depends on differences of
coordinates only; so both searches find the same border, and pin the motion in the same way
(`Outline.Clamped.shift`). Only where the region is empty does the pointer go to the origin itself.
-/

namespace Confinement

variable (dx dy : Rat)

/-! ## Shifted points and segments -/

theorem Point.relativeTo_shift (p origin : Point Rat) :
    (p.relativeTo (origin.shift dx dy)).shift dx dy = p.relativeTo origin := by
  simp only [relativeTo, shift, ← sub_sub, sub_add_cancel]

theorem Point.squaredDistance_shift (p q : Point Rat) :
    (p.shift dx dy).squaredDistance (q.shift dx dy) = p.squaredDistance q := by
  simp only [squaredDistance_rat, shift, add_sub_add_right_eq_sub]

theorem Coordinate.clamp_add (a low high d : Rat) :
    clamp (a + d) (low + d) (high + d) = clamp a low high + d := by
  rw [clamp_rat, clamp_rat, ← min_add_add_right, ← max_add_add_right]

namespace Segment

theorem area_shift (a b : Segment Rat) : (a.shift dx dy).area (b.shift dx dy) = a.area b := by
  simp only [area, shift, Point.shift, add_sub_add_right_eq_sub]

theorem along_shift (s : Segment Rat) (t : Rat) :
    (s.shift dx dy).along t = (s.along t).shift dx dy := by
  simp only [along, shift, Point.shift, add_sub_add_right_eq_sub, add_right_comm]

/-- Moved segments meet in the moved point. -/
theorem intersection_shift (a b : Segment Rat) :
    (a.shift dx dy).intersection (b.shift dx dy) =
      (a.intersection b).map (Option.map fun z => z.shift dx dy) := by
  have harea' := area_shift dx dy a b
  by_cases harea : a.area b = 0
  · rw [intersection_of_area_eq_zero harea, intersection_of_area_eq_zero (harea'.trans harea)]
    rfl
  · obtain ⟨t, u, htu⟩ := exists_along_eq harea
    have htu' : (a.shift dx dy).along t = (b.shift dx dy).along u := by
      rw [along_shift, along_shift, htu]
    rw [intersection_of_along_eq harea htu, intersection_of_along_eq (harea' ▸ harea) htu',
      along_shift]
    split <;> rfl

theorem directions_shift (motion : Segment Rat) :
    (motion.shift dx dy).directions = motion.directions := by
  simp only [directions, shift, Point.shift, add_lt_add_iff_right]

end Segment

/-! ## Shifted searches -/

theorem Border.blocksAny_shift (b : Border Rat) (free : Directions) :
    (b.shift dx dy).blocksAny free = b.blocksAny free := by
  unfold blocksAny axis
  rw [isHorizontal_shift]
  rfl

theorem Border.pin_shift (b : Border Rat) (p : Point Rat) (free : Directions) (margin : Rat) :
    (b.shift dx dy).pin (p.shift dx dy) free margin = (b.pin p free margin).shift dx dy := by
  unfold pin
  rw [isHorizontal_shift]
  simp only [shift, Segment.shift, Point.shift, Coordinate.clamp_add, add_sub_right_comm]
  split <;> rfl

theorem Border.inner_shift (b : Border Rat) (p : Point Rat) (step : Rat) :
    (b.shift dx dy).inner (p.shift dx dy) step = (b.inner p step).shift dx dy := by
  unfold inner
  rw [isHorizontal_shift]
  simp only [shift, Segment.shift, Point.shift, add_sub_right_comm, add_right_comm _ _ step,
    Coordinate.clamp_add]
  split <;> split <;> rfl

theorem Border.squaredDistance_shift (b : Border Rat) (p : Point Rat) :
    (b.shift dx dy).squaredDistance (p.shift dx dy) = b.squaredDistance p := by
  rw [squaredDistance_rat, squaredDistance_rat, pin_shift, Point.squaredDistance_shift]

namespace Outline

variable {dx dy}

section Least

variable {measure? measure'? : Border Rat → Except ArithmeticError (Option Rat)}

/-- A search that measures moved borders as another one measures them before goes the same way. -/
theorem leastFrom_shift (h : ∀ b, measure'? (b.shift dx dy) = measure? b) (outline : Outline Rat)
    (best : Option (Border Rat × Rat)) :
    leastFrom measure'? (best.map fun found => (found.1.shift dx dy, found.2))
        (outline.shift dx dy) =
      (leastFrom measure? best outline).map
        (Option.map fun found => (found.1.shift dx dy, found.2)) := by
  induction outline generalizing best with
  | nil => rfl
  | cons b rest ih =>
    have himproves (measure : Rat) :
        improves (best.map fun found => (found.1.shift dx dy, found.2)) measure =
          improves best measure := by
      cases best <;> rfl
    have hcons : Outline.shift (b :: rest) dx dy = b.shift dx dy :: Outline.shift rest dx dy := rfl
    rw [hcons, leastFrom, leastFrom, h]
    cases measure? b with
    | error e => rfl
    | ok found =>
      cases found with
      | none => exact ih best
      | some measure =>
        simp only [himproves]
        split
        · exact ih (some (b, measure))
        · exact ih best

theorem least?_shift (h : ∀ b, measure'? (b.shift dx dy) = measure? b) (outline : Outline Rat) :
    least? measure'? (outline.shift dx dy) =
      (least? measure? outline).map (Option.map fun b => b.shift dx dy) := by
  have hfrom := leastFrom_shift h outline none
  rw [Option.map_none] at hfrom
  unfold least?
  rw [hfrom]
  rcases leastFrom measure? none outline with e | found
  · rfl
  · cases found <;> rfl

end Least

variable (outline : Outline Rat)

theorem contact?_shift (motion : Segment Rat) (free : Directions) (b : Border Rat) :
    contact? (motion.shift dx dy) free (b.shift dx dy) = contact? motion free b := by
  have hmeet : (b.shift dx dy).line.intersection (motion.shift dx dy) = _ :=
    Segment.intersection_shift dx dy b.line motion
  unfold contact?
  rw [Border.blocksAny_shift, hmeet]
  split
  · rcases b.line.intersection motion with e | found
    · rfl
    · cases found with
      | none => rfl
      | some z =>
        show (do return some (← (z.shift dx dy).squaredDistance (motion.start.shift dx dy))) = _
        rw [Point.squaredDistance_shift]
        rfl
  · rfl

/-- A moved motion hits the moved border first. -/
theorem firstHit?_shift (motion : Segment Rat) (free : Directions) :
    (outline.shift dx dy).firstHit? (motion.shift dx dy) free =
      (outline.firstHit? motion free).map (Option.map fun b => b.shift dx dy) :=
  least?_shift (contact?_shift motion free) outline

/-- The border nearest to a moved point is the moved one. -/
theorem nearest?_shift (p : Point Rat) :
    (outline.shift dx dy).nearest? (p.shift dx dy) =
      (outline.nearest? p).map (Option.map fun b => b.shift dx dy) :=
  least?_shift (fun b => by rw [Border.squaredDistance_shift]) outline

/-! ## Shifted motions -/

variable {outline} {margin : Rat} {motion last : Segment Rat} {free : Directions}
  {borders : List (Border Rat)}

/-- A motion is stopped in one way only. -/
theorem Clamped.clamp_eq (h : Clamped outline margin motion free last borders) :
    outline.clamp margin motion free = .ok (last, borders) := by
  induction h with
  | unhindered hfree =>
    unfold clamp
    split
    · rfl
    · rename_i hnonempty
      have hnone := hfree.resolve_left hnonempty
      split
      · rename_i e he
        cases hnone.symm.trans he
      · rfl
      · rename_i b hit
        cases hnone.symm.trans hit
  | pinned hit _ ih =>
    have hblocks := blocksAny_of_firstHit? hit
    unfold clamp
    rw [if_neg fun hempty => Border.not_blocksAny_of_isEmpty hempty hblocks]
    split
    · rename_i e he
      cases hit.symm.trans he
    · rename_i hnone
      cases hit.symm.trans hnone
    · rename_i b hit'
      cases hit.symm.trans hit'
      rw [Border.stop_rat]
      simp only [ih]

/-- A moved motion is stopped at the moved borders. -/
theorem Clamped.shift (h : Clamped outline margin motion free last borders) (dx dy : Rat) :
    Clamped (outline.shift dx dy) margin (motion.shift dx dy) free (last.shift dx dy)
      (borders.map fun b => b.shift dx dy) := by
  induction h with
  | unhindered hfree =>
    refine .unhindered (hfree.imp_right fun hnone => ?_)
    rw [firstHit?_shift, hnone]
    rfl
  | @pinned motion last free b borders hit _ ih =>
    have hit' : (outline.shift dx dy).firstHit? (motion.shift dx dy) free =
        .ok (some (b.shift dx dy)) := by
      rw [firstHit?_shift, hit]
      rfl
    have haxis : (b.shift dx dy).axis = b.axis := by
      unfold Border.axis
      rw [Border.isHorizontal_shift]
    refine .pinned hit' ?_
    have hpin := Border.pin_shift dx dy b motion.stop free margin
    rw [haxis]
    show Clamped _ margin ⟨_, (b.shift dx dy).pin (motion.stop.shift dx dy) free margin⟩ _ _ _
    rw [hpin]
    exact ih

variable (step : Rat) (origin before asked : Point Rat)

theorem requested_shift :
    (requested step (origin.shift dx dy) before asked).shift dx dy =
      requested step origin before asked :=
  congrArg₂ Segment.mk (Point.relativeTo_shift dx dy _ _) (Point.relativeTo_shift dx dy _ _)

theorem settled_add (before asked origin last d : Rat) :
    settled step before asked origin (last + d) =
      settled step before asked (origin + d) last := by
  have hkept : (last + d == nudged step before asked - origin) =
      (last == nudged step before asked - (origin + d)) := by
    rw [Bool.eq_iff_iff, beq_iff_eq, beq_iff_eq, ← sub_sub]
    exact eq_sub_iff_add_eq.symm
  unfold settled
  rw [hkept, add_assoc, add_comm d]

/-- A moved outline confines a motion as the outline itself does from an origin that is moved
instead. -/
theorem exists_confine_shift (hne : outline ≠ []) (margin : Rat) : ∃ confined : Confined Rat,
    outline.confine (origin.shift dx dy) before asked margin step = .ok confined ∧
      (outline.shift dx dy).confine origin before asked margin step =
        .ok ⟨confined.position, confined.stoppedBy.map fun b => b.shift dx dy⟩ := by
  obtain ⟨last, borders, hclamp, hclamped⟩ := outline.exists_clamp margin
    (requested step (origin.shift dx dy) before asked)
    (requested step (origin.shift dx dy) before asked).directions
  have hshifted := (hclamped.shift dx dy).clamp_eq
  rw [← Segment.directions_shift dx dy, requested_shift] at hshifted
  refine ⟨_, confine_of_clamp hne hclamp, ?_⟩
  have hne' : outline.shift dx dy ≠ [] := mt List.map_eq_nil_iff.mp hne
  rw [confine_of_clamp hne' hshifted]
  simp only [Segment.shift, Point.shift, settled_add]
  cases borders <;> rfl

end Outline

/-! ## Moved regions -/

theorem Outline.lift_shift (outline : Outline Int) (dx dy : Int) :
    ((outline.shift dx dy).lift : Outline Rat) =
      (outline.lift : Outline Rat).shift (dx : Rat) dy := by
  have hborder (b : Border Int) : (b.shift dx dy).map (Lift.lift : Int → Rat) =
      (b.map Lift.lift).shift (dx : Rat) dy := by
    simp [Border.map, Border.shift, Segment.map, Segment.shift, Point.map, Point.shift, Lift.lift]
  unfold lift shift
  rw [List.map_map, List.map_map]
  exact List.map_congr_left fun b _ => hborder b

namespace Region

variable {r : Region Int} {outline : Outline Int}

theorem isEmpty_shift (r : Region Int) (dx dy : Int) : (r.shift dx dy).isEmpty = r.isEmpty :=
  List.isEmpty_map

/-- A moved region recovers a pointer as the region itself does from an origin that is moved
instead. -/
theorem Built.exists_recover_shift (h : r.Built) (hne : r.isEmpty = false) (dx dy : Int)
    (origin p : Point Rat) (step : Rat) : ∃ recovery,
      r.recover (origin.shift (dx : Rat) dy) p step = .ok recovery ∧
        (r.shift dx dy).recover origin p step = .ok recovery := by
  obtain ⟨rows, bands, hbanded⟩ := h.banded
  obtain ⟨outline, houtline, hexact⟩ := Outline.exists_ofRegion? h.banded
  have houtline' := Outline.ofRegion?_shift dx dy hbanded houtline
  have hne' : (r.shift dx dy).isEmpty = false := (isEmpty_shift r dx dy).trans hne
  have hrelative := Point.relativeTo_shift (dx : Rat) dy p origin
  have hcontains : (r.shift dx dy).contains (p.relativeTo origin) =
      r.contains (p.relativeTo (origin.shift (dx : Rat) dy)) := by
    rw [← hrelative, contains_shift]
  obtain ⟨inside, hp⟩ : ∃ inside, r.contains (p.relativeTo (origin.shift (dx : Rat) dy)) =
      .ok inside := ⟨_, h.contains_eq_ok _⟩
  have hp' := hcontains.trans hp
  cases inside with
  | true => exact ⟨_, recover_of_contains hne hp step, recover_of_contains hne' hp' step⟩
  | false =>
    obtain ⟨q, hq⟩ := exists_closure hne
    obtain ⟨b, m, hb, -⟩ := Outline.exists_nearest? (hexact.lift_ne_nil hq)
      (p.relativeTo (origin.shift (dx : Rat) dy))
    have hb' : ((outline.shift dx dy).lift : Outline Rat).nearest? (p.relativeTo origin) =
        .ok (some (b.shift (dx : Rat) dy)) := by
      rw [Outline.lift_shift, ← hrelative, Outline.nearest?_shift, hb]
      rfl
    refine ⟨_, recover_of_not_contains hne hp houtline (Outline.moveInside_rat hb step), ?_⟩
    rw [recover_of_not_contains hne' hp' houtline' (Outline.moveInside_rat hb' step), ← hrelative,
      Border.inner_shift]
    simp only [Point.shift, add_assoc, add_comm]

/-- A moved region confines and recovers a pointer as the region itself does from an origin that is
moved instead. The borders that stop a motion are the same ones, moved. -/
theorem Built.confine_recover_shift (h : r.Built) (hne : r.isEmpty = false) (dx dy : Int)
    (origin : Point Rat) :
    ∃ outline, Outline.ofRegion? r = .ok outline ∧
      Outline.ofRegion? (r.shift dx dy) = .ok (outline.shift dx dy) ∧
      (∀ (before asked : Point Rat) (margin step : Rat), ∃ confined : Confined Rat,
        (outline.lift : Outline Rat).confine (origin.shift (dx : Rat) dy) before asked margin step =
            .ok confined ∧
          ((outline.shift dx dy).lift : Outline Rat).confine origin before asked margin step =
            .ok ⟨confined.position,
              confined.stoppedBy.map fun b => b.shift (dx : Rat) dy⟩) ∧
      ∀ (p : Point Rat) (step : Rat), ∃ recovery,
        r.recover (origin.shift (dx : Rat) dy) p step = .ok recovery ∧
          (r.shift dx dy).recover origin p step = .ok recovery := by
  obtain ⟨rows, bands, hbanded⟩ := h.banded
  obtain ⟨outline, houtline, hexact⟩ := Outline.exists_ofRegion? h.banded
  obtain ⟨q, hq⟩ := exists_closure hne
  refine ⟨outline, houtline, Outline.ofRegion?_shift dx dy hbanded houtline,
    fun before asked margin step => ?_, h.exists_recover_shift hne dx dy origin⟩
  rw [Outline.lift_shift]
  exact Outline.exists_confine_shift step origin before asked (hexact.lift_ne_nil hq) margin

/-- A frame, moved to the right and up. -/
theorem confine_recover_shift_frame : frame.Built ∧ frame.isEmpty = false ∧
    ∃ outline, Outline.ofRegion? frame = .ok outline ∧
      Outline.ofRegion? (frame.shift 5 (-3)) = .ok (outline.shift 5 (-3)) ∧
      (∀ (before asked : Point Rat) (margin step : Rat), ∃ confined : Confined Rat,
        (outline.lift : Outline Rat).confine (Point.shift ⟨2, 4⟩ ((5 : Int) : Rat) (-3 : Int))
            before asked margin step = .ok confined ∧
          ((outline.shift 5 (-3)).lift : Outline Rat).confine ⟨2, 4⟩ before asked margin step =
            .ok ⟨confined.position,
              confined.stoppedBy.map fun b => b.shift ((5 : Int) : Rat) (-3 : Int)⟩) ∧
      ∀ (p : Point Rat) (step : Rat), ∃ recovery,
        frame.recover (Point.shift ⟨2, 4⟩ ((5 : Int) : Rat) (-3 : Int)) p step = .ok recovery ∧
          (frame.shift 5 (-3)).recover ⟨2, 4⟩ p step = .ok recovery :=
  ⟨built_frame, rfl, built_frame.confine_recover_shift rfl 5 (-3) ⟨2, 4⟩⟩

end Region

end Confinement
