import Confinement.Proofs.Confining
import Confinement.Proofs.Uniqueness
import Mathlib.Tactic.NormNum

/-!
# Parts of confined motions

Without a step and a margin, a motion that one border at most stops ends in the part of the
region in which it starts : it stays in that part up to the border, and its end is pinned to the
same border (`Outline.Exact.joined_reaim`).

After that the motion is aimed at the pinned end, and only borders on the other axis are searched.
The new motion may leave the region through a border on the first axis unnoticed, and enter
another part from behind, where a second border stops it. So a motion that two borders stop ends
in the part where the second one is hit (`Outline.Clamped.part`), and that is the part in which it
starts as long as the new motion does not leave the region (`Region.Built.confined_part`). In an
alcove with a pillar it does leave it (`Region.alcove_entered`).
-/

namespace Confinement

/-! ## Motions aimed anew -/

/-- A set that loses both axes is empty. -/
theorem Directions.isEmpty_without_without {s : Directions} {a b : Axis}
    (h : ((s.without a).along b).isEmpty = false) : ((s.without a).without b).isEmpty = true := by
  cases a <;> cases b <;> first | rfl | cases h

namespace Border

/-- The motion from the same start to where a border pins its end, without a margin. -/
def reaim (b : Border Rat) (motion : Segment Rat) : Segment Rat :=
  ⟨motion.start, b.pin motion.stop Directions.empty 0⟩

end Border

namespace Outline

variable {outline : Outline Int} {r : Region Int} {motion : Segment Rat} {free : Directions}
  {b : Border Rat} {t : Rat}

/-- Where a border is hit and where it pins the end are in the same part. -/
theorem Exact.joined_reaim (h : Exact outline r) (hit : HitAt outline.lift motion free b t) :
    r.Joined (motion.along t) (b.reaim motion).stop := by
  obtain ⟨c, hc, rfl, -⟩ := hit.exists_mem
  obtain ⟨u, hmeet⟩ := hit.meets
  have hproper := h.proper c hc
  exact h.joined_of_holds hc (hproper.holds_of_meetAt hmeet) (hproper.holds_pin _ _)

/-- The first border of a motion pins its end to the part in which it starts. -/
theorem Exact.joined_first (h : Exact outline r) (hstart : r.Closure motion.start)
    (hit : HitAt outline.lift motion motion.directions b t) :
    r.Joined motion.start (b.reaim motion).stop := by
  obtain ⟨u, hmeet⟩ := hit.meets
  refine Region.Joined.trans (h.joined_up_to hmeet.on_way hstart fun c hc hblocks s v hmeet' => ?_)
    (h.joined_reaim hit)
  refine hit.first (c.map Lift.lift) (List.mem_map_of_mem hc) ?_ s v hmeet'
  rwa [Border.blocksAny_lift]

/-- How a motion that two borders stop gets to its end `q` : aimed anew at where the first one
pins it, it hits the second one after the share `t` of its way. -/
structure StoppedTwice (outline : Outline Int) (r : Region Int) (motion : Segment Rat)
    (first second : Border Rat) (t : Rat) (q : Point Rat) : Prop where
  hit : HitAt outline.lift (first.reaim motion) (motion.directions.without first.axis) second t
  joined_pinned : r.Joined motion.start (first.reaim motion).stop
  joined_stopped : r.Joined ((first.reaim motion).along t) q
  joined_of_inside : (∀ s, 0 ≤ s → s ≤ t → r.Closure ((first.reaim motion).along s)) →
    r.Joined motion.start q

/-- A motion that one border at most stops ends in the part in which it starts, one that two
borders stop in the part where the motion aimed anew hits the second one. -/
theorem Clamped.part {last : Segment Rat} {borders : List (Border Rat)}
    (hclamped : Clamped outline.lift 0 motion motion.directions last borders)
    (h : Exact outline r) (hstart : r.Closure motion.start) :
    (borders.length ≤ 1 ∧ r.Joined motion.start last.stop) ∨
      ∃ first second t, borders = [first, second] ∧
        StoppedTwice outline r motion first second t last.stop := by
  cases hclamped with
  | unhindered hfree => exact Or.inl ⟨Nat.zero_le 1, h.joined_of_unhindered hstart hfree⟩
  | @pinned _ _ _ first _ hit rest =>
    obtain ⟨s, hit⟩ := exists_hitAt hit
    have hfirst := h.joined_first hstart hit
    rw [Border.pin_zero first] at rest
    cases rest with
    | unhindered => exact Or.inl ⟨le_rfl, hfirst⟩
    | @pinned _ _ _ second _ hit' rest' =>
      obtain ⟨t, hit'⟩ := exists_hitAt hit'
      have hsecond := h.joined_reaim hit'
      have hempty : ((motion.directions.without first.axis).without second.axis).isEmpty = true :=
        Directions.isEmpty_without_without (Border.along_of_blocksAny hit'.blocks)
      rw [Border.pin_zero second] at rest'
      cases rest' with
      | unhindered =>
        refine Or.inr ⟨first, second, t, rfl, hit', hfirst, hsecond, fun hinside => ?_⟩
        obtain ⟨u, hmeet⟩ := hit'.meets
        exact (Region.joined_of_closure_along hmeet.on_way.1 hinside).trans hsecond
      | pinned hit'' =>
        obtain ⟨u, hit''⟩ := exists_hitAt hit''
        obtain ⟨c, -, rfl, hblocks⟩ := hit''.exists_mem
        exact absurd hblocks (Border.not_blocksAny_of_isEmpty hempty)

end Outline

namespace Region

/-- Without a step and a margin, a motion that one border at most stops ends in the part of the
region in which it starts. One that two borders stop ends in the part where the motion to the
end that the first one pins, itself in the part of the start, hits the second one; and if that
motion does not leave the region before, it ends in the part of the start as well. -/
theorem Built.confined_part {r : Region Int} (h : r.Built) {origin : Point Rat}
    {motion : Segment Rat} (hstart : r.Closure (motion.relativeTo origin).start) :
    ∃ outline confined, Outline.ofRegion? r = .ok outline ∧
      (outline.lift : Outline Rat).confine origin motion.start motion.stop 0 0 = .ok confined ∧
      ((confined.stoppedBy.length ≤ 1 ∧
          r.Joined (motion.relativeTo origin).start (confined.position.relativeTo origin)) ∨
        ∃ first second t, confined.stoppedBy = [first, second] ∧
          outline.StoppedTwice r (motion.relativeTo origin) first second t
            (confined.position.relativeTo origin)) := by
  obtain ⟨outline, houtline, hexact⟩ := Outline.exists_ofRegion? h.banded
  obtain ⟨last, borders, position, hconfine, hclamped, hwithin, -⟩ :=
    Outline.exists_confine (hexact.lift_ne_nil hstart) le_rfl origin motion.start motion.stop 0
  rw [Outline.requested_zero] at hclamped
  refine ⟨outline, ⟨position, borders⟩, houtline, hconfine, ?_⟩
  rw [hwithin.eq]
  exact hclamped.part hexact hstart

/-- A motion out of two touching boxes to the lower right. -/
theorem confined_part_stairs : ∃ r : Region Int,
    ofRectangles? [⟨0, 0, 2, 1⟩, ⟨1, 1, 2, 1⟩] = .ok r ∧
      r.Closure (Segment.relativeTo ⟨⟨3, 4⟩, ⟨9, 9⟩⟩ ⟨2, 4⟩).start ∧
      ∃ outline confined, Outline.ofRegion? r = .ok outline ∧
        (outline.lift : Outline Rat).confine ⟨2, 4⟩ ⟨3, 4⟩ ⟨9, 9⟩ 0 0 = .ok confined ∧
        ((confined.stoppedBy.length ≤ 1 ∧
            r.Joined (Segment.relativeTo ⟨⟨3, 4⟩, ⟨9, 9⟩⟩ ⟨2, 4⟩).start
              (confined.position.relativeTo ⟨2, 4⟩)) ∨
          ∃ first second t, confined.stoppedBy = [first, second] ∧
            outline.StoppedTwice r (Segment.relativeTo ⟨⟨3, 4⟩, ⟨9, 9⟩⟩ ⟨2, 4⟩) first second t
              (confined.position.relativeTo ⟨2, 4⟩)) := by
  obtain ⟨r, hr, hcovers⟩ := exists_stairs
  have hstart : r.Closure (Segment.relativeTo ⟨⟨3, 4⟩, ⟨9, 9⟩⟩ ⟨2, 4⟩).start :=
    (r.closure_iff _).mpr
      ⟨1, 0, hcovers, by norm_num [InPixel, InCell, Segment.relativeTo, Point.relativeTo]⟩
  exact ⟨r, hr, hstart, (Built.ofRectangles hr).confined_part hstart⟩

/-! ## The alcove -/

/-- A bar with two arms that reach down from its ends, and a pillar of one pixel between them. -/
def alcove : Region Int :=
  ⟨[.ofPixels ⟨0, 0⟩ ⟨4, 1⟩,
    .ofPixels ⟨0, 2⟩ ⟨0, 2⟩, .ofPixels ⟨4, 2⟩ ⟨4, 2⟩,
    .ofPixels ⟨0, 3⟩ ⟨0, 3⟩, .ofPixels ⟨2, 3⟩ ⟨2, 3⟩, .ofPixels ⟨4, 3⟩ ⟨4, 3⟩,
    .ofPixels ⟨0, 4⟩ ⟨0, 6⟩, .ofPixels ⟨4, 4⟩ ⟨4, 6⟩]⟩

/-- The borders around the bar with its arms, and those around the pillar. -/
def alcoveOutline : Outline Int :=
  [.horizontal 0 5 0 .up, .vertical 0 0 7 .left, .vertical 5 0 7 .right,
    .horizontal 1 4 2 .down, .vertical 1 2 7 .right, .vertical 4 2 7 .left,
    .horizontal 2 3 3 .up, .vertical 2 3 4 .left, .vertical 3 3 4 .right,
    .horizontal 2 3 4 .down, .horizontal 0 1 7 .down, .horizontal 4 5 7 .down]

theorem ofRegion?_alcove : Outline.ofRegion? alcove = .ok alcoveOutline := by
  have hbar : Outline.between? [.ofPixels ⟨0, 0⟩ ⟨4, 1⟩]
      [.ofPixels ⟨0, 2⟩ ⟨0, 2⟩, .ofPixels ⟨4, 2⟩ ⟨4, 2⟩] = .ok [.horizontal 1 4 2 .down] :=
    Outline.between?_of_touch rfl
  have hpillar : Outline.between? [.ofPixels ⟨0, 2⟩ ⟨0, 2⟩, .ofPixels ⟨4, 2⟩ ⟨4, 2⟩]
      [.ofPixels ⟨0, 3⟩ ⟨0, 3⟩, .ofPixels ⟨2, 3⟩ ⟨2, 3⟩, .ofPixels ⟨4, 3⟩ ⟨4, 3⟩] =
        .ok [.horizontal 2 3 3 .up] :=
    Outline.between?_of_touch rfl
  have hbelow : Outline.between?
      [.ofPixels ⟨0, 3⟩ ⟨0, 3⟩, .ofPixels ⟨2, 3⟩ ⟨2, 3⟩, .ofPixels ⟨4, 3⟩ ⟨4, 3⟩]
      [.ofPixels ⟨0, 4⟩ ⟨0, 6⟩, .ofPixels ⟨4, 4⟩ ⟨4, 6⟩] = .ok [.horizontal 2 3 4 .down] :=
    Outline.between?_of_touch rfl
  have hrows := Outline.ofRows?_cons (Outline.under?_cons hbar (Outline.under?_cons hpillar
    (Outline.under?_cons hbelow (Outline.under?_nil _))))
  exact bind_eq_ok_iff.mpr ⟨_, hrows, rfl⟩

/-- The pillar touches no other box. -/
theorem not_joined_pillar : ¬alcove.Joined ⟨1 / 2, 3 / 2⟩ ⟨3, 4⟩ := by
  intro hjoined
  have hstart : ∀ b ∈ alcove.boxes, b.Closure ⟨3, 4⟩ → b.left = 2 := by decide +kernel
  have hclosed : ∀ b ∈ alcove.boxes, ∀ c ∈ alcove.boxes, b.left = 2 → b.Touches c → c.left = 2 := by
    decide +kernel
  have hend : ∀ b ∈ alcove.boxes, b.left = 2 → ¬b.Closure ⟨1 / 2, 3 / 2⟩ := by decide +kernel
  obtain ⟨b, hb, hleft, hin⟩ := hjoined.symm.exists_of_closed hstart hclosed
  exact hend b hb hleft hin

/-- Out of the bar to the lower right : the right side of the bar stops the motion first, and
the motion to there hits the bottom of the pillar, which stops it on the pillar. -/
theorem alcove_entered : alcove.Built ∧ alcove.Closure (Point.relativeTo ⟨1 / 2, 3 / 2⟩ ⟨0, 0⟩) ∧
    Outline.ofRegion? alcove = .ok alcoveOutline ∧
    (alcoveOutline.lift : Outline Rat).confine ⟨0, 0⟩ ⟨1 / 2, 3 / 2⟩ ⟨100, 7⟩ 0 0 =
      .ok ⟨⟨3, 4⟩, [.vertical 5 0 7 .right, .horizontal 2 3 4 .down]⟩ ∧
    ¬alcove.Joined (Point.relativeTo ⟨1 / 2, 3 / 2⟩ ⟨0, 0⟩) (Point.relativeTo ⟨3, 4⟩ ⟨0, 0⟩) := by
  refine ⟨Canonical.built (by decide), by decide +kernel, ofRegion?_alcove, by decide +kernel, ?_⟩
  simpa [Point.relativeTo] using not_joined_pillar

end Region

end Confinement
