import Confinement.Proofs.Confining
import Confinement.Proofs.Membership

/-!
# Motions inside regions

A motion ends where it is aimed unless it is at a border that blocks it before its end
(`Outline.Exact.reaches_iff`), whether it stays in the region or not.

The points of a motion that stays in a region lie in pixels that are covered. So it never is at
an inner point of a border that blocks it : beyond that point, or at it, is a pixel that is not
covered. But it may be at an end of such a border, as the line of a border has both its ends, and
pass it (`Outline.Exact.hasEnd_of_holds`). There it is stopped, and nowhere else
(`Region.Built.confined_inside_iff`). Along the side of a notch it is (`Region.notch_stopped`).
-/

namespace Confinement

/-! ## Ends of borders -/

namespace Border

/-- Whether a point is an end of a border. -/
def HasEnd (b : Border Int) (p : Point Rat) : Prop :=
  p = b.line.start.map Lift.lift ∨ p = b.line.stop.map Lift.lift

variable {b : Border Int} {p : Point Rat}

theorem Proper.holds_of_hasEnd (h : b.Proper) (hp : b.HasEnd p) : b.Holds p := by
  obtain ⟨hx, hy, -⟩ := h.aligned
  rcases hp with rfl | rfl
  · exact ⟨⟨le_rfl, hx⟩, le_rfl, hy⟩
  · exact ⟨⟨hx, le_rfl⟩, hy, le_rfl⟩

/-- A point of a horizontal border that is none of its ends lies between them. -/
theorem Holds.inside_horizontal (hp : b.Holds p) (hend : ¬b.HasEnd p)
    (hy : b.line.start.y = b.line.stop.y) :
    ((b.line.start.x : Rat) < p.x ∧ p.x < b.line.stop.x) ∧ p.y = b.line.start.y := by
  obtain ⟨⟨hleft, hright⟩, htop, hbottom⟩ := hp
  have hline : p.y = b.line.start.y := le_antisymm (hy ▸ hbottom) htop
  refine ⟨⟨lt_of_le_of_ne hleft fun heq => ?_, lt_of_le_of_ne hright fun heq => ?_⟩, hline⟩
  · exact hend (Or.inl (congrArg₂ Point.mk heq.symm hline))
  · exact hend (Or.inr (congrArg₂ Point.mk heq (hline.trans (congrArg Int.cast hy))))

/-- A point of a vertical border that is none of its ends lies between them. -/
theorem Holds.inside_vertical (hp : b.Holds p) (hend : ¬b.HasEnd p)
    (hx : b.line.start.x = b.line.stop.x) :
    p.x = b.line.start.x ∧ (b.line.start.y : Rat) < p.y ∧ p.y < b.line.stop.y := by
  obtain ⟨⟨hleft, hright⟩, htop, hbottom⟩ := hp
  have hline : p.x = b.line.start.x := le_antisymm (hx ▸ hright) hleft
  refine ⟨hline, lt_of_le_of_ne htop fun heq => ?_, lt_of_le_of_ne hbottom fun heq => ?_⟩
  · exact hend (Or.inl (congrArg₂ Point.mk hline heq.symm))
  · exact hend (Or.inr (congrArg₂ Point.mk (hline.trans (congrArg Int.cast hx)) heq))

end Border

/-! ## Motions that end where they are aimed -/

/-- A share of the way to a coordinate elsewhere, less than one, stops short of it. -/
theorem Segment.not_mem_uIcc_share {a z t : Rat} (hne : z - a ≠ 0) (ht : t < 1) :
    z ∉ Set.uIcc a (a + t * (z - a)) := by
  rw [Set.mem_uIcc]
  rintro (⟨hle, hshare⟩ | ⟨hshare, hle⟩)
  · have hpos : 0 < z - a := lt_of_le_of_ne (sub_nonneg.mpr hle) hne.symm
    have := mul_lt_of_lt_one_left hpos ht
    linarith
  · have hneg : z - a < 0 := lt_of_le_of_ne (sub_nonpos.mpr hle) hne
    have := mul_lt_mul_of_neg_right ht hneg
    linarith

namespace Outline

variable {outline : Outline Int} {r : Region Int} {motion last : Segment Rat} {free : Directions}
  {borders : List (Border Rat)}

/-- A motion that is at no border that blocks it, unless at its end, keeps its end. -/
theorem Clamped.eq_of_never (hclamped : Clamped outline.lift 0 motion free last borders)
    (h : Exact outline r) (hnever : ∀ b ∈ outline, b.blocksAny free = true →
      ∀ t, 0 ≤ t → t < 1 → ¬b.Holds (motion.along t)) : last = motion := by
  induction hclamped with
  | unhindered => rfl
  | @pinned motion last free b borders hit rest ih =>
    obtain ⟨t, hit⟩ := exists_hitAt hit
    obtain ⟨c, hc, rfl, hblocks⟩ := hit.exists_mem
    obtain ⟨u, hmeet⟩ := hit.meets
    have hproper := h.proper c hc
    have hholds := hproper.holds_of_meetAt hmeet
    have hend : t = 1 := le_antisymm hmeet.on_way.2
      (not_lt.mp fun hlt => hnever c hc hblocks t hmeet.on_way.1 hlt hholds)
    rw [hend, Segment.along_one] at hholds
    have hpin : (c.map Lift.lift).pin motion.stop free 0 = motion.stop :=
      hproper.aligned.pin_eq hholds.1 hholds.2 free
    rw [hpin] at ih
    exact ih fun b hb hfree => hnever b hb (Border.blocksAny_of_without hfree)

/-- A motion that hits a border before its end is pinned short of where it is aimed. -/
theorem HitAt.pin_short (h : Exact outline r) {b : Border Rat} {t : Rat}
    (hit : HitAt outline.lift motion motion.directions b t) (ht : t < 1) (free : Directions) :
    ¬motion.stop.Between motion.start (b.pin motion.stop free 0) := by
  obtain ⟨c, hc, rfl, hblocks⟩ := hit.exists_mem
  obtain ⟨u, hmeet⟩ := hit.meets
  have hpin := (h.proper c hc).aligned.pin_across hmeet free
  have hacross := Border.across_of_blocksAny hblocks
  rw [Border.isHorizontal_lift] at hpin
  rintro ⟨hx, hy⟩
  by_cases hhorizontal : c.isHorizontal = true
  · rw [if_pos hhorizontal] at hpin hacross
    rw [hpin] at hy
    exact Segment.not_mem_uIcc_share hacross ht hy
  · rw [if_neg hhorizontal] at hpin hacross
    rw [hpin] at hx
    exact Segment.not_mem_uIcc_share hacross ht hx

/-- A motion ends where it is aimed unless it is at a border that blocks it before its end. -/
theorem Exact.reaches_iff (h : Exact outline r)
    (hclamped : Clamped outline.lift 0 motion motion.directions last borders) :
    last.stop = motion.stop ↔ ∀ b ∈ outline, b.blocksAny motion.directions = true →
      ∀ t, 0 ≤ t → t < 1 → ¬b.Holds (motion.along t) := by
  refine ⟨fun hstop b hb hblocks t ht ht1 hholds => ?_, fun hnever => ?_⟩
  · obtain ⟨u, hmeet⟩ := (h.proper b hb).exists_meetAt hblocks ⟨ht, ht1.le⟩ hholds
    -- The border hit first is met no later, so the end is pinned short and never comes back.
    cases hclamped with
    | unhindered hfree => exact not_meetAt_of_unhindered hfree hb hblocks t u hmeet
    | pinned hit rest =>
      obtain ⟨s, hit⟩ := exists_hitAt hit
      have hfirst : s ≤ t := hit.first _ (List.mem_map_of_mem hb)
        ((Border.blocksAny_lift b _).trans hblocks) t u hmeet
      have hbetween := rest.between h.aligned_lift
      rw [hstop] at hbetween
      exact hit.pin_short h (hfirst.trans_lt ht1) _ hbetween
  · rw [hclamped.eq_of_never h hnever]

end Outline

/-! ## Motions that stay in a region -/

/-- A coordinate strictly between two bounds stays there for a while when it moves. -/
theorem exists_between_ahead {low high z : Rat} (h : low < z ∧ z < high) (d : Rat) :
    ∃ ε > 0, ∀ t, 0 ≤ t → t ≤ ε → low < z + t * d ∧ z + t * d < high := by
  have hroom : 0 < (z - low) ⊓ (high - z) := lt_inf_iff.mpr ⟨sub_pos.mpr h.1, sub_pos.mpr h.2⟩
  have hd : 0 < |d| + 1 := by positivity
  refine ⟨((z - low) ⊓ (high - z)) / (|d| + 1), div_pos hroom hd, fun t ht hle => ?_⟩
  have hmoved : |t * d| < (z - low) ⊓ (high - z) := by
    rcases ht.eq_or_lt with rfl | hpos
    · rwa [zero_mul, abs_zero]
    · calc |t * d| = t * |d| := by rw [abs_mul, abs_of_nonneg ht]
        _ < t * (|d| + 1) := mul_lt_mul_of_pos_left (lt_add_one _) hpos
        _ ≤ (z - low) ⊓ (high - z) := (le_div_iff₀ hd).mp hle
  obtain ⟨hback, hforth⟩ := abs_lt.mp hmoved
  have := inf_le_left (a := z - low) (b := high - z)
  have := inf_le_right (a := z - low) (b := high - z)
  constructor <;> linarith

/-- A point between two grid lines that falls off a third one is soon in the last cell before
that one, and still between the two. -/
theorem exists_off_line (line : Int) {low high : Int} {z d e limit : Rat}
    (h : (low : Rat) < z ∧ z < high) (he : e < 0) (hlimit : 0 < limit) :
    ∃ t, 0 ≤ t ∧ t ≤ limit ∧ (low ≤ ⌊z + t * d⌋ ∧ ⌊z + t * d⌋ + 1 ≤ high) ∧
      ⌊(line : Rat) + t * e⌋ = line - 1 := by
  obtain ⟨ε, hε, hahead⟩ := exists_between_ahead h d
  have hline : ((line : Rat) - 1) < line ∧ (line : Rat) < line + 1 :=
    ⟨sub_one_lt _, lt_add_one _⟩
  obtain ⟨ε', hε', hahead'⟩ := exists_between_ahead hline e
  have hpos : 0 < ε ⊓ ε' ⊓ limit := lt_inf_iff.mpr ⟨lt_inf_iff.mpr ⟨hε, hε'⟩, hlimit⟩
  have hle : ε ⊓ ε' ⊓ limit ≤ ε ⊓ ε' := inf_le_left
  have hbetween := hahead _ hpos.le (hle.trans inf_le_left)
  refine ⟨ε ⊓ ε' ⊓ limit, hpos.le, inf_le_right,
    floor_mem hbetween.1.le hbetween.2, ?_⟩
  rw [Int.floor_eq_iff]
  have hfalls := mul_neg_of_pos_of_neg hpos he
  have hbefore := (hahead' _ hpos.le (hle.trans inf_le_right)).1
  push_cast
  constructor <;> linarith

/-- Whether a region contains every point of a motion. -/
def Region.ContainsMotion (r : Region Int) (motion : Segment Rat) : Prop :=
  ∀ t, 0 ≤ t → t ≤ 1 → r.contains (motion.along t) = .ok true

namespace Region

variable {r : Region Int} {motion : Segment Rat} {t : Rat}

theorem ContainsMotion.covers (h : r.ContainsMotion motion) (hr : r.Built)
    (ht : 0 ≤ t ∧ t ≤ 1) : r.Covers ⌊(motion.along t).x⌋ ⌊(motion.along t).y⌋ :=
  (hr.contains_iff _).mp (h t ht.1 ht.2)

/-- A motion upwards from a line covers a pixel above it, between any two grid lines that it is
between. -/
theorem ContainsMotion.exists_above (h : r.ContainsMotion motion) (hr : r.Built)
    (ht : 0 ≤ t ∧ t < 1) (hup : motion.stop.y < motion.start.y) {left right line : Int}
    (hx : (left : Rat) < (motion.along t).x ∧ (motion.along t).x < right)
    (hy : (motion.along t).y = line) :
    ∃ x, (left ≤ x ∧ x + 1 ≤ right) ∧ r.Covers x (line - 1) := by
  obtain ⟨s, hs, hslimit, hcolumn, hrow⟩ := exists_off_line line
    (d := motion.stop.x - motion.start.x) hx (sub_neg.mpr hup) (sub_pos.mpr ht.2)
  have hcovers := h.covers hr (t := t + s) ⟨add_nonneg ht.1 hs, by linarith⟩
  rw [Segment.along_add, hy, hrow] at hcovers
  exact ⟨_, hcolumn, hcovers⟩

/-- A motion to the left from a line covers a pixel before it, between any two grid lines that it
is between. -/
theorem ContainsMotion.exists_before (h : r.ContainsMotion motion) (hr : r.Built)
    (ht : 0 ≤ t ∧ t < 1) (hleft : motion.stop.x < motion.start.x) {top bottom line : Int}
    (hx : (motion.along t).x = line)
    (hy : (top : Rat) < (motion.along t).y ∧ (motion.along t).y < bottom) :
    ∃ y, (top ≤ y ∧ y + 1 ≤ bottom) ∧ r.Covers (line - 1) y := by
  obtain ⟨s, hs, hslimit, hrow, hcolumn⟩ := exists_off_line line
    (d := motion.stop.y - motion.start.y) hy (sub_neg.mpr hleft) (sub_pos.mpr ht.2)
  have hcovers := h.covers hr (t := t + s) ⟨add_nonneg ht.1 hs, by linarith⟩
  rw [Segment.along_add, hx, hcolumn] at hcovers
  exact ⟨_, hrow, hcovers⟩

end Region

namespace Outline

variable {outline : Outline Int} {r : Region Int} {motion : Segment Rat} {b : Border Int} {t : Rat}

/-- A motion that stays in a region is at no point of a border that blocks it but its ends. -/
theorem Exact.hasEnd_of_holds (h : Exact outline r) (hr : r.Built)
    (hinside : r.ContainsMotion motion) (hb : b ∈ outline)
    (hblocks : b.blocksAny motion.directions = true) (ht : 0 ≤ t ∧ t < 1)
    (hholds : b.Holds (motion.along t)) : b.HasEnd (motion.along t) := by
  by_contra hend
  have hat := hinside.covers hr ⟨ht.1, ht.2.le⟩
  rcases h.proper b hb with ⟨hy, -⟩ | ⟨hx, -⟩
  · obtain ⟨hbetween, hline⟩ := hholds.inside_horizontal hend hy
    have halong {x : Int} (hx : b.line.start.x ≤ x ∧ x + 1 ≤ b.line.stop.x) :
        b.AlongTop x b.line.start.y := ⟨rfl, hy.symm, hx⟩
    have hcolumn := halong (floor_mem hbetween.1.le hbetween.2)
    rw [hline, Int.floor_intCast] at hat
    -- Upwards the motion soon is above the line, downwards it is at a pixel below it already.
    rcases h.edgeTop_of_blocksAny hb hcolumn hblocks with ⟨honly, hup, -⟩ | ⟨-, -, -, hout⟩
    · have hrises := motion.contains_up.mp hup
      obtain ⟨x, hx, hcovers⟩ := hinside.exists_above hr ht hrises hbetween hline
      have hout := (h.beside_top hb (halong hx)).2
      rw [honly] at hout
      exact hout hcovers
    · exact hout hat
  · obtain ⟨hline, hbetween⟩ := hholds.inside_vertical hend hx
    have halong {y : Int} (hy : b.line.start.y ≤ y ∧ y + 1 ≤ b.line.stop.y) :
        b.AlongLeft b.line.start.x y := ⟨rfl, hx.symm, hy⟩
    have hrow := halong (floor_mem hbetween.1.le hbetween.2)
    rw [hline, Int.floor_intCast] at hat
    rcases h.edgeLeft_of_blocksAny hb hrow hblocks with ⟨honly, hleft, -⟩ | ⟨-, -, -, hout⟩
    · have hback := motion.contains_left.mp hleft
      obtain ⟨y, hy, hcovers⟩ := hinside.exists_before hr ht hback hline hbetween
      have hout := (h.beside_left hb (halong hy)).2
      rw [honly] at hout
      exact hout hcovers
    · exact hout hat

end Outline

/-- A region that contains a point has it in its closure. -/
theorem Region.Built.closure_of_contains {r : Region Int} (h : r.Built) {p : Point Rat}
    (hp : r.contains p = .ok true) : r.Closure p :=
  (r.closure_iff p).mpr ⟨⌊p.x⌋, ⌊p.y⌋, (h.contains_iff p).mp hp, inCell_floor p.x, inCell_floor p.y⟩

theorem Point.relativeTo_inj {p q origin : Point Rat} :
    p.relativeTo origin = q.relativeTo origin ↔ p = q := by
  obtain ⟨px, py⟩ := p
  obtain ⟨qx, qy⟩ := q
  simp only [relativeTo, Point.mk.injEq, sub_left_inj]

namespace Region

/-! ## Confined inside -/

/-- Without a step and a margin, a motion that stays in a region ends where it is aimed unless it
is at an end of a border that blocks it before its own end. -/
theorem Built.confined_inside_iff {r : Region Int} (h : r.Built) {origin : Point Rat}
    {motion : Segment Rat} (hinside : r.ContainsMotion (motion.relativeTo origin)) :
    ∃ outline confined, Outline.ofRegion? r = .ok outline ∧
      (outline.lift : Outline Rat).confine origin motion.start motion.stop 0 0 = .ok confined ∧
      (confined.position = motion.stop ↔ ∀ b ∈ outline,
        b.blocksAny (motion.relativeTo origin).directions = true →
          ∀ t, 0 ≤ t → t < 1 → ¬b.HasEnd ((motion.relativeTo origin).along t)) := by
  obtain ⟨outline, houtline, hexact⟩ := Outline.exists_ofRegion? h.banded
  have hstart := h.closure_of_contains (hinside 0 le_rfl zero_le_one)
  obtain ⟨last, borders, position, hconfine, hclamped, hwithin, -⟩ :=
    Outline.exists_confine (hexact.lift_ne_nil hstart) le_rfl origin motion.start motion.stop 0
  rw [Outline.requested_zero] at hclamped
  refine ⟨outline, ⟨position, borders⟩, houtline, hconfine, ?_⟩
  have hreaches : position = motion.stop ↔ last.stop = (motion.relativeTo origin).stop := by
    rw [← hwithin.eq]
    exact Point.relativeTo_inj.symm
  rw [hreaches, hexact.reaches_iff hclamped]
  constructor
  · intro hnever b hb hblocks t ht ht1 hend
    exact hnever b hb hblocks t ht ht1 ((hexact.proper b hb).holds_of_hasEnd hend)
  · intro hnever b hb hblocks t ht ht1 hholds
    exact hnever b hb hblocks t ht ht1
      (hexact.hasEnd_of_holds h hinside hb hblocks ⟨ht, ht1⟩ hholds)

/-! ## The notch -/

/-- Two pixels side by side, and a third one on top of the right one. -/
def notch : Region Int :=
  ⟨[.ofPixels ⟨1, 0⟩ ⟨1, 0⟩, .ofPixels ⟨0, 1⟩ ⟨1, 1⟩]⟩

theorem built_notch : notch.Built :=
  Canonical.built (by decide)

/-- The borders around the notch. -/
def notchOutline : Outline Int :=
  [.horizontal 1 2 0 .up, .vertical 1 0 1 .left, .vertical 2 0 2 .right,
    .horizontal 0 1 1 .up, .vertical 0 1 2 .left, .horizontal 0 2 2 .down]

theorem ofRegion?_notch : Outline.ofRegion? notch = .ok notchOutline := by
  have hseam : Outline.between? [.ofPixels ⟨1, 0⟩ ⟨1, 0⟩] [.ofPixels ⟨0, 1⟩ ⟨1, 1⟩] =
      .ok [.horizontal 0 1 1 .up] := Outline.between?_of_touch rfl
  have hrows := Outline.ofRows?_cons (Outline.under?_cons hseam (Outline.under?_nil _))
  exact bind_eq_ok_iff.mpr ⟨_, hrows, rfl⟩

/-- A motion between two points of the right column of the notch stays in it. -/
theorem notch_containsMotion {motion : Segment Rat}
    (hstart : motion.start.x ∈ Set.Ico 1 2 ∧ motion.start.y ∈ Set.Ico 0 2)
    (hstop : motion.stop.x ∈ Set.Ico 1 2 ∧ motion.stop.y ∈ Set.Ico 0 2) :
    notch.ContainsMotion motion := by
  intro t ht ht1
  obtain ⟨hx, hy⟩ := motion.along_between ⟨ht, ht1⟩
  have hx' := Set.ordConnected_Ico.uIcc_subset hstart.1 hstop.1 hx
  have hy' := Set.ordConnected_Ico.uIcc_subset hstart.2 hstop.2 hy
  have hcolumn : ⌊(motion.along t).x⌋ = 1 :=
    Int.floor_eq_iff.mpr ⟨by exact_mod_cast hx'.1, by norm_num; exact hx'.2⟩
  have hrow : ⌊(motion.along t).y⌋ = 0 ∨ ⌊(motion.along t).y⌋ = 1 := by
    have htop : 0 ≤ ⌊(motion.along t).y⌋ := Int.le_floor.mpr (by exact_mod_cast hy'.1)
    have hbottom : ⌊(motion.along t).y⌋ < 2 := Int.floor_lt.mpr (by exact_mod_cast hy'.2)
    omega
  rw [built_notch.contains_iff, hcolumn]
  rcases hrow with hrow | hrow <;> rw [hrow] <;> decide

/-- A motion up to the corner in the notch, as seen from elsewhere. -/
theorem confined_inside_notch :
    notch.ContainsMotion (Segment.relativeTo ⟨⟨7 / 2, 11 / 2⟩, ⟨3, 5⟩⟩ ⟨2, 4⟩) ∧
    ∃ outline confined, Outline.ofRegion? notch = .ok outline ∧
      (outline.lift : Outline Rat).confine ⟨2, 4⟩ ⟨7 / 2, 11 / 2⟩ ⟨3, 5⟩ 0 0 = .ok confined ∧
      (confined.position = ⟨3, 5⟩ ↔ ∀ b ∈ outline,
        b.blocksAny (Segment.relativeTo ⟨⟨7 / 2, 11 / 2⟩, ⟨3, 5⟩⟩ ⟨2, 4⟩).directions = true →
          ∀ t, 0 ≤ t → t < 1 →
            ¬b.HasEnd ((Segment.relativeTo ⟨⟨7 / 2, 11 / 2⟩, ⟨3, 5⟩⟩ ⟨2, 4⟩).along t)) := by
  have hinside : notch.ContainsMotion (Segment.relativeTo ⟨⟨7 / 2, 11 / 2⟩, ⟨3, 5⟩⟩ ⟨2, 4⟩) := by
    refine notch_containsMotion ?_ ?_ <;> norm_num [Segment.relativeTo, Point.relativeTo]
  have hiff := built_notch.confined_inside_iff hinside
  exact ⟨hinside, hiff⟩

/-- The motion up along the side of the notch stays in the right column, and is stopped where the
top of the left pixel ends. -/
theorem notch_stopped : notch.Built ∧
    notch.ContainsMotion (Segment.relativeTo ⟨⟨1, 3 / 2⟩, ⟨1, 1 / 2⟩⟩ ⟨0, 0⟩) ∧
    Outline.ofRegion? notch = .ok notchOutline ∧
    (notchOutline.lift : Outline Rat).confine ⟨0, 0⟩ ⟨1, 3 / 2⟩ ⟨1, 1 / 2⟩ 0 0 =
      .ok ⟨⟨1, 1⟩, [.horizontal 0 1 1 .up]⟩ ∧ (⟨1, 1⟩ : Point Rat) ≠ ⟨1, 1 / 2⟩ := by
  refine ⟨built_notch, notch_containsMotion ?_ ?_, ofRegion?_notch,
    by decide +kernel, by decide +kernel⟩ <;> norm_num [Segment.relativeTo, Point.relativeTo]

end Region

end Confinement
