import Confinement.Proofs.Contacts

/-!
# The border hit first

A search of an outline ends with the first border of least measure, if any border has a measure;
there is only one such border (`Outline.IsFirst.unique`). In a search for the border that a motion
hits first the borders with a measure are those in its way : they block one of its directions on
their own axis, are not parallel to it and have a point in common with it (`Border.InWay`). Their
measures are in the order of the shares of the way after which the motion is at them.

So the search ends without a border if and only if there is none in the way. Otherwise it ends with
the one that the motion comes to after the least share of its way, and of several at the same place
with the one that stands first in the outline (`Outline.firstHit?_iff`).
-/

namespace Confinement

/-! ## Searches with one result -/

namespace Outline

variable {measure? : Border Rat → Except ArithmeticError (Option Rat)} {outline : Outline Rat}
  {b c : Border Rat} {m n : Rat}

/-- The border that stands first among those of least measure is one border. -/
theorem IsFirst.unique (hb : IsFirst measure? outline b m) (hc : IsFirst measure? outline c n) :
    b = c := by
  have hmn : m = n := le_antisymm (hb.le hc.mem hc.measure_eq) (hc.le hb.mem hb.measure_eq)
  subst hmn
  obtain ⟨before, after, rfl, hm, hbefore, -⟩ := hb
  obtain ⟨before', after', houtline, hm', hbefore', -⟩ := hc
  -- If one of the two stood before the other, its measure would be less than itself.
  rcases List.append_eq_append_iff.mp houtline with ⟨between, rfl, hrest⟩ | ⟨between, rfl, hrest⟩
  · cases between with
    | nil => exact (List.cons.inj hrest).1
    | cons d between =>
      obtain rfl := (List.cons.inj hrest).1
      exact absurd (hbefore' b (by simp) m hm) (lt_irrefl m)
  · cases between with
    | nil => exact (List.cons.inj hrest).1.symm
    | cons d between =>
      obtain rfl := (List.cons.inj hrest).1
      exact absurd (hbefore c (by simp) m hm') (lt_irrefl m)

variable (htotal : ∀ c ∈ outline, ∃ found, measure? c = .ok found)
include htotal

/-- A search ends without a border if and only if none has a measure. -/
theorem least?_eq_none_iff :
    least? measure? outline = .ok none ↔ ∀ c ∈ outline, measure? c = .ok none := by
  rcases exists_least? htotal with ⟨hnone, hall⟩ | ⟨b, m, hsome, hfirst⟩
  · exact iff_of_true hnone hall
  · refine iff_of_false (fun hnone => ?_) fun hall => ?_
    · cases hnone.symm.trans hsome
    · cases (hall b hfirst.mem).symm.trans hfirst.measure_eq

/-- A search ends with a border if and only if that is the first one of least measure. -/
theorem least?_eq_some_iff :
    least? measure? outline = .ok (some b) ↔ ∃ m, IsFirst measure? outline b m := by
  rcases exists_least? htotal with ⟨hnone, hall⟩ | ⟨c, n, hsome, hfirst⟩
  · refine iff_of_false (fun hsome => ?_) fun ⟨m, hfirst⟩ => ?_
    · cases hnone.symm.trans hsome
    · cases (hall b hfirst.mem).symm.trans hfirst.measure_eq
  · constructor
    · intro hb
      cases hb.symm.trans hsome
      exact ⟨n, hfirst⟩
    · rintro ⟨m, hb⟩
      rw [hb.unique hfirst, hsome]

end Outline

/-! ## Borders in the way -/

/-- Whether a border is in the way of a motion, which comes to it after this share of its way : it
blocks one of the directions on its own axis, is not parallel to the motion, and the motion is at a
point of it. -/
structure Border.InWay (b : Border Rat) (motion : Segment Rat) (free : Directions) (t : Rat) :
    Prop where
  blocks : ∃ d, b.blocks.contains d = true ∧ free.contains d = true ∧ d.axis = b.axis
  meets : ∃ u, b.line.MeetAt motion u t

/-- The measures of borders in the way are in the order of the shares after which the motion comes
to them. -/
theorem Border.InWay.measure_le_iff {b c : Border Rat} {motion : Segment Rat} {free : Directions}
    {t s : Rat} (hb : b.InWay motion free t) (hc : c.InWay motion free s) :
    t * t * motion.squaredLength ≤ s * s * motion.squaredLength ↔ t ≤ s := by
  obtain ⟨u, hmeet⟩ := hb.meets
  obtain ⟨v, hmeet'⟩ := hc.meets
  exact hmeet.measure_le_iff hmeet'

namespace Outline

variable {motion : Segment Rat} {free : Directions}

/-- The borders that have a measure are those in the way. -/
theorem contact?_eq_some_iff {b : Border Rat} {m : Rat} :
    contact? motion free b = .ok (some m) ↔
      ∃ t, b.InWay motion free t ∧ m = t * t * motion.squaredLength := by
  constructor
  · intro h
    obtain ⟨hblocks, t, u, hmeet, hm⟩ := exists_meetAt_of_contact? h
    exact ⟨t, ⟨Border.blocksAny_iff.mp hblocks, u, hmeet⟩, hm⟩
  · rintro ⟨t, ⟨hblocks, u, hmeet⟩, rfl⟩
    exact contact?_of_meetAt (Border.blocksAny_iff.mpr hblocks) hmeet

theorem contact?_eq_none_iff {b : Border Rat} :
    contact? motion free b = .ok none ↔ ∀ t, ¬b.InWay motion free t := by
  obtain ⟨found, hfound⟩ := exists_measure motion free b
  cases found with
  | none =>
    refine iff_of_true hfound fun t hway => ?_
    cases hfound.symm.trans (contact?_eq_some_iff.mpr ⟨t, hway, rfl⟩)
  | some m =>
    obtain ⟨t, hway, -⟩ := contact?_eq_some_iff.mp hfound
    refine iff_of_false (fun hnone => ?_) fun hall => hall t hway
    cases hfound.symm.trans hnone

/-- Whether a motion comes to this border first, after this share of its way, of those in its way;
and of several that it comes to at once, to the one that stands first in the outline. -/
def FirstInWay (outline : Outline Rat) (motion : Segment Rat) (free : Directions) (b : Border Rat)
    (t : Rat) : Prop :=
  ∃ before after, outline = before ++ b :: after ∧ b.InWay motion free t ∧
    (∀ c ∈ before, ∀ s, c.InWay motion free s → t < s) ∧
    ∀ c ∈ after, ∀ s, c.InWay motion free s → t ≤ s

theorem exists_isFirst_contact?_iff {outline : Outline Rat} {b : Border Rat} :
    (∃ m, IsFirst (contact? motion free) outline b m) ↔
      ∃ t, outline.FirstInWay motion free b t := by
  constructor
  · rintro ⟨m, before, after, houtline, hm, hbefore, hafter⟩
    obtain ⟨t, hway, rfl⟩ := contact?_eq_some_iff.mp hm
    refine ⟨t, before, after, houtline, hway, fun c hc s hcway => ?_, fun c hc s hcway => ?_⟩
    · have hlt := hbefore c hc _ (contact?_eq_some_iff.mpr ⟨s, hcway, rfl⟩)
      exact lt_of_not_ge fun hle => hlt.not_ge ((hcway.measure_le_iff hway).mpr hle)
    · have hle := hafter c hc _ (contact?_eq_some_iff.mpr ⟨s, hcway, rfl⟩)
      exact (hway.measure_le_iff hcway).mp hle
  · rintro ⟨t, before, after, houtline, hway, hbefore, hafter⟩
    refine ⟨_, before, after, houtline, contact?_eq_some_iff.mpr ⟨t, hway, rfl⟩,
      fun c hc n hn => ?_, fun c hc n hn => ?_⟩
    · obtain ⟨s, hcway, rfl⟩ := contact?_eq_some_iff.mp hn
      have hlt := hbefore c hc s hcway
      exact lt_of_not_ge fun hle => hlt.not_ge ((hcway.measure_le_iff hway).mp hle)
    · obtain ⟨s, hcway, rfl⟩ := contact?_eq_some_iff.mp hn
      exact (hway.measure_le_iff hcway).mpr (hafter c hc s hcway)

/-- A search for the border that a motion hits first always ends. It ends without a border if and
only if none is in the way, and with a border if and only if the motion comes to that one first, or
to others at the same place that stand later in the outline. -/
theorem firstHit?_iff (outline : Outline Rat) (motion : Segment Rat) (free : Directions) :
    (∃ found, outline.firstHit? motion free = .ok found) ∧
      (outline.firstHit? motion free = .ok none ↔
        ∀ b ∈ outline, ∀ t, ¬b.InWay motion free t) ∧
      ∀ b, outline.firstHit? motion free = .ok (some b) ↔
        ∃ t, outline.FirstInWay motion free b t := by
  have htotal : ∀ c ∈ outline, ∃ found, contact? motion free c = .ok found :=
    fun c _ => exists_measure motion free c
  refine ⟨?_, ?_, fun b => ?_⟩
  · rcases exists_firstHit? outline motion free with ⟨hnone, -⟩ | ⟨b, -, hsome, -⟩
    · exact ⟨none, hnone⟩
    · exact ⟨some b, hsome⟩
  · exact (least?_eq_none_iff htotal).trans
      (forall₂_congr fun _ _ => contact?_eq_none_iff)
  · exact (least?_eq_some_iff htotal).trans exists_isFirst_contact?_iff

/-- Out of a corner the motion comes to both borders at once, and the one that stands first
counts. -/
example :
    let side : Border Rat := ⟨⟨⟨4, 0⟩, ⟨4, 4⟩⟩, .only .right⟩
    let bottom : Border Rat := ⟨⟨⟨0, 4⟩, ⟨4, 4⟩⟩, .only .down⟩
    let motion : Segment Rat := ⟨⟨2, 2⟩, ⟨6, 6⟩⟩
    firstHit? [side, bottom] motion motion.directions = .ok (some side) ∧
      firstHit? [bottom, side] motion motion.directions = .ok (some bottom) := by
  decide +kernel

end Outline

end Confinement
