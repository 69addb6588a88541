import Confinement.Proofs.Confining

/-!
# Turns of a stopped motion

A motion is stopped in turns : in each one the outline is searched for the border that is hit
first, the end is pinned to that border, and the axis across it is settled. Nothing is asked of the
borders or of the numbers here. A border need not be part of any region's outline, and it may block
whatever it likes; coordinates need not be comparable, and their arithmetic may fail.

A turn always settles an axis on which a direction was free (`Outline.Turn.free_ssubset`), and a
border that is hit later lies across the other axis (`Outline.Turns.axes`). So there are two turns
at most, whatever they begin with, and what the turns come to is what `Outline.clamp` answers
(`Outline.exists_turns`). A position that comes back has been stopped by at most one border across
each axis (`Outline.stops_once_per_axis`).
-/

namespace Confinement

/-! ## Sets of directions -/

namespace Directions

/-- Every direction of the one set is in the other. -/
instance : HasSubset Directions :=
  ⟨fun s t => ∀ d, s.contains d = true → t.contains d = true⟩

/-- The other set has a direction besides. -/
instance : HasSSubset Directions :=
  ⟨fun s t => s ⊆ t ∧ ∃ d, t.contains d = true ∧ s.contains d = false⟩

/-- A set gets smaller when it loses an axis on which it has a direction. -/
theorem without_ssubset {s : Directions} {axis : Axis} (h : (s.along axis).isEmpty = false) :
    s.without axis ⊂ s := by
  obtain ⟨d, hd⟩ := isEmpty_eq_false_iff.mp h
  rw [contains_along, Bool.and_eq_true, decide_eq_true_eq] at hd
  refine ⟨fun e he => ?_, d, hd.1, ?_⟩
  · rw [contains_without, Bool.and_eq_true] at he
    exact he.1
  · simp [hd.2]

end Directions

/-- A border that blocks what is free without an axis lies across the other one. -/
theorem Border.axis_ne_of_without {α : Type} [Coordinate α] {b : Border α} {free : Directions}
    {axis : Axis} (h : b.blocksAny (free.without axis) = true) : b.axis ≠ axis := by
  obtain ⟨d, -, hfree, haxis⟩ := Border.blocksAny_iff.mp h
  rw [Directions.contains_without, Bool.and_eq_true, decide_eq_true_eq] at hfree
  exact haxis ▸ hfree.2

namespace Outline

variable {α : Type} [Scalar α]

/-! ## Searches -/

/-- The border that a search ends with is one of the outline, unless it was the best one from the
start. -/
theorem mem_of_leastFrom {measure? : Border α → Except ArithmeticError (Option α)}
    {outline : Outline α} {best : Option (Border α × α)} {b : Border α} {m : α}
    (h : leastFrom measure? best outline = .ok (some (b, m))) :
    best = some (b, m) ∨ b ∈ outline := by
  induction outline generalizing best with
  | nil => exact Or.inl (Except.ok.inj h)
  | cons c rest ih =>
    rw [leastFrom] at h
    split at h
    · cases h
    · exact (ih h).imp_right (List.mem_cons_of_mem c)
    · split at h
      · rcases ih h with hc | hb
        · cases hc
          exact Or.inr List.mem_cons_self
        · exact Or.inr (List.mem_cons_of_mem c hb)
      · exact (ih h).imp_right (List.mem_cons_of_mem c)

theorem mem_of_firstHit? {outline : Outline α} {motion : Segment α} {free : Directions}
    {b : Border α} (h : outline.firstHit? motion free = .ok (some b)) : b ∈ outline := by
  unfold firstHit? least? at h
  split at h
  · rename_i best hbest
    cases best with
    | none => cases h
    | some found =>
      cases h
      exact (mem_of_leastFrom hbest).resolve_left (fun hnone => by cases hnone)
  · cases h

/-! ## Turns -/

/-- A motion as it is pinned so far, and the directions in which it is free. -/
structure Course (α : Type) where
  /-- The motion. -/
  motion : Segment α
  /-- The directions that are free. -/
  free : Directions

/-- Where a motion starts out, free in all directions in which it goes. -/
def Course.start (motion : Segment α) : Course α :=
  ⟨motion, motion.directions⟩

/-- A turn : the motion is pinned to the border that it hits first, and the axis across that border
is settled. -/
structure Turn (outline : Outline α) (margin : α) (c : Course α) (b : Border α) (d : Course α) :
    Prop where
  hit : outline.firstHit? c.motion c.free = .ok (some b)
  stop : b.stop c.motion c.free margin = .ok d.motion
  free : d.free = c.free.without b.axis

/-- Some turns, with the borders that the motion is pinned to. -/
inductive Turns (outline : Outline α) (margin : α) :
    Course α → List (Border α) → Course α → Prop where
  /-- No turn. -/
  | rest (c : Course α) : Turns outline margin c [] c
  /-- One turn, and others after it. -/
  | turn {c d last : Course α} {b : Border α} {borders : List (Border α)}
    (first : Turn outline margin c b d) (others : Turns outline margin d borders last) :
    Turns outline margin c (b :: borders) last

/-- Whether there is nothing left to stop : no direction is free, or no border is hit. -/
def Course.Over (outline : Outline α) (c : Course α) : Prop :=
  c.free.isEmpty = true ∨ outline.firstHit? c.motion c.free = .ok none

/-- Why the next turn cannot be made : the search fails, or the arithmetic at the border. -/
inductive Course.Fails (outline : Outline α) (margin : α) (c : Course α) (e : ArithmeticError) :
    Prop where
  | search (h : outline.firstHit? c.motion c.free = .error e)
  | stop {b : Border α} (hit : outline.firstHit? c.motion c.free = .ok (some b))
    (h : b.stop c.motion c.free margin = .error e)

variable {outline : Outline α} {margin : α} {c d last : Course α} {b : Border α}
  {borders : List (Border α)}

/-- With every turn fewer directions are free. -/
theorem Turn.free_ssubset (h : Turn outline margin c b d) : d.free ⊂ c.free := by
  rw [h.free]
  exact Directions.without_ssubset (Border.along_of_blocksAny (blocksAny_of_firstHit? h.hit))

theorem Turns.mem (h : Turns outline margin c borders last) : ∀ b ∈ borders, b ∈ outline := by
  induction h with
  | rest => exact fun b hb => by cases hb
  | turn first _ ih => exact List.forall_mem_cons.mpr ⟨mem_of_firstHit? first.hit, ih⟩

/-- Every border that a motion is pinned to blocks a direction that was free from the start. -/
theorem Turns.blocks (h : Turns outline margin c borders last) :
    ∀ b ∈ borders, b.blocksAny c.free = true := by
  induction h with
  | rest => exact fun b hb => by cases hb
  | turn first _ ih =>
    rw [first.free] at ih
    exact List.forall_mem_cons.mpr ⟨blocksAny_of_firstHit? first.hit, fun b hb =>
      Border.blocksAny_of_without (ih b hb)⟩

/-- Of the borders that a motion is pinned to, no two lie across the same axis. -/
theorem Turns.axes (h : Turns outline margin c borders last) :
    borders.Pairwise fun b b' => b.axis ≠ b'.axis := by
  induction h with
  | rest => exact List.Pairwise.nil
  | turn first others ih =>
    refine List.pairwise_cons.mpr ⟨fun b' hb' => ?_, ih⟩
    have hblocks := others.blocks b' hb'
    rw [first.free] at hblocks
    exact (Border.axis_ne_of_without hblocks).symm

/-- Whether borders are some of an outline that stop a motion in these directions, at most one
across each axis. -/
structure OnePerAxis (outline : Outline α) (directions : Directions) (borders : List (Border α)) :
    Prop where
  length_le : borders.length ≤ 2
  horizontal : (borders.countP fun b => b.isHorizontal) ≤ 1
  vertical : (borders.countP fun b => !b.isHorizontal) ≤ 1
  mem : ∀ b ∈ borders, b ∈ outline
  blocks : ∀ b ∈ borders, b.blocksAny directions = true

/-- Of borders across different axes at most one is horizontal, and at most one is vertical. -/
theorem countP_isHorizontal_le {borders : List (Border α)}
    (h : borders.Pairwise fun b b' => b.axis ≠ b'.axis) (horizontal : Bool) :
    (borders.countP fun b => decide (b.isHorizontal = horizontal)) ≤ 1 := by
  have hexclusive : borders.Pairwise fun b b' =>
      b.isHorizontal = horizontal → ¬b'.isHorizontal = horizontal :=
    h.imp fun hne hb hb' => hne (by unfold Border.axis; rw [hb, hb'])
  rw [countP_of_exclusive hexclusive]
  split <;> decide

theorem Turns.onePerAxis (h : Turns outline margin c borders last) :
    OnePerAxis outline c.free borders := by
  have hhorizontal : (borders.countP fun b => b.isHorizontal) ≤ 1 := by
    simpa only [Bool.decide_eq_true] using countP_isHorizontal_le h.axes true
  have hvertical : (borders.countP fun b => !b.isHorizontal) ≤ 1 := by
    simpa only [Bool.decide_eq_false] using countP_isHorizontal_le h.axes false
  have hlength := borders.length_eq_countP_add_countP fun b => b.isHorizontal
  simp only [Bool.not_eq_true, Bool.decide_eq_false] at hlength
  exact ⟨by omega, hhorizontal, hvertical, h.mem, h.blocks⟩

/-- A motion can be turned until there is nothing left to stop, or until a turn fails. What comes of
it is what `clamp` answers. -/
theorem exists_turns (outline : Outline α) (margin : α) (c : Course α) :
    ∃ borders last, Turns outline margin c borders last ∧
      (last.Over outline ∧ outline.clamp margin c.motion c.free = .ok (last.motion, borders) ∨
        ∃ e, last.Fails outline margin e ∧ outline.clamp margin c.motion c.free = .error e) := by
  unfold clamp
  split
  · rename_i hempty
    exact ⟨[], c, .rest c, Or.inl ⟨Or.inl hempty, rfl⟩⟩
  · split
    · rename_i e he
      exact ⟨[], c, .rest c, Or.inr ⟨e, .search he, rfl⟩⟩
    · rename_i hnone
      exact ⟨[], c, .rest c, Or.inl ⟨Or.inr hnone, rfl⟩⟩
    · rename_i b hit
      split
      · rename_i e he
        exact ⟨[], c, .rest c, Or.inr ⟨e, .stop hit he, rfl⟩⟩
      · rename_i stopped hstop
        obtain ⟨borders, last, hturns, hends⟩ :=
          exists_turns outline margin ⟨stopped, c.free.without b.axis⟩
        refine ⟨b :: borders, last, .turn ⟨hit, hstop, rfl⟩ hturns, ?_⟩
        rcases hends with ⟨hover, hok⟩ | ⟨e, hfails, herror⟩
        · exact Or.inl ⟨hover, by rw [hok]⟩
        · exact Or.inr ⟨e, hfails, by rw [herror]⟩
termination_by c.free.size
decreasing_by
  exact Directions.size_without_lt (Border.along_of_blocksAny (blocksAny_of_firstHit? ‹_›))

/-! ## Positions that come back -/

/-- The motion that is searched, with its end nudged and as seen from the origin. -/
def request? (step : α) (origin before asked : Point α) : Except ArithmeticError (Segment α) := do
  let x ← nudge step before.x asked.x
  let y ← nudge step before.y asked.y
  let requested ← Point.sub ⟨x, y⟩ origin
  let start ← before.sub origin
  return ⟨start, requested⟩

/-- The borders that stopped a motion are those that the motion that is searched was clamped at. -/
theorem clamp_of_confine {origin before asked : Point α} {step : α} {confined : Confined α}
    (h : outline.confine origin before asked margin step = .ok confined) :
    confined.stoppedBy = [] ∨ ∃ motion last, request? step origin before asked = .ok motion ∧
      outline.clamp margin motion motion.directions = .ok (last, confined.stoppedBy) := by
  unfold confine at h
  split at h
  · cases h
    exact Or.inl rfl
  · obtain ⟨x, hx, h⟩ := bind_eq_ok_iff.mp h
    obtain ⟨y, hy, h⟩ := bind_eq_ok_iff.mp h
    obtain ⟨requested, hrequested, h⟩ := bind_eq_ok_iff.mp h
    obtain ⟨start, hstart, h⟩ := bind_eq_ok_iff.mp h
    obtain ⟨⟨last, borders⟩, hclamp, h⟩ := bind_eq_ok_iff.mp h
    have hmotion : request? step origin before asked = .ok ⟨start, requested⟩ := by
      unfold request?
      rw [hx, hy]
      show (Point.sub ⟨x, y⟩ origin >>= _) = _
      rw [hrequested, hstart]
      rfl
    simp only at h
    split at h
    · cases h
      exact Or.inl rfl
    · obtain ⟨stopped, -, h⟩ := bind_eq_ok_iff.mp h
      cases h
      exact Or.inr ⟨_, last, hmotion, hclamp⟩

/-- A motion that is confined has been turned until nothing was left to stop. -/
theorem turns_of_confine {origin before asked : Point α} {step : α} {confined : Confined α}
    (h : outline.confine origin before asked margin step = .ok confined) :
    confined.stoppedBy = [] ∨ ∃ motion last, request? step origin before asked = .ok motion ∧
      Turns outline margin (.start motion) confined.stoppedBy last ∧ last.Over outline := by
  refine (clamp_of_confine h).imp_right ?_
  rintro ⟨motion, stopped, hmotion, hclamp⟩
  obtain ⟨borders, last, hturns, ⟨hover, hok⟩ | ⟨e, -, herror⟩⟩ :=
    exists_turns outline margin (.start motion)
  · cases hclamp.symm.trans hok
    exact ⟨motion, last, hmotion, hturns, hover⟩
  · cases hclamp.symm.trans herror

/-- Over fractions every motion is confined. -/
theorem exists_confined (outline : Outline Rat) (origin before asked : Point Rat)
    (margin step : Rat) :
    ∃ confined, outline.confine origin before asked margin step = .ok confined := by
  cases outline with
  | nil => exact ⟨_, rfl⟩
  | cons b rest =>
    obtain ⟨last, borders, hclamp, -⟩ := exists_clamp (b :: rest) margin
      (requested step origin before asked) (requested step origin before asked).directions
    exact ⟨_, confine_of_clamp (List.cons_ne_nil b rest) hclamp⟩

/-- Whatever the borders and the numbers are, each turn leaves fewer directions free, the turns of a
motion pin it to at most one border across each axis, and they end : with nothing left to stop, or
in an error of the arithmetic. So a motion that is confined has been stopped by at most one border
across each axis. Over fractions every motion is confined. -/
theorem stops_once_per_axis :
    (∀ {α : Type} [Scalar α] (outline : Outline α) (margin : α),
      (∀ c b d, Turn outline margin c b d → d.free ⊂ c.free) ∧
      (∀ motion borders last, Turns outline margin (.start motion) borders last →
        OnePerAxis outline motion.directions borders) ∧
      (∀ motion, ∃ borders last, Turns outline margin (.start motion) borders last ∧
        (last.Over outline ∧
            outline.clamp margin motion motion.directions = .ok (last.motion, borders) ∨
          ∃ e, last.Fails outline margin e ∧
            outline.clamp margin motion motion.directions = .error e)) ∧
      ∀ origin before asked step confined,
        outline.confine origin before asked margin step = .ok confined →
          confined.stoppedBy = [] ∨ ∃ motion last,
            request? step origin before asked = .ok motion ∧
            Turns outline margin (.start motion) confined.stoppedBy last ∧ last.Over outline ∧
            OnePerAxis outline motion.directions confined.stoppedBy) ∧
    ∀ (outline : Outline Rat) (origin before asked : Point Rat) (margin step : Rat),
      ∃ confined, outline.confine origin before asked margin step = .ok confined := by
  refine ⟨fun outline margin => ⟨fun c b d h => h.free_ssubset, fun motion borders last h =>
    h.onePerAxis, fun motion => exists_turns outline margin (.start motion), ?_⟩, exists_confined⟩
  intro origin before asked step confined h
  refine (turns_of_confine h).imp_right ?_
  rintro ⟨motion, last, hmotion, hturns, hover⟩
  exact ⟨motion, last, hmotion, hturns, hover, hturns.onePerAxis⟩

/-- Two borders that cross and block all directions, the second one drawn backwards. -/
def crossbars : Outline Rat :=
  [⟨⟨⟨10, 0⟩, ⟨10, 20⟩⟩, ⟨true, true, true, true⟩⟩, ⟨⟨⟨20, 10⟩, ⟨0, 10⟩⟩, ⟨true, true, true, true⟩⟩]

/-- A motion to where the two borders cross is pinned to the first one, and then to the other. -/
theorem stops_once_per_axis_crossbars :
    (∃ motion b d, Turn crossbars 1 (.start motion) b d ∧ d.free ⊂ motion.directions ∧
      Turns crossbars 1 (.start motion) [b] d ∧ OnePerAxis crossbars motion.directions [b]) ∧
    crossbars.confine ⟨0, 0⟩ ⟨5, 5⟩ ⟨20, 20⟩ 1 0 = .ok ⟨⟨0, 9⟩, crossbars⟩ ∧
    ∃ motion last, request? 0 ⟨0, 0⟩ ⟨5, 5⟩ ⟨20, 20⟩ = .ok motion ∧
      Turns crossbars 1 (.start motion) crossbars last ∧ last.Over crossbars ∧
      OnePerAxis crossbars motion.directions crossbars := by
  obtain ⟨hshrinks, hstops, -, hconfined⟩ := stops_once_per_axis.1 crossbars 1
  have hturn : Turn crossbars 1 (.start ⟨⟨5, 5⟩, ⟨20, 20⟩⟩)
      ⟨⟨⟨10, 0⟩, ⟨10, 20⟩⟩, ⟨true, true, true, true⟩⟩ ⟨⟨⟨5, 5⟩, ⟨9, 20⟩⟩, .only .down⟩ :=
    ⟨by decide +kernel, by decide +kernel, by decide +kernel⟩
  have hturns := Turns.turn hturn (.rest _)
  have hconfine : crossbars.confine ⟨0, 0⟩ ⟨5, 5⟩ ⟨20, 20⟩ 1 0 = .ok ⟨⟨0, 9⟩, crossbars⟩ := by
    decide +kernel
  exact ⟨⟨_, _, _, hturn, hshrinks _ _ _ hturn, hturns, hstops _ _ _ hturns⟩, hconfine,
    (hconfined _ _ _ _ _ hconfine).resolve_left (List.cons_ne_nil _ _)⟩

end Outline

end Confinement
