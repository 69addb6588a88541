import Confinement.Outline.Basic

/-!
# Searching an outline

`Outline.least?` goes through the borders and keeps the first one whose measure is least. A
measure that is no finite number never counts. With the distance of the contact as measure it
finds the border a motion hits first (`Outline.firstHit?`), with the distance of the border
the one nearest to a point (`Outline.nearest?`).
-/

namespace Confinement

namespace Outline

variable {α : Type} [Scalar α]

/-- Whether a measure beats the best one so far. -/
def improves (best : Option (Border α × α)) (measure : α) : Bool :=
  match best with
  | none => Scalar.isFinite measure
  | some (_, least) => decide (measure < least)

/-- The first border of least measure, given the best one so far with its measure. A border
without a measure is passed over. -/
def leastFrom (measure? : Border α → Except ArithmeticError (Option α))
    (best : Option (Border α × α)) :
    Outline α → Except ArithmeticError (Option (Border α × α))
  | [] => .ok best
  | b :: rest =>
    match measure? b with
    | .error e => .error e
    | .ok none => leastFrom measure? best rest
    | .ok (some measure) =>
      if improves best measure then leastFrom measure? (some (b, measure)) rest
      else leastFrom measure? best rest

/-- The first border of least measure. -/
def least? (measure? : Border α → Except ArithmeticError (Option α)) (outline : Outline α) :
    Except ArithmeticError (Option (Border α)) :=
  match leastFrom measure? none outline with
  | .ok best => .ok (best.map (·.1))
  | .error e => .error e

/-- The border found has a measure, unless it was the best one from the start. -/
theorem measure_of_leastFrom {measure? : Border α → Except ArithmeticError (Option α)}
    {outline : Outline α} {best : Option (Border α × α)} {b : Border α} {m : α}
    (h : leastFrom measure? best outline = .ok (some (b, m))) :
    best = some (b, m) ∨ measure? b = .ok (some m) := by
  induction outline generalizing best with
  | nil =>
    simp only [leastFrom, Except.ok.injEq] at h
    exact Or.inl h
  | cons c rest ih =>
    simp only [leastFrom] at h
    split at h
    · cases h
    · exact ih h
    · rename_i measure hc
      split at h
      · rcases ih h with h' | h'
        · simp only [Option.some.injEq, Prod.mk.injEq] at h'
          obtain ⟨rfl, rfl⟩ := h'
          exact Or.inr hc
        · exact Or.inr h'
      · exact ih h

/-- The border found has a measure. -/
theorem measure_of_least? {measure? : Border α → Except ArithmeticError (Option α)}
    {outline : Outline α} {b : Border α} (h : least? measure? outline = .ok (some b)) :
    ∃ m, measure? b = .ok (some m) := by
  unfold least? at h
  split at h
  · rename_i best hbest
    cases best with
    | none => simp at h
    | some found =>
      simp only [Option.map_some, Except.ok.injEq, Option.some.injEq] at h
      subst h
      rcases measure_of_leastFrom hbest with h' | h'
      · cases h'
      · exact ⟨_, h'⟩
  · cases h

/-- The square of the distance that a motion covers up to a border that blocks one of the
directions, if it meets it. -/
def contact? (motion : Segment α) (free : Directions) (b : Border α) :
    Except ArithmeticError (Option α) :=
  if b.blocksAny free then do
    match ← b.line.intersection motion with
    | none => return none
    | some contact => return some (← contact.squaredDistance motion.start)
  else .ok none

/-- The border a motion hits first, of those that block one of the directions; at equal
distance the one earliest in the outline. -/
def firstHit? (outline : Outline α) (motion : Segment α) (free : Directions) :
    Except ArithmeticError (Option (Border α)) :=
  outline.least? (contact? motion free)

/-- The border that is hit blocks one of the directions. -/
theorem blocksAny_of_firstHit? {outline : Outline α} {motion : Segment α} {free : Directions}
    {b : Border α} (h : outline.firstHit? motion free = .ok (some b)) :
    b.blocksAny free = true := by
  obtain ⟨m, hm⟩ := measure_of_least? h
  unfold contact? at hm
  split at hm
  · assumption
  · cases hm

/-- The border nearest to a point; at equal distance the one earliest in the outline. -/
def nearest? (outline : Outline α) (p : Point α) : Except ArithmeticError (Option (Border α)) :=
  outline.least? fun b => some <$> b.squaredDistance p

end Outline

end Confinement
