import Confinement.Proofs.Runs

/-!
# Joining once is enough

Joining takes borders in any order, as long as each goes to the right or down : horizontal ones stay
as they are, and every side of a pixel has as many borders along it as before, with each blocking.
If the vertical ones come from top to bottom and do not overlap, joining leaves none that goes on
where another ends, so that there is nothing left to join (`Run.join?_of_not_continues`), and
joining again changes nothing (`Run.exists_join?_settled`).
-/

namespace Confinement

/-- A border goes to the right or down if and only if it can be put together from its ends and
these come in order. -/
theorem Border.proper_iff {b : Border Int} : b.Proper ↔
    Border.ofSegment? b.line b.blocks = .ok b ∧
      b.line.start.x ≤ b.line.stop.x ∧ b.line.start.y ≤ b.line.stop.y := by
  have hbuilt : Border.ofSegment? b.line b.blocks = .ok b ↔
      ¬(b.line.start.x = b.line.stop.x ↔ b.line.start.y = b.line.stop.y) := by
    unfold Border.ofSegment?
    by_cases hx : b.line.start.x = b.line.stop.x <;>
      by_cases hy : b.line.start.y = b.line.stop.y <;> simp [hx, hy]
  rw [hbuilt]
  unfold Proper
  omega

namespace Run

/-- Borders of which none continues another, nor a run, take places of their own. -/
theorem foldlM_step_of_not_continues {runs : List (Run Int)} {more : List (Border Int)}
    (hs : ∀ r ∈ runs, r.Sound) (hmore : ∀ b ∈ more, b.Proper)
    (hnone : ∀ b ∈ more, ∀ c ∈ runs.map Run.border ++ more, b.Upright → c.Upright →
      ¬b.Continues c) :
    ∃ runs', more.foldlM step runs = .ok runs' ∧
      runs'.map Run.border = runs.map Run.border ++ more := by
  induction more generalizing runs with
  | nil => exact ⟨runs, rfl, (List.append_nil _).symm⟩
  | cons b more ih =>
    obtain ⟨hb, hmore⟩ := List.forall_mem_cons.mp hmore
    obtain ⟨runs₁, hstep, htaken⟩ := exists_step hs hb
    have hs₁ := ((Accounts.refl hs).taken hb htaken).sound
    have hborders : runs₁.map Run.border = runs.map Run.border ++ [b] := by
      cases htaken with
      | horizontal => simp
      | opened => rw [List.map_append, map_border_closeAt]; rfl
      | @lengthened hup before after r heq hr hcontinues =>
        have hmem : r.border ∈ runs.map Run.border := by
          rw [← map_border_closeAt b.line.stop b.blocks, heq]
          simp
        exact absurd hcontinues
          (hnone b List.mem_cons_self _ (List.mem_append_left _ hmem) hup hr)
    obtain ⟨runs₂, hfold, hall⟩ := ih hs₁ hmore fun c hc d hd => by
      rw [hborders, ← List.append_cons] at hd
      exact hnone c (List.mem_cons_of_mem _ hc) d hd
    refine ⟨runs₂, ?_, ?_⟩
    · rw [List.foldlM_cons, hstep]
      exact hfold
    · rw [hall, hborders, ← List.append_cons]

/-- Where no border goes on where another ends, joining leaves all as they are. -/
theorem join?_of_not_continues {borders : List (Border Int)} (h : ∀ b ∈ borders, b.Proper)
    (hnone : ∀ b ∈ borders, ∀ c ∈ borders, b.Upright → c.Upright → ¬c.Continues b) :
    join? borders = .ok borders := by
  obtain ⟨runs, hfold, hborders⟩ := @foldlM_step_of_not_continues [] borders (by simp) h
    fun b hb c hc hup hup' => hnone c hc b hb hup' hup
  unfold join?
  rw [hfold]
  exact congrArg Except.ok hborders

/-- Of vertical borders with the same column and blocking that do not overlap, at most one runs
along a side. -/
theorem countLeft_le_one {borders : List (Border Int)}
    (hapart : borders.Pairwise fun b c => b.Upright → c.Upright →
      b.line.start.x = c.line.start.x → b.blocks = c.blocks →
        b.line.stop.y ≤ c.line.start.y ∨ c.line.stop.y ≤ b.line.start.y)
    (x y : Int) (blocks : Directions) : Outline.countLeft borders x y blocks ≤ 1 := by
  have hup : ∀ b : Border Int, b.AlongLeft x y → b.Upright := fun b ⟨hx, hx', hy, hy'⟩ =>
    ⟨hx.trans hx'.symm, by omega⟩
  have hexclusive : borders.Pairwise fun b c =>
      (b.AlongLeft x y ∧ b.blocks = blocks) → ¬(c.AlongLeft x y ∧ c.blocks = blocks) := by
    refine hapart.imp fun {b c} hbc hb hc => ?_
    have hdisjoint := hbc (hup b hb.1) (hup c hc.1) (hb.1.1.trans hc.1.1.symm)
      (hb.2.trans hc.2.symm)
    have := hb.1.2.2
    have := hc.1.2.2
    omega
  rw [Outline.countLeft, countP_of_exclusive hexclusive]
  split <;> decide

/-- Borders that go to the right or down are joined : horizontal ones stay as they are, in their
order, and along the side of every pixel run as many as before, with each blocking. If moreover the
vertical ones come from top to bottom, and no two in one column with the same blocking overlap, then
none goes on where another ends, and joining again changes nothing. -/
theorem exists_join?_settled {borders : List (Border Int)}
    (h : ∀ b ∈ borders, Border.ofSegment? b.line b.blocks = .ok b ∧
      b.line.start.x ≤ b.line.stop.x ∧ b.line.start.y ≤ b.line.stop.y) :
    ∃ joined, join? borders = .ok joined ∧
      joined.filter Border.isHorizontal = borders.filter Border.isHorizontal ∧
      (∀ x y blocks, Outline.countLeft joined x y blocks = Outline.countLeft borders x y blocks) ∧
      ((borders.Pairwise fun b c => b.Upright → c.Upright → b.line.start.y ≤ c.line.start.y) →
        (borders.Pairwise fun b c => b.Upright → c.Upright →
          b.line.start.x = c.line.start.x → b.blocks = c.blocks →
            b.line.stop.y ≤ c.line.start.y ∨ c.line.stop.y ≤ b.line.start.y) →
        (∀ b ∈ joined, ∀ c ∈ joined, b.Upright → c.Upright → ¬c.Continues b) ∧
          join? joined = .ok joined) := by
  have hproper : ∀ b ∈ borders, b.Proper := fun b hb => Border.proper_iff.mpr (h b hb)
  obtain ⟨joined, hjoin, hjoined, -, hleft⟩ := exists_join? hproper
  refine ⟨joined, hjoin, horizontals_join? hproper hjoin, hleft, fun hsorted hapart => ?_⟩
  have hnone := not_continues_join? hproper hsorted (countLeft_le_one hapart) hjoin
  exact ⟨hnone, join?_of_not_continues hjoined hnone⟩

/-- Sides of two boxes in different columns, one of which goes on below an edge. -/
def brokenSides : List (Border Int) :=
  [.vertical 0 0 2 .left, .vertical 3 0 2 .right, .horizontal 3 5 2 .up, .vertical 0 2 4 .left,
    .vertical 5 2 4 .right]

theorem exists_join?_settled_brokenSides : ∃ joined, join? brokenSides = .ok joined ∧
    joined.filter Border.isHorizontal = brokenSides.filter Border.isHorizontal ∧
    (∀ x y blocks, Outline.countLeft joined x y blocks =
      Outline.countLeft brokenSides x y blocks) ∧
    (∀ b ∈ joined, ∀ c ∈ joined, b.Upright → c.Upright → ¬c.Continues b) ∧
    join? joined = .ok joined := by
  obtain ⟨joined, hjoin, hhorizontal, hleft, hsettled⟩ :=
    @exists_join?_settled brokenSides (by decide)
  refine ⟨joined, hjoin, hhorizontal, hleft, hsettled ?_ ?_⟩
  · simp [brokenSides, Border.Upright, Border.vertical, Border.horizontal]
  · simp [brokenSides, Border.Upright, Border.vertical, Border.horizontal]

end Run

end Confinement
