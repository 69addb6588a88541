import Confinement.Outline.Basic
import Mathlib.Data.List.Basic

/-!
# Sides of pixels

An outline is compared with its region side by side : `Border.AlongTop` and `Border.AlongLeft`
say whether a border runs along the top or the left side of a pixel, and `countTop` and
`countLeft` how many borders with a given blocking do. Every piece of a grid line between two
crossings is the top or the left side of one pixel, so the two counts see all of an outline.
-/

namespace Confinement

/-- Of entries of which no two have a property, one has it or none. -/
theorem countP_of_exclusive {α : Type} {p : α → Prop} [DecidablePred p] {xs : List α}
    (h : xs.Pairwise fun a b => p a → ¬p b) :
    xs.countP (fun a => decide (p a)) = if ∃ a ∈ xs, p a then 1 else 0 := by
  induction xs with
  | nil => simp
  | cons a xs ih =>
    rw [List.countP_cons, ih h.of_cons]
    by_cases ha : p a
    · have hnone : ¬∃ b ∈ xs, p b := by
        rintro ⟨b, hb, hpb⟩
        exact List.rel_of_pairwise_cons h hb ha hpb
      rw [if_neg hnone, if_pos (decide_eq_true ha), if_pos ⟨a, List.mem_cons_self, ha⟩]
    · have hsame : (∃ b ∈ a :: xs, p b) ↔ ∃ b ∈ xs, p b := by
        simp only [List.exists_mem_cons_iff, ha, false_or]
      simp only [hsame, decide_eq_true_eq, ha, if_false, Nat.add_zero]

/-- Of two conditions that exclude each other, one counts or none. -/
theorem ite_add_ite {p q : Prop} [Decidable p] [Decidable q] (h : ¬(p ∧ q)) :
    (if p then 1 else 0) + (if q then 1 else 0) = if p ∨ q then 1 else 0 := by
  by_cases hp : p
  · have hq : ¬q := fun hq => h ⟨hp, hq⟩
    simp only [hp, hq, if_true, if_false, true_or]
  · simp only [hp, if_false, false_or, Nat.zero_add]

/-- Of entries of which at most one is counted, any two that are counted are the same. -/
theorem eq_of_countP_le_one {α : Type} {p : α → Prop} [DecidablePred p] {xs : List α}
    (h : xs.countP (fun a => decide (p a)) ≤ 1) {a b : α} (ha : a ∈ xs) (hb : b ∈ xs) (hpa : p a)
    (hpb : p b) : a = b := by
  rw [List.countP_eq_length_filter] at h
  have hmem : ∀ c ∈ xs, p c → c ∈ xs.filter fun a => decide (p a) := fun c hc hpc =>
    List.mem_filter.mpr ⟨hc, decide_eq_true hpc⟩
  obtain ⟨c, hc⟩ := List.length_eq_one_iff.mp
    (Nat.le_antisymm h (List.length_pos_of_mem (hmem a ha hpa)))
  have ha' := hmem a ha hpa
  have hb' := hmem b hb hpb
  rw [hc] at ha' hb'
  exact (List.mem_singleton.mp ha').trans (List.mem_singleton.mp hb').symm

/-- Entries with one of two properties that exclude each other are counted by these. -/
theorem countP_or {α : Type} {p q s : α → Prop} [DecidablePred p] [DecidablePred q]
    [DecidablePred s] {xs : List α} (h : ∀ a ∈ xs, p a ↔ q a ∨ s a)
    (hexclude : ∀ a ∈ xs, ¬(q a ∧ s a)) :
    xs.countP (fun a => decide (p a)) =
      xs.countP (fun a => decide (q a)) + xs.countP fun a => decide (s a) := by
  induction xs with
  | nil => rfl
  | cons a xs ih =>
    obtain ⟨ha, hxs⟩ := List.forall_mem_cons.mp h
    obtain ⟨ha', hxs'⟩ := List.forall_mem_cons.mp hexclude
    simp only [List.countP_cons, decide_eq_true_eq, ih hxs hxs', ha, ← ite_add_ite ha']
    omega

namespace Border

/-- Whether a border runs along the top of a pixel. -/
def AlongTop (b : Border Int) (x y : Int) : Prop :=
  b.line.start.y = y ∧ b.line.stop.y = y ∧ b.line.start.x ≤ x ∧ x + 1 ≤ b.line.stop.x

instance (b : Border Int) (x y : Int) : Decidable (b.AlongTop x y) :=
  inferInstanceAs (Decidable (_ ∧ _ ∧ _ ∧ _))

/-- Whether a border runs along the left of a pixel. -/
def AlongLeft (b : Border Int) (x y : Int) : Prop :=
  b.line.start.x = x ∧ b.line.stop.x = x ∧ b.line.start.y ≤ y ∧ y + 1 ≤ b.line.stop.y

instance (b : Border Int) (x y : Int) : Decidable (b.AlongLeft x y) :=
  inferInstanceAs (Decidable (_ ∧ _ ∧ _ ∧ _))

theorem alongTop_horizontal {left right row x y : Int} {d : Direction} :
    (horizontal left right row d).AlongTop x y ↔ row = y ∧ left ≤ x ∧ x + 1 ≤ right := by
  simp only [AlongTop, horizontal, and_self_left]

theorem not_alongLeft_horizontal {left right row x y : Int} {d : Direction} :
    ¬(horizontal left right row d).AlongLeft x y := by
  simp only [AlongLeft, horizontal]
  omega

theorem alongLeft_vertical {column top bottom x y : Int} {d : Direction} :
    (vertical column top bottom d).AlongLeft x y ↔ column = x ∧ top ≤ y ∧ y + 1 ≤ bottom := by
  simp only [AlongLeft, vertical, and_self_left]

end Border

namespace Directions

theorem only_injective : Function.Injective only := by
  intro d e h
  cases d <;> cases e <;> first | rfl | cases h

end Directions

namespace Outline

/-- How many borders with a blocking run along the top of a pixel. -/
def countTop (outline : Outline Int) (x y : Int) (blocks : Directions) : Nat :=
  outline.countP fun b => decide (b.AlongTop x y ∧ b.blocks = blocks)

/-- How many borders with a blocking run along the left of a pixel. -/
def countLeft (outline : Outline Int) (x y : Int) (blocks : Directions) : Nat :=
  outline.countP fun b => decide (b.AlongLeft x y ∧ b.blocks = blocks)

variable (x y : Int) (blocks : Directions)

@[simp]
theorem countTop_nil : countTop [] x y blocks = 0 := rfl

@[simp]
theorem countLeft_nil : countLeft [] x y blocks = 0 := rfl

@[simp]
theorem countTop_append (o p : Outline Int) :
    countTop (o ++ p) x y blocks = countTop o x y blocks + countTop p x y blocks :=
  List.countP_append

@[simp]
theorem countLeft_append (o p : Outline Int) :
    countLeft (o ++ p) x y blocks = countLeft o x y blocks + countLeft p x y blocks :=
  List.countP_append

theorem countTop_cons (b : Border Int) (o : Outline Int) :
    countTop (b :: o) x y blocks =
      countTop o x y blocks + if b.AlongTop x y ∧ b.blocks = blocks then 1 else 0 := by
  simp only [countTop, List.countP_cons, decide_eq_true_eq]

theorem countLeft_cons (b : Border Int) (o : Outline Int) :
    countLeft (b :: o) x y blocks =
      countLeft o x y blocks + if b.AlongLeft x y ∧ b.blocks = blocks then 1 else 0 := by
  simp only [countLeft, List.countP_cons, decide_eq_true_eq]

variable {x y blocks}

theorem countTop_eq_zero {o : Outline Int} (h : ∀ b ∈ o, ¬b.AlongTop x y) :
    countTop o x y blocks = 0 := by
  rw [countTop, List.countP_eq_zero]
  intro b hb
  simp [h b hb]

theorem countLeft_eq_zero {o : Outline Int} (h : ∀ b ∈ o, ¬b.AlongLeft x y) :
    countLeft o x y blocks = 0 := by
  rw [countLeft, List.countP_eq_zero]
  intro b hb
  simp [h b hb]

end Outline

end Confinement
