import Confinement.Geometry.Border
import Mathlib.Data.List.Forall2
import Mathlib.Algebra.Order.Field.Rat

/-!
# Exact coordinates

Whole numbers always compare and add up, and serve as keys. Fractions do everything but
division by zero. So over `Int` and `Rat` the answers of the geometry are plain values; the
lemmas here say which, and later proofs rewrite with them.
-/

namespace Confinement

/-! ## Lists of answers -/

section Answers

variable {ε α β : Type}

/-- A list is mapped to the list of its entries' answers, if each has one. -/
theorem mapM_eq_ok_iff {f : α → Except ε β} {xs : List α} {ys : List β} :
    xs.mapM f = .ok ys ↔ List.Forall₂ (fun x y => f x = .ok y) xs ys := by
  constructor
  · intro h
    induction xs generalizing ys with
    | nil =>
      cases h
      exact List.Forall₂.nil
    | cons x xs ih =>
      rw [List.mapM_cons] at h
      cases hx : f x with
      | error e => rw [hx] at h; cases h
      | ok y =>
        cases hxs : xs.mapM f with
        | error e => rw [hx, hxs] at h; cases h
        | ok rest =>
          rw [hx, hxs] at h
          cases h
          exact List.Forall₂.cons hx (ih hxs)
  · intro h
    induction h with
    | nil => rfl
    | cons hx _ ih =>
      rw [List.mapM_cons, hx, ih]
      rfl

/-- A list is mapped if and only if each of its entries has an answer. -/
theorem exists_mapM_eq_ok_iff {f : α → Except ε β} {xs : List α} :
    (∃ ys, xs.mapM f = .ok ys) ↔ ∀ x ∈ xs, ∃ y, f x = .ok y := by
  simp only [mapM_eq_ok_iff]
  induction xs with
  | nil => simp
  | cons x xs ih =>
    simp only [List.forall₂_cons_left_iff, List.forall_mem_cons, ← ih]
    grind

/-- A check of every entry passes if each does. -/
theorem forM_eq_ok {f : α → Except ε PUnit} {xs : List α} (h : ∀ x ∈ xs, f x = .ok ⟨⟩) :
    xs.forM f = .ok ⟨⟩ := by
  induction xs with
  | nil => rfl
  | cons x xs ih =>
    have hx := h x List.mem_cons_self
    have hxs := ih fun y hy => h y (List.mem_cons_of_mem _ hy)
    show (f x >>= fun _ => xs.forM f) = .ok ⟨⟩
    rw [hx]
    exact hxs

/-- What goes on from an answer has one of its own. -/
theorem bind_eq_ok_iff {x : Except ε α} {f : α → Except ε β} {b : β} :
    x >>= f = .ok b ↔ ∃ a, x = .ok a ∧ f a = .ok b := by
  cases x with
  | error e => exact iff_of_false (fun h => nomatch h) (by simp)
  | ok a => exact ⟨fun h => ⟨a, rfl, h⟩, fun ⟨_, ha, h⟩ => Except.ok.inj ha ▸ h⟩

theorem mapError_eq_ok_iff {ε' : Type} {x : Except ε α} {f : ε → ε'} {a : α} :
    x.mapError f = .ok a ↔ x = .ok a := by
  cases x <;> simp [Except.mapError]

/-- Where every step of one run has its counterpart in another, so have the answers. -/
theorem foldlM_map_eq_ok {ε' α' β' : Type} {f : β → α → Except ε β} {g : β' → α' → Except ε' β'}
    {s : β → β'} {t : α → α'} (h : ∀ b a c, f b a = .ok c → g (s b) (t a) = .ok (s c))
    {xs : List α} {b c : β} (hfold : xs.foldlM f b = .ok c) :
    (xs.map t).foldlM g (s b) = .ok (s c) := by
  induction xs generalizing b with
  | nil =>
    cases hfold
    rfl
  | cons a xs ih =>
    rw [List.foldlM_cons] at hfold
    obtain ⟨d, hstep, hrest⟩ := bind_eq_ok_iff.mp hfold
    rw [List.map_cons, List.foldlM_cons, h b a d hstep]
    exact ih hrest

end Answers

/-! ## Whole numbers -/

namespace Coordinate

@[simp]
theorem before?_int (a b : Int) : before? a b = .ok (decide (a < b)) := rfl

@[simp]
theorem identical_int (a b : Int) : identical a b = decide (a = b) := rfl

@[simp]
theorem add_int (a b : Int) : (add a b : Except ArithmeticError Int) = .ok (a + b) := rfl

@[simp]
theorem ofInt_int (a : Int) : (ofInt a : Int) = a := rfl

theorem max_int (a b : Int) : Coordinate.max a b = a ⊔ b :=
  (max_def_lt a b).symm

theorem min_int (a b : Int) : Coordinate.min a b = a ⊓ b := by
  rw [inf_comm]
  exact (min_def_lt b a).symm

/-! ## Fractions -/

@[simp]
theorem add_rat (a b : Rat) : (add a b : Except ArithmeticError Rat) = .ok (a + b) := rfl

@[simp]
theorem ofInt_rat (a : Int) : (ofInt a : Rat) = a := rfl

theorem clamp_rat (a low high : Rat) : clamp a low high = (a ⊔ low) ⊓ high := by
  have hmax : Coordinate.max a low = a ⊔ low := (max_def_lt a low).symm
  have hmin : Coordinate.min (a ⊔ low) high = (a ⊔ low) ⊓ high := by
    rw [inf_comm]
    exact (min_def_lt high (a ⊔ low)).symm
  rw [clamp, hmax, hmin]

/-- A coordinate that is clamped to a range lies in it. -/
theorem clamp_mem {a low high : Rat} (h : low ≤ high) :
    low ≤ clamp a low high ∧ clamp a low high ≤ high := by
  rw [clamp_rat]
  exact ⟨le_inf le_sup_right h, inf_le_right⟩

end Coordinate

namespace Scalar

@[simp]
theorem sub_rat (a b : Rat) : (sub a b : Except ArithmeticError Rat) = .ok (a - b) := rfl

theorem div_rat {a b : Rat} (h : b ≠ 0) : (div a b : Except ArithmeticError Rat) = .ok (a / b) :=
  if_neg h

end Scalar

namespace Point

variable (p q : Point Rat)

@[simp]
theorem add_rat : p.add q = .ok ⟨p.x + q.x, p.y + q.y⟩ := rfl

@[simp]
theorem sub_rat : p.sub q = .ok ⟨p.x - q.x, p.y - q.y⟩ := rfl

@[simp]
theorem scale_rat (factor : Rat) : p.scale factor = .ok ⟨p.x * factor, p.y * factor⟩ := rfl

@[simp]
theorem cross_rat : p.cross q = .ok (p.x * q.y - p.y * q.x) := rfl

@[simp]
theorem squaredDistance_rat : p.squaredDistance q =
    .ok ((p.x - q.x) * (p.x - q.x) + (p.y - q.y) * (p.y - q.y)) := rfl

end Point

end Confinement
