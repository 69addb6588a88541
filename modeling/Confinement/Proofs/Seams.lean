import Confinement.Outline.Seam
import Confinement.Proofs.Regions
import Confinement.Proofs.Sides
import Mathlib.Algebra.BigOperators.Group.List.Basic
import Mathlib.Data.List.Sort
import Mathlib.Tactic.Ring

/-!
# What remains between touching rows

The sweep of `Seam.sweep?` goes through the edges of two rows. Its state is seen here as the
edges kept so far and the front : the pending edge, if there is one, and the edges to come
(`Seam.Swept`). Nothing kept reaches behind the front, the front is sorted, and edges of the
front that block the same way do not overlap. One step keeps this up, so the sweep never fails
(`Seam.step_eq_ok`, `Seam.foldlM_step`).

An edge counts 1 over its columns if it is a bottom edge and -1 if it is a top edge
(`Seam.Edge.weight`). Where two edges overlap their weights cancel, and so does what the sweep
drops : no step changes the balance of a column. As the edges kept do not overlap, the balance
tells which of them lies over a column (`Seam.exists_sweep?`).

The edges are sorted stably, which is sorting by insertion (`mergeSort_eq_insertionSort`). In that
form the sweep of two fixed rows can be evaluated (`Seam.borders?_of_touch`).
-/

namespace Confinement

/-! ## Stable sorting -/

/-- Values are sorted as they come by insertion, each before those that are not before it. -/
theorem mergeSort_eq_insertionSort {α : Type} {le : α → α → Bool}
    (htrans : ∀ a b c, le a b = true → le b c = true → le a c = true)
    (htotal : ∀ a b, (le a b || le b a) = true) (xs : List α) :
    xs.mergeSort le = xs.insertionSort fun a b => le a b = true := by
  induction xs with
  | nil => exact List.mergeSort_nil
  | cons a xs ih =>
    obtain ⟨front, back, hcons, hxs, hfront⟩ := List.mergeSort_cons htrans htotal a xs
    have hback : ∀ b ∈ back, le a b = true := by
      have hsorted := List.pairwise_mergeSort htrans htotal (a :: xs)
      rw [hcons] at hsorted
      exact fun b => List.rel_of_pairwise_cons (List.pairwise_append.mp hsorted).2.1
    have hfront' : ∀ b ∈ front, decide (¬le a b = true) = true := fun b hb => by
      simpa using hfront b hb
    rw [hcons, List.insertionSort_cons, ← ih, hxs, List.orderedInsert_eq_take_drop,
      List.takeWhile_append_of_pos hfront', List.dropWhile_append_of_pos hfront']
    cases back with
    | nil => simp
    | cons b back => simp [hback b List.mem_cons_self]

namespace Seam

/-! ## Edges -/

namespace Edge

/-- An edge that holds a column, the bottom or the top of a box. -/
structure Sound (e : Edge Int) : Prop where
  left_lt_right : e.left < e.right
  vertical : e.blocked = .down ∨ e.blocked = .up

/-- The columns of an edge. -/
def Covers (e : Edge Int) (x : Int) : Prop :=
  e.left ≤ x ∧ x < e.right

instance (e : Edge Int) (x : Int) : Decidable (e.Covers x) :=
  inferInstanceAs (Decidable (e.left ≤ x ∧ x < e.right))

/-- What an edge counts over a column. -/
def weight (x : Int) (e : Edge Int) : Int :=
  if e.Covers x then (if e.blocked = .down then 1 else -1) else 0

/-- The border of an edge at a row. -/
def border (y : Int) (e : Edge Int) : Border Int :=
  Border.horizontal e.left e.right y e.blocked

/-- Two edges that block the same way, one where the other ends, count as one. -/
theorem weight_chain {p e : Edge Int} (he : e.Sound) (hp : p.Sound)
    (hsame : e.blocked = p.blocked) (htouch : e.left = p.right) (x : Int) :
    weight x ⟨p.left, e.right, p.blocked⟩ = weight x p + weight x e := by
  have := he.left_lt_right
  have := hp.left_lt_right
  simp only [weight, Covers, hsame]
  split_ifs <;> omega

/-- What sticks out of two edges starts where the shorter one ends, and is the end of one of
them. -/
theorem remainder_spec {p e q : Edge Int} (hp : p.Sound) (he : e.Sound)
    (hq : q ∈ remainder p e) : q.Sound ∧ p.right ⊓ e.right = q.left ∧
      (q.right = p.right ∧ q.blocked = p.blocked ∨ q.right = e.right ∧ q.blocked = e.blocked) := by
  unfold remainder at hq
  split at hq
  · rename_i hlt
    cases hq
    exact ⟨⟨hlt, hp.vertical⟩, inf_eq_right.mpr (Int.le_of_lt hlt), Or.inl ⟨rfl, rfl⟩⟩
  · split at hq
    · rename_i hlt
      cases hq
      exact ⟨⟨hlt, he.vertical⟩, inf_eq_left.mpr (Int.le_of_lt hlt), Or.inr ⟨rfl, rfl⟩⟩
    · cases hq

end Edge

/-- What edges count over a column. -/
def balance (x : Int) (edges : List (Edge Int)) : Int :=
  (edges.map (Edge.weight x)).sum

@[simp]
theorem balance_nil (x : Int) : balance x [] = 0 := rfl

@[simp]
theorem balance_cons (x : Int) (e : Edge Int) (edges : List (Edge Int)) :
    balance x (e :: edges) = e.weight x + balance x edges := by
  simp [balance]

@[simp]
theorem balance_append (x : Int) (edges more : List (Edge Int)) :
    balance x (edges ++ more) = balance x edges + balance x more := by
  simp [balance]

/-- Of two edges that overlap and block opposite ways, the parts that stick out count as much
as both. -/
theorem balance_overlap {p e : Edge Int} (he : e.Sound) (hp : p.Sound)
    (hne : e.blocked ≠ p.blocked) (hle : p.left ≤ e.left) (hlt : e.left < p.right) (x : Int) :
    Edge.weight x ⟨p.left, e.left, p.blocked⟩ + balance x (remainder p e).toList =
      p.weight x + e.weight x := by
  have := he.left_lt_right
  unfold remainder
  rcases hp.vertical with hd | hd <;> rcases he.vertical with hd' | hd'
  · exact absurd (hd'.trans hd.symm) hne
  · split
    · simp [Edge.weight, Edge.Covers, hd, hd']
      split_ifs <;> omega
    · split
      · simp [Edge.weight, Edge.Covers, hd, hd']
        split_ifs <;> omega
      · simp [Edge.weight, Edge.Covers, hd, hd']
        split_ifs <;> omega
  · split
    · simp [Edge.weight, Edge.Covers, hd, hd']
      split_ifs <;> omega
    · split
      · simp [Edge.weight, Edge.Covers, hd, hd']
        split_ifs <;> omega
      · simp [Edge.weight, Edge.Covers, hd, hd']
        split_ifs <;> omega
  · exact absurd (hd'.trans hd.symm) hne

/-! ## The sweep -/

/-- Where the sweep stands : the edges kept, the last one first, and the front. -/
structure Swept (kept front : List (Edge Int)) : Prop where
  kept_sound : ∀ k ∈ kept, k.Sound
  kept_order : kept.Pairwise fun k j =>
    j.right ≤ k.left ∧ (j.right = k.left → j.blocked ≠ k.blocked)
  sound : ∀ e ∈ front, e.Sound
  sorted : front.Pairwise fun e f => e.left ≤ f.left
  apart : front.Pairwise fun e f => e.blocked = f.blocked → e.right ≤ f.left
  behind : ∀ k ∈ kept, ∀ e ∈ front, k.right ≤ e.left
  fresh : ∀ k ∈ kept, ∀ e ∈ front.head?, k.right = e.left → k.blocked ≠ e.blocked

namespace Swept

variable {kept front rest : List (Edge Int)} {p e : Edge Int}

/-- The edges kept, with one more unless it is empty. -/
def keepEdge (kept : List (Edge Int)) (e : Edge Int) : List (Edge Int) :=
  if e.left < e.right then e :: kept else kept

theorem balance_keepEdge (x : Int) : balance x (keepEdge kept e) = e.weight x + balance x kept := by
  unfold keepEdge
  split
  · rw [balance_cons]
  · rename_i h
    have hempty : e.weight x = 0 := if_neg fun hx => by unfold Edge.Covers at hx; omega
    rw [hempty, Int.zero_add]

/-- An edge behind which nothing kept reaches can be kept. -/
theorem keep_eq_ok (y : Int) (hs : ∀ k ∈ kept, k.Sound) (hb : ∀ k ∈ kept, k.right ≤ e.left) :
    keep y (kept.map (Edge.border y)) e = .ok ((keepEdge kept e).map (Edge.border y)) := by
  unfold keep keepEdge
  split
  · cases kept with
    | nil => rfl
    | cons k kept =>
      have hk := (hs k List.mem_cons_self).left_lt_right
      have hke := hb k List.mem_cons_self
      have hle : (k.border y).line.start.x ≤ e.left := by
        show k.left ≤ e.left
        omega
      simp only [List.map_cons, if_pos hle]
      rfl
  · rfl

theorem mem_keepEdge {k : Edge Int} (h : k ∈ keepEdge kept e) : k = e ∨ k ∈ kept := by
  unfold keepEdge at h
  split at h
  · exact List.mem_cons.mp h
  · exact Or.inr h

/-- What is kept of the first edge of the front comes after the edges kept so far. -/
theorem kept_keepEdge (h : Swept kept (p :: front)) (right : Int) :
    (∀ k ∈ keepEdge kept ⟨p.left, right, p.blocked⟩, k.Sound) ∧
      (keepEdge kept ⟨p.left, right, p.blocked⟩).Pairwise
        fun k j => j.right ≤ k.left ∧ (j.right = k.left → j.blocked ≠ k.blocked) := by
  unfold keepEdge
  split
  · rename_i hpart
    have hsound : (Edge.mk p.left right p.blocked).Sound :=
      ⟨hpart, (h.sound p List.mem_cons_self).vertical⟩
    refine ⟨List.forall_mem_cons.mpr ⟨hsound, h.kept_sound⟩,
      List.pairwise_cons.mpr ⟨fun k hk => ?_, h.kept_order⟩⟩
    exact ⟨h.behind k hk p List.mem_cons_self, h.fresh k hk p rfl⟩
  · exact ⟨h.kept_sound, h.kept_order⟩

theorem tail (h : Swept kept (p :: front)) :
    front.Pairwise (fun e f => e.left ≤ f.left) ∧
      front.Pairwise fun e f => e.blocked = f.blocked → e.right ≤ f.left :=
  ⟨h.sorted.of_cons, h.apart.of_cons⟩

/-- The first edge of the front is kept, as the next one lies apart or blocks another way. -/
theorem keep_head (h : Swept kept (p :: e :: rest)) (hle : p.right ≤ e.left)
    (hne : p.right = e.left → p.blocked ≠ e.blocked) : Swept (keepEdge kept p) (e :: rest) := by
  have hp := h.sound p List.mem_cons_self
  obtain ⟨hsound, horder⟩ := h.kept_keepEdge p.right
  refine ⟨hsound, horder, fun f hf => h.sound f (List.mem_cons_of_mem _ hf), h.tail.1, h.tail.2,
    fun k hk f hf => ?_, fun k hk f hf => ?_⟩
  · rcases mem_keepEdge hk with rfl | hk
    · rcases List.mem_cons.mp hf with rfl | hf
      · exact hle
      · exact hle.trans (List.rel_of_pairwise_cons h.tail.1 hf)
    · exact h.behind k hk f (List.mem_cons_of_mem _ hf)
  · cases hf
    rcases mem_keepEdge hk with rfl | hk
    · exact hne
    · have := h.behind k hk p List.mem_cons_self
      have := hp.left_lt_right
      omega

/-- The first edge of the front and the next one are joined. -/
theorem chain (h : Swept kept (p :: e :: rest)) (hsame : e.blocked = p.blocked)
    (htouch : e.left = p.right) : Swept kept (⟨p.left, e.right, p.blocked⟩ :: rest) := by
  have hp := h.sound p List.mem_cons_self
  have he := h.sound e (List.mem_cons_of_mem _ List.mem_cons_self)
  have := hp.left_lt_right
  have := he.left_lt_right
  refine ⟨h.kept_sound, h.kept_order, ?_, ?_, ?_, ?_, ?_⟩
  · refine List.forall_mem_cons.mpr ⟨⟨?_, hp.vertical⟩, fun f hf =>
      h.sound f (List.mem_cons_of_mem _ (List.mem_cons_of_mem _ hf))⟩
    show p.left < e.right
    omega
  · refine List.pairwise_cons.mpr ⟨fun f hf => ?_, h.tail.1.of_cons⟩
    exact List.rel_of_pairwise_cons h.sorted (List.mem_cons_of_mem _ hf)
  · refine List.pairwise_cons.mpr ⟨fun f hf hblocked => ?_, h.tail.2.of_cons⟩
    exact List.rel_of_pairwise_cons h.tail.2 hf (hsame.trans hblocked)
  · intro k hk
    refine List.forall_mem_cons.mpr ⟨h.behind k hk p List.mem_cons_self, fun f hf => ?_⟩
    exact h.behind k hk f (List.mem_cons_of_mem _ (List.mem_cons_of_mem _ hf))
  · intro k hk f hf
    cases hf
    exact h.fresh k hk p rfl

/-- Edges of the front that overlap block motion in opposite ways. -/
theorem blocked_ne (h : Swept kept (p :: e :: rest)) (hlt : e.left < p.right) :
    e.blocked ≠ p.blocked := fun hsame => by
  have := List.rel_of_pairwise_cons h.apart List.mem_cons_self hsame.symm
  omega

/-- Behind two edges of the front that block motion in opposite ways, no other edge starts before
the end of the shorter one. -/
theorem min_right_le (h : Swept kept (p :: e :: rest)) (hne : e.blocked ≠ p.blocked) :
    ∀ f ∈ rest, p.right ⊓ e.right ≤ f.left := by
  intro f hf
  have hmem : f ∈ e :: rest := List.mem_cons_of_mem _ hf
  have hfp := List.rel_of_pairwise_cons h.apart hmem
  have hfe := List.rel_of_pairwise_cons h.tail.2 hf
  -- there are only two ways to block motion
  have hcase : p.blocked = f.blocked ∨ e.blocked = f.blocked := by
    rcases (h.sound p List.mem_cons_self).vertical with h₁ | h₁ <;>
      rcases (h.sound e (List.mem_cons_of_mem _ List.mem_cons_self)).vertical with h₂ | h₂ <;>
      rcases (h.sound f (List.mem_cons_of_mem _ hmem)).vertical with h₃ | h₃ <;> simp_all
  rcases hcase with hsame | hsame
  · exact inf_le_left.trans (hfp hsame)
  · exact inf_le_right.trans (hfe hsame)

/-- Where the first edge of the front overlaps the next one, its part before that is kept, and
what sticks out behind both is pending. -/
theorem overlap (h : Swept kept (p :: e :: rest)) (hlt : e.left < p.right) :
    Swept (keepEdge kept ⟨p.left, e.left, p.blocked⟩) ((remainder p e).toList ++ rest) := by
  have hp := h.sound p List.mem_cons_self
  have he := h.sound e (List.mem_cons_of_mem _ List.mem_cons_self)
  have hle : p.left ≤ e.left := List.rel_of_pairwise_cons h.sorted List.mem_cons_self
  have hrest := h.min_right_le (h.blocked_ne hlt)
  have hfront : ∀ f ∈ (remainder p e).toList ++ rest, p.right ⊓ e.right ≤ f.left := by
    intro f hf
    rcases List.mem_append.mp hf with hf | hf
    · exact (Edge.remainder_spec hp he (Option.mem_toList.mp hf)).2.1.le
    · exact hrest f hf
  have hcut : e.left < p.right ⊓ e.right := lt_inf_iff.mpr ⟨hlt, he.left_lt_right⟩
  have hkept : ∀ k ∈ keepEdge kept ⟨p.left, e.left, p.blocked⟩, k.right ≤ e.left := by
    intro k hk
    rcases mem_keepEdge hk with rfl | hk
    · exact Int.le_refl e.left
    · exact (h.behind k hk p List.mem_cons_self).trans hle
  obtain ⟨hsound, horder⟩ := h.kept_keepEdge e.left
  refine ⟨hsound, horder, ?_, ?_, ?_, ?_, ?_⟩
  · intro f hf
    rcases List.mem_append.mp hf with hf | hf
    · exact (Edge.remainder_spec hp he (Option.mem_toList.mp hf)).1
    · exact h.sound f (List.mem_cons_of_mem _ (List.mem_cons_of_mem _ hf))
  · refine List.pairwise_append.mpr ⟨Option.pairwise_toList, h.tail.1.of_cons, ?_⟩
    intro q hq f hf
    exact (Edge.remainder_spec hp he (Option.mem_toList.mp hq)).2.1.ge.trans (hrest f hf)
  · refine List.pairwise_append.mpr ⟨Option.pairwise_toList, h.tail.2.of_cons, ?_⟩
    intro q hq f hf hblocked
    rcases (Edge.remainder_spec hp he (Option.mem_toList.mp hq)).2.2 with ⟨hr, hd⟩ | ⟨hr, hd⟩
    · rw [hr]
      exact List.rel_of_pairwise_cons h.apart (List.mem_cons_of_mem _ hf) (hd.symm.trans hblocked)
    · rw [hr]
      exact List.rel_of_pairwise_cons h.tail.2 hf (hd.symm.trans hblocked)
  · intro k hk f hf
    exact (hkept k hk).trans (hcut.le.trans (hfront f hf))
  · intro k hk f hf heq
    have := hkept k hk
    have := hcut.trans_le (hfront f (List.mem_of_mem_head? hf))
    omega

end Swept

/-- One step : the sweep goes on, nothing is lost, and no balance changes. -/
theorem step_eq_ok (y : Int) {kept rest : List (Edge Int)} {pending : Option (Edge Int)}
    {e : Edge Int} (h : Swept kept (pending.toList ++ e :: rest)) :
    ∃ kept' pending',
      step y ⟨pending, kept.map (Edge.border y)⟩ e = .ok ⟨pending', kept'.map (Edge.border y)⟩ ∧
      Swept kept' (pending'.toList ++ rest) ∧
      ∀ x, balance x kept' + balance x pending'.toList =
        balance x kept + balance x pending.toList + e.weight x := by
  cases pending with
  | none => exact ⟨kept, some e, rfl, h, fun x => by simp⟩
  | some p =>
    have h : Swept kept (p :: e :: rest) := h
    have hp := h.sound p List.mem_cons_self
    have he := h.sound e (List.mem_cons_of_mem _ List.mem_cons_self)
    have hle : p.left ≤ e.left := List.rel_of_pairwise_cons h.sorted List.mem_cons_self
    have hbehind : ∀ k ∈ kept, k.right ≤ p.left := fun k hk => h.behind k hk p List.mem_cons_self
    simp only [step, not_not.mpr hle, if_false]
    by_cases hchain : e.left = p.right ∧ e.blocked = p.blocked
    · refine ⟨kept, some ⟨p.left, e.right, p.blocked⟩, ?_, h.chain hchain.2 hchain.1, fun x => ?_⟩
      · simp [hchain.1, hchain.2]
      · simp [Edge.weight_chain he hp hchain.2 hchain.1, add_assoc]
    · have hchain' : (e.left == p.right && decide (e.blocked = p.blocked)) = false := by
        simpa [Bool.and_eq_false_iff, ← Classical.not_and_iff_not_or_not] using hchain
      simp only [hchain', Bool.false_eq_true, if_false]
      by_cases hapart : p.right ≤ e.left
      · refine ⟨Swept.keepEdge kept p, some e, ?_,
          h.keep_head hapart fun heq hsame => hchain ⟨heq.symm, hsame.symm⟩, fun x => ?_⟩
        · rw [if_pos hapart, Swept.keep_eq_ok y h.kept_sound hbehind]
          rfl
        · simp [Swept.balance_keepEdge]
          ring
      · have hlt : e.left < p.right := by omega
        refine ⟨_, _, ?_, h.overlap hlt, fun x => ?_⟩
        · have hkeep : keep y (kept.map (Edge.border y)) ⟨p.left, e.left, p.blocked⟩ = _ :=
            Swept.keep_eq_ok y h.kept_sound hbehind
          rw [if_neg hapart, hkeep]
          rfl
        · rw [Swept.balance_keepEdge, Option.toList_some, balance_cons, balance_nil]
          have := balance_overlap he hp (h.blocked_ne hlt) hle hlt x
          omega

/-- All steps : what is kept at the end has the balance of the front. -/
theorem foldlM_step (y : Int) {kept rest : List (Edge Int)} {pending : Option (Edge Int)}
    (h : Swept kept (pending.toList ++ rest)) :
    ∃ kept' pending', rest.foldlM (step y) ⟨pending, kept.map (Edge.border y)⟩ =
        .ok ⟨pending', kept'.map (Edge.border y)⟩ ∧
      Swept kept' pending'.toList ∧
      ∀ x, balance x kept' + balance x pending'.toList =
        balance x kept + balance x pending.toList + balance x rest := by
  induction rest generalizing kept pending with
  | nil => exact ⟨kept, pending, rfl, by simpa using h, fun x => by simp⟩
  | cons e rest ih =>
    obtain ⟨kept₁, pending₁, hstep, hswept₁, hbal₁⟩ := step_eq_ok y h
    obtain ⟨kept₂, pending₂, hfold, hswept₂, hbal₂⟩ := ih hswept₁
    refine ⟨kept₂, pending₂, ?_, hswept₂, fun x => ?_⟩
    · rw [List.foldlM_cons, hstep]
      exact hfold
    · rw [hbal₂, hbal₁, balance_cons]
      ring

/-- Sweeping sorted edges, of which those that block the same way do not overlap, gives edges
from left to right that have the balance of all. -/
theorem exists_sweep? (y : Int) {edges : List (Edge Int)} (h : Swept [] edges) :
    ∃ kept, sweep? y edges = .ok (kept.map (Edge.border y)).reverse ∧ Swept kept [] ∧
      ∀ x, balance x kept = balance x edges := by
  have hstart : Swept [] ((none : Option (Edge Int)).toList ++ edges) := by simpa using h
  obtain ⟨kept, pending, hfold, hswept, hbal⟩ := foldlM_step y hstart
  have hfold : edges.foldlM (step y) ⟨none, []⟩ = .ok ⟨pending, kept.map (Edge.border y)⟩ := hfold
  unfold sweep?
  rw [hfold]
  cases pending with
  | none => exact ⟨kept, rfl, hswept, fun x => by simpa using hbal x⟩
  | some p =>
    have hswept : Swept kept (p :: []) := hswept
    obtain ⟨hsound, horder⟩ := hswept.kept_keepEdge p.right
    refine ⟨Swept.keepEdge kept p, ?_, ?_, fun x => ?_⟩
    · have hkeep := Swept.keep_eq_ok y hswept.kept_sound fun k hk =>
        hswept.behind k hk p List.mem_cons_self
      show (keep y (kept.map (Edge.border y)) p >>= fun found => pure found.reverse) = _
      rw [hkeep]
      rfl
    · exact ⟨hsound, horder, by simp, List.Pairwise.nil, List.Pairwise.nil, by simp, by simp⟩
    · have := hbal x
      simp at this
      rw [Swept.balance_keepEdge, ← this]
      ring

/-! ## What is left over a column -/

theorem Swept.exclusive {kept front : List (Edge Int)} (h : Swept kept front) (x : Int) :
    kept.Pairwise fun k j => k.Covers x → ¬j.Covers x := by
  refine h.kept_order.imp fun {k j} hkj hk hj => ?_
  have := hk.1
  have := hj.2
  omega

theorem balance_eq_zero {edges : List (Edge Int)} {x : Int} (h : ∀ e ∈ edges, ¬e.Covers x) :
    balance x edges = 0 := by
  refine List.sum_eq_zero fun n hn => ?_
  obtain ⟨e, he, rfl⟩ := List.mem_map.mp hn
  exact if_neg (h e he)

/-- An edge that covers a column alone makes up its balance. -/
theorem balance_of_exclusive {edges : List (Edge Int)} {x : Int}
    (h : edges.Pairwise fun k j => k.Covers x → ¬j.Covers x) {e : Edge Int} (he : e ∈ edges)
    (hx : e.Covers x) : balance x edges = e.weight x := by
  induction edges with
  | nil => exact absurd he List.not_mem_nil
  | cons f edges ih =>
    rw [balance_cons]
    rcases List.mem_cons.mp he with rfl | he
    · rw [balance_eq_zero fun g hg => List.rel_of_pairwise_cons h hg hx, Int.add_zero]
    · have hf : ¬f.Covers x := fun hf => List.rel_of_pairwise_cons h he hf hx
      rw [ih h.of_cons he, Edge.weight, if_neg hf, Int.zero_add]

/-- The balance of a column is that of the one edge over it. -/
theorem balance_cases {edges : List (Edge Int)} {x : Int} (hs : ∀ e ∈ edges, e.Sound)
    (h : edges.Pairwise fun k j => k.Covers x → ¬j.Covers x) :
    ((∃ e ∈ edges, e.Covers x ∧ e.blocked = .down) ↔ balance x edges = 1) ∧
      ((∃ e ∈ edges, e.Covers x ∧ e.blocked = .up) ↔ balance x edges = -1) := by
  by_cases hnone : ∃ e ∈ edges, e.Covers x
  · obtain ⟨e, he, hx⟩ := hnone
    have hweight : e.weight x = if e.blocked = .down then 1 else -1 := if_pos hx
    rw [balance_of_exclusive h he hx, hweight]
    have hunique : ∀ f ∈ edges, f.Covers x → f.weight x = e.weight x := fun f hf hfx =>
      (balance_of_exclusive h hf hfx).symm.trans (balance_of_exclusive h he hx)
    have hblocked : ∀ f ∈ edges, f.Covers x → f.blocked = e.blocked := by
      intro f hf hfx
      have := hunique f hf hfx
      rw [hweight, Edge.weight, if_pos hfx] at this
      rcases (hs f hf).vertical with hd | hd <;> rcases (hs e he).vertical with hd' | hd' <;>
        simp_all
    constructor
    · constructor
      · rintro ⟨f, hf, hfx, hd⟩
        rw [← hblocked f hf hfx, if_pos hd]
      · intro hone
        refine ⟨e, he, hx, ?_⟩
        by_contra hd
        rw [if_neg hd] at hone
        omega
    · constructor
      · rintro ⟨f, hf, hfx, hd⟩
        rw [← hblocked f hf hfx, if_neg (by rw [hd]; decide)]
      · intro hone
        refine ⟨e, he, hx, (hs e he).vertical.resolve_left fun hd => ?_⟩
        rw [if_pos hd] at hone
        omega
  · rw [balance_eq_zero fun e he hx => hnone ⟨e, he, hx⟩]
    constructor
    · exact iff_of_false (fun ⟨e, he, hx, _⟩ => hnone ⟨e, he, hx⟩) (by decide)
    · exact iff_of_false (fun ⟨e, he, hx, _⟩ => hnone ⟨e, he, hx⟩) (by decide)

/-- The borders of edges that do not overlap lie where the balance of a column is not zero. -/
theorem countTop_border {kept front : List (Edge Int)} (h : Swept kept front) (row x y : Int)
    (blocks : Directions) :
    Outline.countTop (kept.map (Edge.border row)).reverse x y blocks =
      if row = y ∧ (blocks = .only .down ∧ balance x kept = 1 ∨
        blocks = .only .up ∧ balance x kept = -1) then 1 else 0 := by
  have hiff (k : Edge Int) : (k.border row).AlongTop x y ∧ (k.border row).blocks = blocks ↔
      row = y ∧ k.Covers x ∧ Directions.only k.blocked = blocks := by
    rw [Edge.border, Border.alongTop_horizontal, and_assoc]
    exact Iff.rfl
  have hexclusive : kept.Pairwise fun k j =>
      (row = y ∧ k.Covers x ∧ Directions.only k.blocked = blocks) →
        ¬(row = y ∧ j.Covers x ∧ Directions.only j.blocked = blocks) :=
    (h.exclusive x).imp fun hkj hk hj => hkj hk.2.1 hj.2.1
  obtain ⟨hdown, hup⟩ := balance_cases h.kept_sound (h.exclusive x)
  rw [Outline.countTop, List.countP_reverse, List.countP_map]
  simp only [Function.comp_def, hiff]
  rw [countP_of_exclusive hexclusive]
  refine if_congr ?_ rfl rfl
  rw [← hdown, ← hup]
  constructor
  · rintro ⟨k, hk, hrow, hx, rfl⟩
    refine ⟨hrow, ?_⟩
    rcases (h.kept_sound k hk).vertical with hd | hd
    · exact Or.inl ⟨by rw [hd], k, hk, hx, hd⟩
    · exact Or.inr ⟨by rw [hd], k, hk, hx, hd⟩
  · rintro ⟨hrow, ⟨rfl, k, hk, hx, hd⟩ | ⟨rfl, k, hk, hx, hd⟩⟩
    · exact ⟨k, hk, hrow, hx, by rw [hd]⟩
    · exact ⟨k, hk, hrow, hx, by rw [hd]⟩

/-! ## The seam of two rows -/

theorem Edge.before_iff (e f : Edge Int) :
    e.before f = true ↔ e.left < f.left ∨ e.left = f.left ∧ f.right < e.right := by
  unfold Edge.before
  simp only [Coordinate.identical, beq_iff_eq]
  split <;> simp only [decide_eq_true_eq] <;> omega

theorem Edge.not_before_trans (e f g : Edge Int) :
    (!f.before e) = true → (!g.before f) = true → (!g.before e) = true := by
  simp only [Bool.not_eq_true', Bool.eq_false_iff, ne_eq, before_iff]
  omega

theorem Edge.not_before_total (e f : Edge Int) : (!f.before e || !e.before f) = true := by
  simp only [Bool.or_eq_true, Bool.not_eq_true', Bool.eq_false_iff, ne_eq, before_iff]
  omega

theorem sorted?_eq_ok (edges : List (Edge Int)) :
    sorted? edges = .ok (edges.mergeSort fun e f => !f.before e) := by
  have hkeys : edges.forM (fun e =>
      (Coordinate.refuse? (Coordinate.negativeFault? e.right)).mapError SeamError.arithmetic) =
        .ok ⟨⟩ := forM_eq_ok fun _ _ => rfl
  have hsort := Sorting.sort_eq_mergeSort (Edge.before (κ := Int))
    (fun e : Edge Int => show e.isOrdered = true by
      simp [Edge.isOrdered, Coordinate.isOrdered_int]) edges
  unfold sorted?
  rw [hkeys, hsort]
  rfl

/-- The edges of two rows that touch are swept as they come by insertion. -/
theorem borders?_of_touch {a b : Box Int} {above below : Row Int} (htouch : b.top = a.bottom) :
    borders? (a :: above) (b :: below) = sweep? a.bottom
      ((facing (a :: above) (b :: below)).insertionSort fun e f => !f.before e) := by
  have htouch' : (b.top == a.bottom) = true := by
    rw [htouch]
    exact beq_self_eq_true _
  simp only [borders?, htouch', if_true, sorted?_eq_ok]
  rw [← mergeSort_eq_insertionSort Edge.not_before_trans Edge.not_before_total]
  rfl

/-- Sorted edges, of which those that block the same way do not overlap, can be swept. -/
theorem swept_mergeSort {edges : List (Edge Int)} (hs : ∀ e ∈ edges, e.Sound)
    (ha : edges.Pairwise fun e f => e.blocked = f.blocked → e.right ≤ f.left ∨ f.right ≤ e.left) :
    Swept [] (edges.mergeSort fun e f => !f.before e) := by
  have hsound : ∀ e ∈ edges.mergeSort fun e f => !f.before e, e.Sound :=
    fun e he => hs e (List.mem_mergeSort.mp he)
  have hsorted : (edges.mergeSort fun e f => !f.before e).Pairwise fun e f => e.left ≤ f.left := by
    refine (List.pairwise_mergeSort Edge.not_before_trans Edge.not_before_total edges).imp ?_
    intro e f
    simp only [Bool.not_eq_true', Bool.eq_false_iff, ne_eq, Edge.before_iff]
    omega
  have hapart : (edges.mergeSort fun e f => !f.before e).Pairwise fun e f =>
      e.blocked = f.blocked → e.right ≤ f.left ∨ f.right ≤ e.left :=
    (List.mergeSort_perm edges _).symm.pairwise ha fun h hb => (h hb.symm).symm
  refine ⟨by simp, List.Pairwise.nil, hsound, hsorted, ?_, by simp, by simp⟩
  refine (List.Pairwise.and_mem.mp (hsorted.and hapart)).imp ?_
  rintro e f ⟨-, hf, hle, hdisjoint⟩ hblocked
  rcases hdisjoint hblocked with h | h
  · exact h
  · have := (hsound f hf).left_lt_right
    omega

/-- Boxes side by side, which may touch. -/
def SideBySide (row : Row Int) : Prop :=
  row.Pairwise fun b c => b.right ≤ c.left

/-- What the edges of a row count over a column. -/
theorem balance_row {row : Row Int} (h : SideBySide row) (d : Direction) (x : Int) :
    balance x (row.map fun b => ⟨b.left, b.right, d⟩) =
      if ∃ b ∈ row, b.columns.Covers x then (if d = .down then 1 else -1) else 0 := by
  have hexclusive : (row.map fun b => (⟨b.left, b.right, d⟩ : Edge Int)).Pairwise
      fun k j => k.Covers x → ¬j.Covers x := by
    refine List.pairwise_map.mpr (h.imp fun {b c} hbc hb hc => ?_)
    have : x < b.right := hb.2
    have : c.left ≤ x := hc.1
    omega
  split
  · rename_i hcov
    obtain ⟨b, hb, hx⟩ := hcov
    rw [balance_of_exclusive hexclusive (List.mem_map_of_mem hb) hx]
    exact if_pos hx
  · rename_i hcov
    refine balance_eq_zero fun e he hx => hcov ?_
    obtain ⟨b, hb, rfl⟩ := List.mem_map.mp he
    exact ⟨b, hb, hx⟩

theorem sound_facing {above below : Row Int} {e : Edge Int} (he : e ∈ facing above below) :
    e.Sound := by
  rcases List.mem_append.mp he with he | he
  · obtain ⟨b, -, rfl⟩ := List.mem_map.mp he
    exact ⟨b.left_lt_right, Or.inl rfl⟩
  · obtain ⟨b, -, rfl⟩ := List.mem_map.mp he
    exact ⟨b.left_lt_right, Or.inr rfl⟩

/-- Edges that face each other overlap only if they block opposite ways. -/
theorem apart_facing {above below : Row Int} (ha : SideBySide above) (hb : SideBySide below) :
    (facing above below).Pairwise fun e f =>
      e.blocked = f.blocked → e.right ≤ f.left ∨ f.right ≤ e.left := by
  refine List.pairwise_append.mpr ⟨?_, ?_, ?_⟩
  · exact List.pairwise_map.mpr (ha.imp fun hle _ => Or.inl hle)
  · exact List.pairwise_map.mpr (hb.imp fun hle _ => Or.inl hle)
  · intro e he f hf hblocked
    obtain ⟨b, -, rfl⟩ := List.mem_map.mp he
    obtain ⟨c, -, rfl⟩ := List.mem_map.mp hf
    cases hblocked

/-- A column counts 1 where only the upper row covers it, and -1 where only the lower one
does. -/
theorem balance_facing {above below : Row Int} (ha : SideBySide above) (hb : SideBySide below)
    (x : Int) : balance x (facing above below) =
      (if ∃ b ∈ above, b.columns.Covers x then 1 else 0) -
        if ∃ b ∈ below, b.columns.Covers x then 1 else 0 := by
  have hupper := balance_row ha .down x
  have hlower := balance_row hb .up x
  have hdown : (if Direction.down = .down then (1 : Int) else -1) = 1 := rfl
  have hup : (if Direction.up = .down then (1 : Int) else -1) = -1 := rfl
  rw [hdown] at hupper
  rw [hup] at hlower
  rw [facing, balance_append]
  refine (congrArg₂ (· + ·) hupper hlower).trans ?_
  split_ifs <;> rfl

/-- Two rows that touch have a seam. Its borders lie on the common line, over the columns that
one row alone covers, and block the way out of that row. -/
theorem exists_borders? {above below : Row Int} {row : Int} (hne : above ≠ []) (hne' : below ≠ [])
    (hbottom : ∀ b ∈ above, b.bottom = row) (htop : ∀ b ∈ below, b.top = row)
    (ha : SideBySide above) (hb : SideBySide below) :
    ∃ kept, borders? above below = .ok (kept.map (Edge.border row)).reverse ∧ Swept kept [] ∧
      ∀ x y blocks, Outline.countTop (kept.map (Edge.border row)).reverse x y blocks =
        if row = y ∧
          (blocks = .only .down ∧ (∃ b ∈ above, b.columns.Covers x) ∧
              ¬(∃ b ∈ below, b.columns.Covers x) ∨
            blocks = .only .up ∧ (∃ b ∈ below, b.columns.Covers x) ∧
              ¬∃ b ∈ above, b.columns.Covers x)
        then 1 else 0 := by
  obtain ⟨a, as, rfl⟩ := List.exists_cons_of_ne_nil hne
  obtain ⟨b, bs, rfl⟩ := List.exists_cons_of_ne_nil hne'
  have hswept := swept_mergeSort (fun e he => sound_facing he) (apart_facing ha hb)
  obtain ⟨kept, hsweep, hkept, hbal⟩ := exists_sweep? row hswept
  refine ⟨kept, ?_, hkept, fun x y blocks => ?_⟩
  · have htouch : (b.top == row) = true := by
      rw [htop b List.mem_cons_self]
      exact beq_self_eq_true row
    simp only [borders?, hbottom a List.mem_cons_self, htouch, if_true, sorted?_eq_ok]
    exact hsweep
  · have hx : balance x kept = (if ∃ c ∈ a :: as, c.columns.Covers x then 1 else 0) -
        if ∃ c ∈ b :: bs, c.columns.Covers x then 1 else 0 := by
      rw [hbal, ← balance_facing ha hb]
      exact ((List.mergeSort_perm _ _).map _).sum_eq
    rw [countTop_border hkept, hx]
    refine if_congr (and_congr_right fun _ => or_congr (and_congr_right fun _ => ?_)
      (and_congr_right fun _ => ?_)) rfl rfl
    · split_ifs <;> simp_all
    · split_ifs <;> simp_all

end Seam

end Confinement
