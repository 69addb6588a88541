import Confinement.Region.Span
import Mathlib.Data.List.Basic
import Mathlib.Data.List.Pairwise
import Mathlib.Data.List.Sort

/-!
# Joined spans

`Span.union` sorts spans and joins those that overlap or touch. What comes out lies apart :
the spans hold a column each, and every one ends before the next begins (`Span.Separated`).
It covers the columns that went in (`Span.covers_union`).

Both are facts about `Span.joinFrom`, where the open span starts no further right than any
that is still to come.

Where columns fall into spans with gaps between them (`Span.Splits`), the spans are the longest
runs of the columns, and all of them (`Span.Splits.mem_iff`). Two longest runs with a column in
common are the same. So separated spans are known by their columns
(`Span.Separated.eq_of_covers`), and the union is the one list of separated spans that covers
the columns (`Span.union_eq_iff`). Two unions are compared as lists, and are equal if and only if
their columns are the same (`Span.union_canonical`).
-/

namespace Confinement

/-! ## Entries of lists in order -/

section Lists

variable {α : Type} {xs ys : List α}

/-- Of two entries of a list in order, one stands before the other, unless they are the same. -/
theorem eq_or_rel_of_pairwise {R : α → α → Prop} (h : xs.Pairwise R) {a b : α} (ha : a ∈ xs)
    (hb : b ∈ xs) : a = b ∨ R a b ∨ R b a := by
  have : Std.Symm fun a b => R a b ∨ R b a := ⟨fun _ _ => Or.symm⟩
  have heither : xs.Pairwise fun a b => R a b ∨ R b a := h.imp Or.inl
  exact or_iff_not_imp_left.mpr (heither.forall ha hb)

/-- Lists in ascending order of a key are known by their entries. -/
theorem eq_of_ascending {key : α → Int} (hxs : xs.Pairwise fun a b => key a < key b)
    (hys : ys.Pairwise fun a b => key a < key b) (h : ∀ a, a ∈ xs ↔ a ∈ ys) : xs = ys := by
  have : Std.Irrefl fun a b => key a < key b := ⟨fun a => lt_irrefl (key a)⟩
  have : Std.Antisymm fun a b => key a < key b := ⟨fun _ _ hab hba => absurd hab hba.asymm⟩
  exact hxs.eq_of_mem_iff hys h

end Lists

/-! ## Joining -/

namespace Span

/-- Spans that hold a column each, with a gap between any one and the next. -/
structure Separated (spans : List (Span Int)) : Prop where
  left_lt_right : ∀ s ∈ spans, s.left < s.right
  gap : spans.Pairwise fun s t => s.right < t.left

namespace Separated

theorem nil : Separated [] :=
  ⟨by simp, List.Pairwise.nil⟩

theorem tail {s : Span Int} {spans : List (Span Int)} (h : Separated (s :: spans)) :
    Separated spans :=
  ⟨fun t ht => h.left_lt_right t (List.mem_cons_of_mem _ ht), h.gap.of_cons⟩

end Separated

/-- Sorted spans that hold a column each. -/
structure Ascending (spans : List (Span Int)) : Prop where
  left_lt_right : ∀ s ∈ spans, s.left < s.right
  sorted : spans.Pairwise fun s t => s.left ≤ t.left

theorem Ascending.tail {s : Span Int} {spans : List (Span Int)} (h : Ascending (s :: spans)) :
    Ascending spans :=
  ⟨fun t ht => h.left_lt_right t (List.mem_cons_of_mem _ ht), h.sorted.of_cons⟩

theorem widen_left (s t : Span Int) : (s.widen t).left = s.left := rfl

theorem lt_right_widen {s : Span Int} (t : Span Int) (h : s.left < s.right) :
    (s.widen t).left < (s.widen t).right := by
  unfold widen
  split <;> simp <;> omega

theorem covers_widen {s t : Span Int} {x : Int} (hl : s.left ≤ t.left) (hr : t.left ≤ s.right) :
    (s.widen t).Covers x ↔ s.Covers x ∨ t.Covers x := by
  unfold widen Covers
  split <;> simp <;> omega

/-- A span that is widened still starts no further right than those to come. -/
theorem Ascending.widen {s t : Span Int} {spans : List (Span Int)}
    (h : Ascending (s :: t :: spans)) : Ascending (s.widen t :: spans) := by
  have hs := h.left_lt_right s List.mem_cons_self
  refine ⟨?_, ?_⟩
  · intro u hu
    rcases List.mem_cons.mp hu with rfl | hu
    · exact lt_right_widen t hs
    · exact h.tail.tail.left_lt_right u hu
  · refine List.pairwise_cons.mpr ⟨fun u hu => ?_, h.sorted.of_cons.of_cons⟩
    exact List.rel_of_pairwise_cons h.sorted (List.mem_cons_of_mem _ hu)

/-- Joining covers what the open span and the rest cover. -/
theorem covers_joinFrom {current : Span Int} {rest : List (Span Int)} {x : Int}
    (h : Ascending (current :: rest)) :
    (∃ s ∈ joinFrom current rest, s.Covers x) ↔ ∃ s ∈ current :: rest, s.Covers x := by
  induction rest generalizing current with
  | nil => rfl
  | cons t rest ih =>
    have hle : current.left ≤ t.left := List.rel_of_pairwise_cons h.sorted List.mem_cons_self
    unfold joinFrom
    split
    · rename_i htouch
      rw [ih h.widen]
      simp only [List.exists_mem_cons_iff, covers_widen hle htouch, or_assoc]
    · simp only [List.exists_mem_cons_iff (a := current), ih h.tail]

/-- Nothing starts to the left of the open span. -/
theorem left_le_of_mem_joinFrom {current s : Span Int} {rest : List (Span Int)}
    (h : Ascending (current :: rest)) (hs : s ∈ joinFrom current rest) :
    current.left ≤ s.left := by
  induction rest generalizing current with
  | nil =>
    cases List.mem_singleton.mp hs
    exact Int.le_refl _
  | cons t rest ih =>
    have hle : current.left ≤ t.left := List.rel_of_pairwise_cons h.sorted List.mem_cons_self
    unfold joinFrom at hs
    split at hs
    · have := ih h.widen hs
      rwa [widen_left] at this
    · rcases List.mem_cons.mp hs with rfl | hs
      · exact Int.le_refl _
      · exact Int.le_trans hle (ih h.tail hs)

/-- Joining leaves a gap between any span and the next. -/
theorem separated_joinFrom {current : Span Int} {rest : List (Span Int)}
    (h : Ascending (current :: rest)) : Separated (joinFrom current rest) := by
  induction rest generalizing current with
  | nil => exact ⟨h.left_lt_right, List.pairwise_singleton _ _⟩
  | cons t rest ih =>
    unfold joinFrom
    split
    · exact ih h.widen
    · rename_i hgap
      have hrest := ih h.tail
      refine ⟨?_, List.pairwise_cons.mpr ⟨fun s hs => ?_, hrest.gap⟩⟩
      · intro s hs
        rcases List.mem_cons.mp hs with rfl | hs
        · exact h.left_lt_right s List.mem_cons_self
        · exact hrest.left_lt_right s hs
      · have := left_le_of_mem_joinFrom h.tail hs
        omega

/-- Spans between whole numbers are sorted by their left ends. -/
theorem sort_eq_mergeSort (spans : List (Span Int)) :
    Sorting.sort before isOrdered spans = spans.mergeSort fun s t => !before t s :=
  Sorting.sort_eq_mergeSort _ (fun s => by simp [isOrdered, Coordinate.isOrdered_int]) spans

theorem before_iff (s t : Span Int) :
    before s t = true ↔ s.left < t.left ∨ s.left = t.left ∧ s.right < t.right := by
  unfold before
  simp only [Coordinate.identical, beq_iff_eq]
  split <;> simp only [decide_eq_true_eq] <;> omega

theorem ascending_mergeSort {spans : List (Span Int)} (h : ∀ s ∈ spans, s.left < s.right) :
    Ascending (spans.mergeSort fun s t => !before t s) := by
  refine ⟨fun s hs => h s (List.mem_mergeSort.mp hs), ?_⟩
  refine (List.pairwise_mergeSort ?_ ?_ spans).imp ?_
  · intro s t u
    simp only [Bool.not_eq_true', Bool.eq_false_iff, ne_eq, before_iff]
    omega
  · intro s t
    simp only [Bool.or_eq_true, Bool.not_eq_true', Bool.eq_false_iff, ne_eq, before_iff]
    omega
  · intro s t
    simp only [Bool.not_eq_true', Bool.eq_false_iff, ne_eq, before_iff]
    omega

/-- The union lies apart. -/
theorem separated_union {spans : List (Span Int)} (h : ∀ s ∈ spans, s.left < s.right) :
    Separated (union spans) := by
  have hsorted := ascending_mergeSort h
  unfold union
  rw [sort_eq_mergeSort]
  split
  · exact Separated.nil
  · rename_i heq
    exact separated_joinFrom (heq ▸ hsorted)

/-- The union covers the columns of its spans. -/
theorem covers_union {spans : List (Span Int)} (h : ∀ s ∈ spans, s.left < s.right) (x : Int) :
    (∃ s ∈ union spans, s.Covers x) ↔ ∃ s ∈ spans, s.Covers x := by
  have hsorted := ascending_mergeSort h
  have hmem : (∃ s ∈ spans.mergeSort fun s t => !before t s, s.Covers x) ↔
      ∃ s ∈ spans, s.Covers x := by simp only [List.mem_mergeSort]
  rw [← hmem]
  unfold union
  rw [sort_eq_mergeSort]
  split
  · rename_i heq
    rw [heq]
  · rename_i heq
    rw [heq] at hsorted ⊢
    exact covers_joinFrom hsorted

/-! ## Longest runs of columns -/

/-- Whether a span is a longest run of some columns. -/
structure IsRun (columns : Int → Prop) (s : Span Int) : Prop where
  left_lt_right : s.left < s.right
  inside : ∀ x, s.Covers x → columns x
  before : ¬columns (s.left - 1)
  after : ¬columns s.right

/-- Two longest runs with a column in common are the same. -/
theorem IsRun.eq {columns : Int → Prop} {s t : Span Int} (hs : s.IsRun columns)
    (ht : t.IsRun columns) {x : Int} (hsx : s.Covers x) (htx : t.Covers x) : s = t := by
  obtain ⟨hs₁, hs₂⟩ := hsx
  obtain ⟨ht₁, ht₂⟩ := htx
  have hleft : ¬s.left < t.left := fun hlt => ht.before (hs.inside _ ⟨by omega, by omega⟩)
  have hleft' : ¬t.left < s.left := fun hlt => hs.before (ht.inside _ ⟨by omega, by omega⟩)
  have hright : ¬s.right < t.right := fun hlt => hs.after (ht.inside _ ⟨by omega, by omega⟩)
  have hright' : ¬t.right < s.right := fun hlt => ht.after (hs.inside _ ⟨by omega, by omega⟩)
  have hl : s.left = t.left := by omega
  have hr : s.right = t.right := by omega
  exact congrArg₂ Span.mk hl hr

/-- Whether some columns fall into spans : these hold a column each, cover the columns and no
others, and have a gap between any two. -/
structure Splits (columns : Int → Prop) (spans : Span Int → Prop) : Prop where
  left_lt_right : ∀ s, spans s → s.left < s.right
  covers_iff : ∀ x, columns x ↔ ∃ s, spans s ∧ s.Covers x
  eq_or_gap : ∀ s t, spans s → spans t → s = t ∨ s.right < t.left ∨ t.right < s.left

namespace Splits

variable {columns : Int → Prop} {spans : Span Int → Prop} {s : Span Int}

theorem isRun (h : Splits columns spans) (hs : spans s) : s.IsRun columns := by
  have hlt := h.left_lt_right s hs
  refine ⟨hlt, fun x hx => (h.covers_iff x).mpr ⟨s, hs, hx⟩, fun hbefore => ?_, fun hafter => ?_⟩
  · obtain ⟨t, ht, ht₁, ht₂⟩ := (h.covers_iff _).mp hbefore
    rcases h.eq_or_gap s t hs ht with rfl | hgap | hgap <;> omega
  · obtain ⟨t, ht, ht₁, ht₂⟩ := (h.covers_iff _).mp hafter
    rcases h.eq_or_gap s t hs ht with rfl | hgap | hgap <;> omega

/-- The spans are the longest runs of the columns, and all of them. -/
theorem mem_iff (h : Splits columns spans) : spans s ↔ s.IsRun columns := by
  refine ⟨h.isRun, fun hs => ?_⟩
  have hleft : s.Covers s.left := ⟨Int.le_refl _, hs.left_lt_right⟩
  obtain ⟨t, ht, htx⟩ := (h.covers_iff _).mp (hs.inside _ hleft)
  rwa [hs.eq (h.isRun ht) hleft htx]

/-- A span starts at a column that is not preceded by another. -/
theorem exists_left_iff (h : Splits columns spans) (x : Int) :
    (∃ s, spans s ∧ s.left = x) ↔ columns x ∧ ¬columns (x - 1) := by
  constructor
  · rintro ⟨s, hs, rfl⟩
    have hrun := h.isRun hs
    exact ⟨hrun.inside _ ⟨Int.le_refl _, hrun.left_lt_right⟩, hrun.before⟩
  · rintro ⟨hin, hout⟩
    obtain ⟨s, hs, hx⟩ := (h.covers_iff x).mp hin
    refine ⟨s, hs, ?_⟩
    by_contra hne
    have hle := hx.1
    have hlt := hx.2
    exact hout ((h.isRun hs).inside _ ⟨by omega, by omega⟩)

/-- A span ends behind a column that is not followed by another. -/
theorem exists_right_iff (h : Splits columns spans) (x : Int) :
    (∃ s, spans s ∧ s.right = x) ↔ columns (x - 1) ∧ ¬columns x := by
  constructor
  · rintro ⟨s, hs, rfl⟩
    have hrun := h.isRun hs
    have hlt := hrun.left_lt_right
    exact ⟨hrun.inside _ ⟨by omega, by omega⟩, hrun.after⟩
  · rintro ⟨hin, hout⟩
    obtain ⟨s, hs, hx⟩ := (h.covers_iff _).mp hin
    refine ⟨s, hs, ?_⟩
    by_contra hne
    have hle := hx.1
    have hlt := hx.2
    exact hout ((h.isRun hs).inside _ ⟨by omega, by omega⟩)

/-- A span starts or ends where one of two neighbours is a column. -/
theorem exists_end_iff (h : Splits columns spans) (x : Int) :
    (∃ s, spans s ∧ (s.left = x ∨ s.right = x)) ↔ ¬(columns (x - 1) ↔ columns x) := by
  simp only [and_or_left, exists_or, h.exists_left_iff, h.exists_right_iff]
  tauto

end Splits

/-! ## Separated spans -/

namespace Separated

variable {spans spans' : List (Span Int)} {s t : Span Int}

/-- Two spans are the same or have a gap between them. -/
theorem eq_or_gap (h : Separated spans) (hs : s ∈ spans) (ht : t ∈ spans) :
    s = t ∨ s.right < t.left ∨ t.right < s.left :=
  eq_or_rel_of_pairwise h.gap hs ht

/-- The columns that separated spans cover fall into them. -/
theorem splits (h : Separated spans) :
    Splits (fun x => ∃ s ∈ spans, s.Covers x) fun s => s ∈ spans :=
  ⟨h.left_lt_right, fun _ => Iff.rfl, fun _ _ => h.eq_or_gap⟩

theorem ascending (h : Separated spans) : spans.Pairwise fun s t => s.left < t.left := by
  refine (List.Pairwise.and_mem.mp h.gap).imp ?_
  rintro s t ⟨hs, -, hgap⟩
  exact (h.left_lt_right s hs).trans hgap

/-- Separated spans that cover the same columns are the same. -/
theorem eq_of_covers (h : Separated spans) (h' : Separated spans')
    (hcovers : ∀ x, (∃ s ∈ spans, s.Covers x) ↔ ∃ s ∈ spans', s.Covers x) : spans = spans' := by
  refine eq_of_ascending h.ascending h'.ascending fun s => ?_
  rw [h.splits.mem_iff, h'.splits.mem_iff, funext fun x => propext (hcovers x)]

end Separated

/-! ## One union for every set of columns -/

/-- The union is the one list of separated spans that covers the columns of its spans. -/
theorem union_eq_iff {spans joined : List (Span Int)} (h : ∀ s ∈ spans, s.left < s.right) :
    union spans = joined ↔
      Separated joined ∧ ∀ x, (∃ s ∈ joined, s.Covers x) ↔ ∃ s ∈ spans, s.Covers x := by
  constructor
  · rintro rfl
    exact ⟨separated_union h, covers_union h⟩
  · rintro ⟨hseparated, hcovers⟩
    exact (separated_union h).eq_of_covers hseparated fun x =>
      (covers_union h x).trans (hcovers x).symm

/-- Spans in any order are joined to separated spans that cover the same columns. Two unions are
equal if and only if their spans cover the same columns. -/
theorem union_canonical {spans : List (Span Int)} (h : ∀ s ∈ spans, s.left < s.right) :
    Separated (union spans) ∧
      (∀ x, (∃ s ∈ union spans, s.Covers x) ↔ ∃ s ∈ spans, s.Covers x) ∧
      ∀ spans' : List (Span Int), (∀ s ∈ spans', s.left < s.right) →
        (union spans = union spans' ↔
          ∀ x, (∃ s ∈ spans, s.Covers x) ↔ ∃ s ∈ spans', s.Covers x) := by
  obtain ⟨hseparated, hcovers⟩ := (union_eq_iff h).mp rfl
  refine ⟨hseparated, hcovers, fun spans' h' => ?_⟩
  obtain ⟨hseparated', hcovers'⟩ := (union_eq_iff h').mp rfl
  rw [union_eq_iff h]
  constructor
  · rintro ⟨-, hsame⟩ x
    exact (hsame x).symm.trans (hcovers' x)
  · exact fun hsame => ⟨hseparated', fun x => (hcovers' x).trans (hsame x).symm⟩

/-- Spans out of order : two that touch, one inside another, and one with a gap before it. -/
def shuffled : List (Span Int) :=
  [⟨10, 20⟩, ⟨25, 30⟩, ⟨0, 10⟩, ⟨12, 15⟩]

/-- Spans that cover the same columns, cut elsewhere, and one of them twice. -/
def recut : List (Span Int) :=
  [⟨0, 14⟩, ⟨25, 30⟩, ⟨8, 20⟩, ⟨25, 30⟩]

/-- The two have the same union. -/
theorem union_canonical_recut :
    (∀ s ∈ shuffled, s.left < s.right) ∧ (∀ s ∈ recut, s.left < s.right) ∧
      Separated (union shuffled) ∧
      (∀ x, (∃ s ∈ union shuffled, s.Covers x) ↔ ∃ s ∈ shuffled, s.Covers x) ∧
      union shuffled = union recut := by
  have hshuffled : ∀ s ∈ shuffled, s.left < s.right := by decide
  have hrecut : ∀ s ∈ recut, s.left < s.right := by decide
  obtain ⟨hseparated, hcovers, hunions⟩ := union_canonical hshuffled
  refine ⟨hshuffled, hrecut, hseparated, hcovers, (hunions recut hrecut).mpr fun x => ?_⟩
  simp only [shuffled, recut, List.exists_mem_cons_iff, List.not_mem_nil, false_and, exists_false,
    or_false, Covers]
  omega

/-- What they are joined to. -/
example : union [⟨10, 20⟩, ⟨25, 30⟩, ⟨0, 10⟩, ⟨12, 15⟩] =
    ([⟨0, 20⟩, ⟨25, 30⟩] : List (Span Int)) := by
  cbv

end Span

end Confinement
