import Confinement.Proofs.Exact
import Confinement.Region.RowMajor
import Mathlib.Algebra.Order.Field.Basic
import Mathlib.Algebra.Order.Ring.Cast
import Mathlib.Data.List.Chain

/-!
# The order of delivery

Boxes are accepted as they are if their tops do not fall, boxes with the same top stand side by
side from left to right, and no two boxes have a point inside in common (`Delivered`). The check
looks at neighbours first, and then for every box at later ones, as far as the first that starts
below its bottom. That is enough : if each box follows the one before it, it follows all of them
(`pairwise_follows`), and so no box behind one that starts below the bottom of another reaches back
up to that other one (`apart?_cases`).

What is reported is the first offence (`RowMajorError.Reports`). Offences against the order come
before overlaps; one is reported for the first box that does not follow the one before it. An
overlap is reported for the first pair, by the number of its first box and then by that of its
second. The check answers so on all boxes (`rowMajor?_iff`).
-/

namespace Confinement

/-! ## Two boxes -/

namespace Box

/-- Whether a point lies inside a box, off its edge. -/
def Inside (b : Box Int) (p : Point Rat) : Prop :=
  ((b.left : Rat) < p.x ∧ p.x < b.right) ∧ (b.top : Rat) < p.y ∧ p.y < b.bottom

/-- Whether two boxes have a point inside in common. -/
def Overlap (b c : Box Int) : Prop :=
  ∃ p, b.Inside p ∧ c.Inside p

/-- Whether a box may come right after another : it starts below it, or beside it at its end or to
the right of that. -/
def Follows (c b : Box Int) : Prop :=
  b.top < c.top ∨ b.top = c.top ∧ b.right ≤ c.left

instance (c b : Box Int) : Decidable (c.Follows b) :=
  inferInstanceAs (Decidable (_ ∨ _ ∧ _))

variable {b c : Box Int}

/-- Two ranges between whole numbers have a fraction inside in common if each starts before both
end. -/
theorem exists_inside_both {low high low' high' : Int} (h : low < high) (h' : low' < high')
    (hbefore : low < high') (hbefore' : low' < high) :
    ∃ z : Rat, ((low : Rat) < z ∧ z < high) ∧ (low' : Rat) < z ∧ z < high' := by
  obtain ⟨z, hlow, hhigh⟩ := exists_between
    (Int.cast_lt (R := Rat).mpr (show max low low' < min high high' by omega))
  rw [Int.cast_max, max_lt_iff] at hlow
  rw [Int.cast_min, lt_min_iff] at hhigh
  exact ⟨z, ⟨hlow.1, hhigh.1⟩, hlow.2, hhigh.2⟩

/-- Boxes overlap if and only if each of them starts before the other ends, on both axes. -/
theorem overlaps_iff : b.overlaps c = true ↔ b.Overlap c := by
  simp only [overlaps, decide_eq_true_eq]
  constructor
  · rintro ⟨hx, hx', hy, hy'⟩
    obtain ⟨x, hb, hc⟩ := exists_inside_both b.left_lt_right c.left_lt_right hx hx'
    obtain ⟨y, hb', hc'⟩ := exists_inside_both b.top_lt_bottom c.top_lt_bottom hy hy'
    exact ⟨⟨x, y⟩, ⟨hb, hb'⟩, hc, hc'⟩
  · rintro ⟨p, ⟨hbx, hby⟩, hcx, hcy⟩
    exact ⟨Int.cast_lt.mp (hbx.1.trans hcx.2), Int.cast_lt.mp (hcx.1.trans hbx.2),
      Int.cast_lt.mp (hby.1.trans hcy.2), Int.cast_lt.mp (hcy.1.trans hby.2)⟩

theorem overlaps?_int (b c : Box Int) : b.overlaps? c = .ok (b.overlaps c) := by
  simp only [overlaps?, overlaps, Coordinate.allBefore?, Coordinate.before?_int, bind, Except.bind,
    pure, Except.pure]
  grind

/-- A box that starts at the bottom of another or below does not overlap it. -/
theorem not_overlap_of_bottom_le (h : b.bottom ≤ c.top) : ¬b.Overlap c := by
  rintro ⟨p, hb, hc⟩
  have hlt : (c.top : Rat) < b.bottom := hc.2.1.trans hb.2.2
  exact absurd (Int.cast_lt.mp hlt) (not_lt.mpr h)

theorem Follows.top_le (h : c.Follows b) : b.top ≤ c.top := by
  unfold Follows at h
  omega

/-- What follows a box that follows another follows that one. -/
theorem Follows.trans {d : Box Int} (h : d.Follows c) (h' : c.Follows b) : d.Follows b := by
  have := c.left_lt_right
  unfold Follows at *
  omega

end Box

/-! ## What is accepted and what is reported -/

variable {boxes : List (Box Int)}

/-- Boxes in the order of delivery. -/
structure Delivered (boxes : List (Box Int)) : Prop where
  /-- Tops do not fall. -/
  rows : boxes.Pairwise fun b c => b.top ≤ c.top
  /-- Boxes with the same top stand side by side from left to right. -/
  columns : boxes.Pairwise fun b c => b.top = c.top → b.right ≤ c.left
  /-- No two boxes overlap. -/
  apart : boxes.Pairwise fun b c => ¬b.Overlap c

/-- Whether a box number `i` and the one after it, if there are such boxes, are in order. -/
def FollowsAt (boxes : List (Box Int)) (i : Nat) : Prop :=
  ∀ b ∈ boxes[i]?, ∀ c ∈ boxes[i + 1]?, c.Follows b

/-- The first box that does not follow the one before it, which has the number `i`. -/
structure FirstBreak (boxes : List (Box Int)) (i : Nat) (before box : Box Int) : Prop where
  before_eq : boxes[i]? = some before
  box_eq : boxes[i + 1]? = some box
  not_follows : ¬box.Follows before
  first : ∀ k < i, FollowsAt boxes k

/-- The first pair of boxes that overlap. -/
structure FirstOverlap (boxes : List (Box Int)) (i : Nat) (b : Box Int) (j : Nat) (c : Box Int) :
    Prop where
  lt : i < j
  left_eq : boxes[i]? = some b
  right_eq : boxes[j]? = some c
  overlap : b.Overlap c
  first : ∀ k l, k < l → k < i ∨ k = i ∧ l < j → ∀ b ∈ boxes[k]?, ∀ c ∈ boxes[l]?, ¬b.Overlap c

/-- What is reported of a box that does not follow the one before it. -/
def RowMajorError.ofBreak (index : Nat) (before box : Box Int) : RowMajorError Int :=
  if box.top < before.top then .above index box before else .beside index box before

/-- Whether an error is what there is to report of boxes. -/
def RowMajorError.Reports (boxes : List (Box Int)) (e : RowMajorError Int) : Prop :=
  (∃ i before box, FirstBreak boxes i before box ∧ e = RowMajorError.ofBreak (i + 1) before box) ∨
    (∀ k, FollowsAt boxes k) ∧ ∃ i b j c, FirstOverlap boxes i b j c ∧ e = .overlap i b j c

/-! ## Neighbours -/

/-- A box is checked against the one before it for whether it follows that. -/
theorem follows?_int (index : Nat) (before box : Box Int) :
    follows? index before box =
      if box.Follows before then .ok () else .error (RowMajorError.ofBreak index before box) := by
  have hfollows : follows? index before box =
      if box.top < before.top then .error (.above index box before)
      else if box.top = before.top ∧ box.left < before.right then .error (.beside index box before)
      else .ok () := by
    unfold follows?
    simp only [Coordinate.before?_int, Except.mapError, bind, Except.bind, pure, Except.pure,
      throw, throwThe, MonadExceptOf.throw, decide_eq_true_eq, beq_iff_eq]
    split
    · rfl
    · split <;> split <;> simp_all
  rw [hfollows]
  unfold RowMajorError.ofBreak Box.Follows
  grind

/-- Boxes each of which follows the one before it pass the check of neighbours, else the first that
does not is reported. -/
theorem ordered?_cases (index : Nat) (before : Box Int) (rest : List (Box Int)) :
    (ordered? index before rest = .ok () ∧ ∀ k, FollowsAt (before :: rest) k) ∨
      ∃ i b c, FirstBreak (before :: rest) i b c ∧
        ordered? index before rest = .error (RowMajorError.ofBreak (index + i) b c) := by
  induction rest generalizing index before with
  | nil => exact Or.inl ⟨rfl, fun k => by simp [FollowsAt]⟩
  | cons box rest ih =>
    have hstep : ordered? index before (box :: rest) =
        (follows? index before box >>= fun _ => ordered? (index + 1) box rest) := rfl
    rw [hstep, follows?_int]
    by_cases hbox : box.Follows before
    · have hzero : FollowsAt (before :: box :: rest) 0 := by simpa [FollowsAt] using hbox
      rw [if_pos hbox]
      rcases ih (index + 1) box with ⟨hok, hall⟩ | ⟨i, b, c, hfirst, herror⟩
      · exact Or.inl ⟨hok, fun k => by cases k with
          | zero => exact hzero
          | succ k => exact hall k⟩
      · refine Or.inr ⟨i + 1, b, c, ⟨hfirst.before_eq, hfirst.box_eq, hfirst.not_follows,
          Nat.forall_lt_succ_left.mpr ⟨hzero, hfirst.first⟩⟩, ?_⟩
        rw [Nat.add_comm i 1, ← Nat.add_assoc]
        exact herror
    · rw [if_neg hbox]
      exact Or.inr ⟨0, before, box,
        ⟨rfl, rfl, hbox, fun k hk => absurd hk (Nat.not_lt_zero k)⟩, rfl⟩

/-- Where every box follows the one before it, every box follows all before it. -/
theorem pairwise_follows (h : ∀ k, FollowsAt boxes k) :
    boxes.Pairwise fun b c => c.Follows b := by
  have : Trans (fun b c : Box Int => c.Follows b) (fun b c : Box Int => c.Follows b)
      fun b c : Box Int => c.Follows b := ⟨fun hbc hcd => hcd.trans hbc⟩
  refine (List.isChain_iff_getElem.mpr fun i hi => ?_).pairwise
  exact h i _ (List.getElem?_eq_getElem _) _ (List.getElem?_eq_getElem hi)

theorem followsAt_of_pairwise (h : boxes.Pairwise fun b c => c.Follows b) (k : Nat) :
    FollowsAt boxes k := by
  intro b hb c hc
  obtain ⟨hk, rfl⟩ := List.getElem?_eq_some_iff.mp hb
  obtain ⟨hk', rfl⟩ := List.getElem?_eq_some_iff.mp hc
  exact List.pairwise_iff_getElem.mp h k (k + 1) hk hk' (Nat.lt_succ_self k)

/-! ## Overlaps -/

/-- A box is checked against later ones, which come in the order of their tops, for whether it
overlaps one of them. -/
theorem apart?_cases (i : Nat) (first : Box Int) (j : Nat) {rest : List (Box Int)}
    (h : rest.Pairwise fun b c => b.top ≤ c.top) :
    (apart? i first j rest = .ok () ∧ ∀ c ∈ rest, ¬first.Overlap c) ∨
      ∃ l c, rest[l]? = some c ∧ first.Overlap c ∧ (∀ k < l, ∀ d ∈ rest[k]?, ¬first.Overlap d) ∧
        apart? i first j rest = .error (.overlap i first (j + l) c) := by
  induction rest generalizing j with
  | nil => exact Or.inl ⟨rfl, by simp⟩
  | cons second rest ih =>
    have hstep : apart? i first j (second :: rest) =
        if first.bottom ≤ second.top then .ok ()
        else if first.overlaps second then .error (.overlap i first j second)
        else apart? i first (j + 1) rest := by
      simp only [apart?, Coordinate.orderFault?, Coordinate.refuse?, Box.overlaps?_int,
        Except.mapError, bind, Except.bind, pure, Except.pure]
      split
      · rfl
      · split <;> rfl
    rw [hstep]
    by_cases hbelow : first.bottom ≤ second.top
    · -- No later box starts above this one, so none overlaps.
      rw [if_pos hbelow]
      refine Or.inl ⟨rfl, fun c hc => Box.not_overlap_of_bottom_le ?_⟩
      rcases List.mem_cons.mp hc with rfl | hc
      · exact hbelow
      · exact hbelow.trans (List.rel_of_pairwise_cons h hc)
    · rw [if_neg hbelow]
      by_cases hoverlap : first.Overlap second
      · rw [if_pos (Box.overlaps_iff.mpr hoverlap)]
        exact Or.inr ⟨0, second, rfl, hoverlap, fun k hk => absurd hk (Nat.not_lt_zero k), rfl⟩
      · rw [if_neg (mt Box.overlaps_iff.mp hoverlap)]
        rcases ih (j + 1) h.of_cons with ⟨hok, hall⟩ | ⟨l, c, hc, hcover, hbefore, herror⟩
        · exact Or.inl ⟨hok, List.forall_mem_cons.mpr ⟨hoverlap, hall⟩⟩
        · have hzero : ∀ d ∈ (second :: rest)[0]?, ¬first.Overlap d := by simpa using hoverlap
          refine Or.inr ⟨l + 1, c, hc, hcover,
            Nat.forall_lt_succ_left.mpr ⟨hzero, hbefore⟩, ?_⟩
          rw [Nat.add_comm l 1, ← Nat.add_assoc]
          exact herror

/-- Boxes that come in the order of their tops are checked for whether two of them overlap, and the
first pair that does is reported. -/
theorem disjoint?_cases (i : Nat) (h : boxes.Pairwise fun b c => b.top ≤ c.top) :
    (disjoint? i boxes = .ok () ∧ boxes.Pairwise fun b c => ¬b.Overlap c) ∨
      ∃ k b l c, FirstOverlap boxes k b l c ∧
        disjoint? i boxes = .error (.overlap (i + k) b (i + l) c) := by
  induction boxes generalizing i with
  | nil => exact Or.inl ⟨rfl, List.Pairwise.nil⟩
  | cons first rest ih =>
    have hstep : disjoint? i (first :: rest) =
        (apart? i first (i + 1) rest >>= fun _ => disjoint? (i + 1) rest) := rfl
    rw [hstep]
    rcases apart?_cases i first (i + 1) h.of_cons with
      ⟨hok, hall⟩ | ⟨l, c, hc, hover, hfirst, herror⟩
    · rw [hok]
      rcases ih (i + 1) h.of_cons with ⟨hok', hapart⟩ | ⟨k, b, l, c, hfirst, herror⟩
      · exact Or.inl ⟨hok', List.pairwise_cons.mpr ⟨hall, hapart⟩⟩
      · refine Or.inr ⟨k + 1, b, l + 1, c, ⟨Nat.succ_lt_succ hfirst.lt, hfirst.left_eq,
          hfirst.right_eq, hfirst.overlap, fun k' l' hlt hbefore d hd e he => ?_⟩, ?_⟩
        · obtain ⟨l', rfl⟩ := Nat.exists_eq_succ_of_ne_zero (Nat.ne_of_gt (Nat.zero_lt_of_lt hlt))
          cases k' with
          | zero =>
            cases hd
            exact hall e (List.mem_of_getElem? he)
          | succ k' => exact hfirst.first k' l' (by omega) (by omega) d hd e he
        · rw [Nat.add_comm k 1, ← Nat.add_assoc, Nat.add_comm l 1, ← Nat.add_assoc]
          exact herror
    · refine Or.inr ⟨0, first, l + 1, c, ⟨Nat.succ_pos l, rfl, hc, hover,
        fun k' l' hlt hbefore d hd e he => ?_⟩, ?_⟩
      · obtain ⟨l', rfl⟩ := Nat.exists_eq_succ_of_ne_zero (Nat.ne_of_gt (Nat.zero_lt_of_lt hlt))
        obtain ⟨rfl, hlt'⟩ := hbefore.resolve_left (Nat.not_lt_zero k')
        cases hd
        exact hfirst l' (Nat.lt_of_succ_lt_succ hlt') e he
      · rw [herror, Nat.add_zero, Nat.add_comm l 1, ← Nat.add_assoc]
        rfl

/-! ## All checks -/

/-- Boxes are in the order of delivery if each follows the one before it and no two overlap. -/
theorem delivered_iff :
    Delivered boxes ↔ (∀ k, FollowsAt boxes k) ∧ boxes.Pairwise fun b c => ¬b.Overlap c := by
  constructor
  · intro h
    refine ⟨followsAt_of_pairwise ((h.rows.and h.columns).imp ?_), h.apart⟩
    rintro b c ⟨hle, hbeside⟩
    exact hle.lt_or_eq.imp id fun heq => ⟨heq, hbeside heq⟩
  · rintro ⟨hfollows, hapart⟩
    have hpairs := pairwise_follows hfollows
    exact ⟨hpairs.imp Box.Follows.top_le,
      hpairs.imp fun hbc heq => (hbc.resolve_left heq.not_lt).2, hapart⟩

/-- Boxes pass the check if they are in the order of delivery, else there is something to report of
them and it is reported. -/
theorem rowMajor?_cases (boxes : List (Box Int)) :
    (rowMajor? boxes = .ok () ∧ Delivered boxes) ∨
      ∃ e, rowMajor? boxes = .error e ∧ e.Reports boxes := by
  cases boxes with
  | nil => exact Or.inl ⟨rfl, delivered_iff.mpr ⟨fun k => by simp [FollowsAt], List.Pairwise.nil⟩⟩
  | cons first rest =>
    have hstep : rowMajor? (first :: rest) =
        (ordered? 1 first rest >>= fun _ => disjoint? 0 (first :: rest)) := rfl
    rw [hstep]
    rcases ordered?_cases 1 first rest with ⟨hok, hfollows⟩ | ⟨i, b, c, hbreak, herror⟩
    · rw [hok]
      have hrows := (pairwise_follows hfollows).imp Box.Follows.top_le
      rcases disjoint?_cases 0 hrows with ⟨hok', hapart⟩ | ⟨k, b, l, c, hoverlap, herror⟩
      · exact Or.inl ⟨hok', delivered_iff.mpr ⟨hfollows, hapart⟩⟩
      · rw [Nat.zero_add, Nat.zero_add] at herror
        exact Or.inr ⟨_, herror, Or.inr ⟨hfollows, k, b, l, c, hoverlap, rfl⟩⟩
    · rw [herror, Nat.add_comm 1 i]
      exact Or.inr ⟨_, rfl, Or.inl ⟨i, b, c, hbreak, rfl⟩⟩

/-! ### What there is to report -/

theorem FirstBreak.not_followsAt {i : Nat} {b c : Box Int} (h : FirstBreak boxes i b c) :
    ¬FollowsAt boxes i :=
  fun hfollows => h.not_follows (hfollows b h.before_eq c h.box_eq)

/-- There is one first break. -/
theorem FirstBreak.eq {i i' : Nat} {b c b' c' : Box Int} (h : FirstBreak boxes i b c)
    (h' : FirstBreak boxes i' b' c') : i = i' ∧ b = b' ∧ c = c' := by
  have hi : i = i' := by
    rcases Nat.lt_trichotomy i i' with hlt | heq | hlt
    · exact absurd (h'.first i hlt) h.not_followsAt
    · exact heq
    · exact absurd (h.first i' hlt) h'.not_followsAt
  subst hi
  exact ⟨rfl, Option.some.inj (h.before_eq.symm.trans h'.before_eq),
    Option.some.inj (h.box_eq.symm.trans h'.box_eq)⟩

theorem FirstOverlap.not_before {i j i' j' : Nat} {b c b' c' : Box Int}
    (h : FirstOverlap boxes i b j c) (h' : FirstOverlap boxes i' b' j' c') :
    ¬(i < i' ∨ i = i' ∧ j < j') :=
  fun hbefore => h'.first i j h.lt hbefore b h.left_eq c h.right_eq h.overlap

/-- There is one first overlap. -/
theorem FirstOverlap.eq {i j i' j' : Nat} {b c b' c' : Box Int} (h : FirstOverlap boxes i b j c)
    (h' : FirstOverlap boxes i' b' j' c') : i = i' ∧ b = b' ∧ j = j' ∧ c = c' := by
  have := h.not_before h'
  have := h'.not_before h
  obtain ⟨rfl, rfl⟩ : i = i' ∧ j = j' := by omega
  exact ⟨rfl, Option.some.inj (h.left_eq.symm.trans h'.left_eq), rfl,
    Option.some.inj (h.right_eq.symm.trans h'.right_eq)⟩

namespace RowMajorError.Reports

variable {e e' : RowMajorError Int}

/-- There is nothing to report of boxes in the order of delivery. -/
theorem not_delivered (h : e.Reports boxes) : ¬Delivered boxes := by
  rw [delivered_iff]
  rintro ⟨hfollows, hapart⟩
  rcases h with ⟨i, b, c, hbreak, -⟩ | ⟨-, i, b, j, c, hoverlap, -⟩
  · exact hbreak.not_followsAt (hfollows i)
  · obtain ⟨hi, rfl⟩ := List.getElem?_eq_some_iff.mp hoverlap.left_eq
    obtain ⟨hj, rfl⟩ := List.getElem?_eq_some_iff.mp hoverlap.right_eq
    exact List.pairwise_iff_getElem.mp hapart i j hi hj hoverlap.lt hoverlap.overlap

/-- There is one thing to report. -/
theorem eq (h : e.Reports boxes) (h' : e'.Reports boxes) : e = e' := by
  rcases h with ⟨i, b, c, hbreak, rfl⟩ | ⟨hfollows, i, b, j, c, hoverlap, rfl⟩
  · rcases h' with ⟨i', b', c', hbreak', rfl⟩ | ⟨hfollows', -⟩
    · obtain ⟨rfl, rfl, rfl⟩ := hbreak.eq hbreak'
      rfl
    · exact absurd (hfollows' i) hbreak.not_followsAt
  · rcases h' with ⟨i', b', c', hbreak', -⟩ | ⟨-, i', b', j', c', hoverlap', rfl⟩
    · exact absurd (hfollows i') hbreak'.not_followsAt
    · obtain ⟨rfl, rfl, rfl, rfl⟩ := hoverlap.eq hoverlap'
      rfl

end RowMajorError.Reports

/-- Boxes pass the check if and only if they are in the order of delivery, and an error is reported
if and only if it is what there is to report : the first box that does not follow the one before it
or, where each does, the first pair of boxes that overlap. -/
theorem rowMajor?_iff (boxes : List (Box Int)) :
    (rowMajor? boxes = .ok () ↔ Delivered boxes) ∧
      ∀ e, rowMajor? boxes = .error e ↔ e.Reports boxes := by
  rcases rowMajor?_cases boxes with ⟨hok, hdelivered⟩ | ⟨e, herror, hreports⟩
  · refine ⟨iff_of_true hok hdelivered, fun e => iff_of_false ?_ fun hreports => ?_⟩
    · rw [hok]
      exact fun heq => nomatch heq
    · exact hreports.not_delivered hdelivered
  · refine ⟨iff_of_false ?_ hreports.not_delivered, fun e' => ⟨fun herror' => ?_, fun h => ?_⟩⟩
    · rw [herror]
      exact fun heq => nomatch heq
    · rwa [← Except.error.inj (herror.symm.trans herror')]
    · rw [herror, hreports.eq h]

/-- A tall box that reaches a later one, past the box between them. -/
example :
    let tall : Box Int := { left := 0, top := 0, right := 1, bottom := 3 }
    let between : Box Int := { left := 2, top := 0, right := 4, bottom := 1 }
    let low : Box Int := { left := 0, top := 2, right := 4, bottom := 3 }
    rowMajor? [tall, between, low] = .error (.overlap 0 tall 2 low) := by
  rfl

end Confinement
