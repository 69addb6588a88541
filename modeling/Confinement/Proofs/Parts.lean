import Confinement.Proofs.Closures
import Mathlib.Data.List.Chain
import Mathlib.Tactic.Ring

/-!
# Connected parts

Two points of a region are in the same part if boxes that touch one after another lead from
the one to the other (`Region.Joined`). The points of one border of an exact outline are in
the same part, because the pixels inside it lie side by side (`Outline.Exact.joined_of_holds`).

A motion that goes on inside one of the boxes wherever it is in the region never leaves the
part it starts in (`Region.joined_along`) : the boxes are finitely many, so there is a last
moment at which it is still in that part, and from there it would go on. Unless a border blocks
it, a motion does go on, so up to the first border that it meets it stays in the region, and
in the same part of it (`Outline.Exact.joined_up_to`).
-/

namespace Confinement

/-! ## Chains of boxes -/

/-- Whether two boxes have a point in common, on their edges at least. -/
def Box.Touches (b c : Box Int) : Prop :=
  ∃ p, b.Closure p ∧ c.Closure p

/-- Boxes touch if none of them ends before the other one begins. -/
theorem Box.touches_iff (b c : Box Int) : b.Touches c ↔
    b.left ≤ c.right ∧ c.left ≤ b.right ∧ b.top ≤ c.bottom ∧ c.top ≤ b.bottom := by
  constructor
  · rintro ⟨p, ⟨⟨hl, hr⟩, ht, hb⟩, ⟨hl', hr'⟩, ht', hb'⟩
    exact ⟨Int.cast_le.mp (hl.trans hr'), Int.cast_le.mp (hl'.trans hr),
      Int.cast_le.mp (ht.trans hb'), Int.cast_le.mp (ht'.trans hb)⟩
  · rintro ⟨hlr, hlr', htb, htb'⟩
    have := b.left_lt_right
    have := b.top_lt_bottom
    have := c.left_lt_right
    have := c.top_lt_bottom
    refine ⟨⟨((max b.left c.left : Int) : Rat), ((max b.top c.top : Int) : Rat)⟩,
      ⟨⟨Int.cast_le.mpr ?_, Int.cast_le.mpr ?_⟩, Int.cast_le.mpr ?_, Int.cast_le.mpr ?_⟩,
      ⟨Int.cast_le.mpr ?_, Int.cast_le.mpr ?_⟩, Int.cast_le.mpr ?_, Int.cast_le.mpr ?_⟩ <;> omega

instance (b c : Box Int) : Decidable (b.Touches c) :=
  decidable_of_iff' _ (b.touches_iff c)

namespace Region

/-- Whether boxes that touch one after another lead from one point to another. -/
def Joined (r : Region Int) (p q : Point Rat) : Prop :=
  ∃ chain : List (Box Int), (∀ b ∈ chain, b ∈ r.boxes) ∧ chain.IsChain Box.Touches ∧
    (∃ b ∈ chain.head?, b.Closure p) ∧ ∃ b ∈ chain.getLast?, b.Closure q

variable {r : Region Int} {p q z : Point Rat}

theorem joined_of_box {b : Box Int} (hb : b ∈ r.boxes) (hp : b.Closure p) (hq : b.Closure q) :
    r.Joined p q :=
  ⟨[b], by simpa using hb, List.isChain_singleton b, ⟨b, rfl, hp⟩, b, rfl, hq⟩

theorem joined_of_pixel {x y : Int} (h : r.Covers x y) (hp : InPixel x y p) (hq : InPixel x y q) :
    r.Joined p q := by
  obtain ⟨b, hb, hcov⟩ := h
  exact joined_of_box hb (Box.closure_of_inPixel hcov hp) (Box.closure_of_inPixel hcov hq)

namespace Joined

theorem closure_right (h : r.Joined p q) : r.Closure q := by
  obtain ⟨chain, hmem, -, -, b, hb, hq⟩ := h
  exact ⟨b, hmem b (List.mem_of_mem_getLast? hb), hq⟩

theorem symm (h : r.Joined p q) : r.Joined q p := by
  obtain ⟨chain, hmem, hchain, hp, hq⟩ := h
  refine ⟨chain.reverse, fun b hb => hmem b (List.mem_reverse.mp hb), ?_, ?_, ?_⟩
  · refine List.isChain_reverse.mpr (hchain.imp fun b c hbc => ?_)
    obtain ⟨z, hb, hc⟩ := hbc
    exact ⟨z, hc, hb⟩
  · rwa [List.head?_reverse]
  · rwa [List.getLast?_reverse]

theorem trans (h : r.Joined p q) (h' : r.Joined q z) : r.Joined p z := by
  obtain ⟨chain, hmem, hchain, ⟨b, hb, hp⟩, c, hc, hq⟩ := h
  obtain ⟨chain', hmem', hchain', ⟨b', hb', hq'⟩, c', hc', hz⟩ := h'
  refine ⟨chain ++ chain', fun d hd => ?_, ?_, ⟨b, ?_, hp⟩, c', ?_, hz⟩
  · exact (List.mem_append.mp hd).elim (hmem d) (hmem' d)
  · refine List.isChain_append.mpr ⟨hchain, hchain', fun d hd d' hd' => ?_⟩
    cases Option.mem_unique hd hc
    cases Option.mem_unique hd' hb'
    exact ⟨q, hq, hq'⟩
  · exact List.mem_head?_append_of_mem_head? hb
  · exact List.mem_getLast?_append_of_mem_getLast? hc'

/-- A set of boxes that no box outside of it touches holds both ends of a chain, or none. -/
theorem exists_of_closed (h : r.Joined p q) {P : Box Int → Prop}
    (hstart : ∀ b ∈ r.boxes, b.Closure p → P b)
    (hclosed : ∀ b ∈ r.boxes, ∀ c ∈ r.boxes, P b → b.Touches c → P c) :
    ∃ b ∈ r.boxes, P b ∧ b.Closure q := by
  obtain ⟨chain, hmem, hchain, ⟨b, hb, hp⟩, c, hc, hq⟩ := h
  have hfirst : P b := hstart b (hmem b (List.mem_of_mem_head? hb)) hp
  refine ⟨c, hmem c (List.mem_of_mem_getLast? hc), ?_, hq⟩
  clear hp hq
  induction chain generalizing b with
  | nil => cases hb
  | cons d rest ih =>
    cases Option.some.inj hb
    cases rest with
    | nil =>
      cases Option.some.inj hc
      exact hfirst
    | cons e rest =>
      have hd := hmem d List.mem_cons_self
      have he := hmem e (List.mem_cons_of_mem _ List.mem_cons_self)
      obtain ⟨htouch, hchain⟩ := List.isChain_cons_cons.mp hchain
      exact ih (fun f hf => hmem f (List.mem_cons_of_mem _ hf)) hchain e rfl
        (by rwa [List.getLast?_cons_cons] at hc) (hclosed d hd e he hfirst htouch)

end Joined

/-! ## Along rows and columns -/

theorem joined_of_row {x x' y : Int} (hle : x ≤ x') (h : ∀ c, x ≤ c → c ≤ x' → r.Covers c y)
    (hp : InPixel x y p) (hq : InPixel x' y q) : r.Joined p q := by
  induction x', hle using Int.leInduction generalizing q with
  | base => exact joined_of_pixel (h x le_rfl le_rfl) hp hq
  | succ x' hle ih =>
    have hline : InPixel x' y ⟨((x' + 1 : Int) : Rat), q.y⟩ := by
      refine ⟨⟨?_, ?_⟩, hq.2⟩
      · exact Int.cast_le.mpr (by omega)
      · push_cast
        exact le_rfl
    have hbefore := ih (fun c hc hc' => h c hc (by omega)) hline
    refine hbefore.trans (joined_of_pixel (h (x' + 1) (by omega) le_rfl) ⟨⟨le_rfl, ?_⟩, hq.2⟩ hq)
    linarith

theorem joined_of_column {x y y' : Int} (hle : y ≤ y') (h : ∀ c, y ≤ c → c ≤ y' → r.Covers x c)
    (hp : InPixel x y p) (hq : InPixel x y' q) : r.Joined p q := by
  induction y', hle using Int.leInduction generalizing q with
  | base => exact joined_of_pixel (h y le_rfl le_rfl) hp hq
  | succ y' hle ih =>
    have hline : InPixel x y' ⟨q.x, ((y' + 1 : Int) : Rat)⟩ := by
      refine ⟨hq.1, ?_, ?_⟩
      · exact Int.cast_le.mpr (by omega)
      · push_cast
        exact le_rfl
    have hbefore := ih (fun c hc hc' => h c hc (by omega)) hline
    refine hbefore.trans (joined_of_pixel (h (y' + 1) (by omega) le_rfl) ⟨hq.1, le_rfl, ?_⟩ hq)
    linarith

end Region

/-! ## Along borders -/

namespace Outline.Exact

variable {outline : Outline Int} {r : Region Int} {b : Border Int} {p q : Point Rat}

/-- A horizontal border has covered pixels all along one of its two sides. -/
theorem exists_row_inside (h : Exact outline r) (hb : b ∈ outline)
    (hy : b.line.start.y = b.line.stop.y) :
    ∃ row, InCell row (b.line.start.y : Rat) ∧
      ∀ x, b.line.start.x ≤ x → x < b.line.stop.x → r.Covers x row := by
  refine ⟨if b.blocks.down then b.line.start.y - 1 else b.line.start.y, ?_, fun x hle hlt =>
    (h.beside_top hb ⟨rfl, hy.symm, hle, hlt⟩).1⟩
  split
  · exact inCell_before_line _
  · exact inCell_line _

theorem exists_column_inside (h : Exact outline r) (hb : b ∈ outline)
    (hx : b.line.start.x = b.line.stop.x) :
    ∃ column, InCell column (b.line.start.x : Rat) ∧
      ∀ y, b.line.start.y ≤ y → y < b.line.stop.y → r.Covers column y := by
  refine ⟨if b.blocks.right then b.line.start.x - 1 else b.line.start.x, ?_, fun y hle hlt =>
    (h.beside_left hb ⟨rfl, hx.symm, hle, hlt⟩).1⟩
  split
  · exact inCell_before_line _
  · exact inCell_line _

/-- The points of one border are in the same part. -/
theorem joined_of_holds (h : Exact outline r) (hb : b ∈ outline) (hp : b.Holds p)
    (hq : b.Holds q) : r.Joined p q := by
  rcases h.proper b hb with ⟨hy, hx⟩ | ⟨hx, hy⟩
  · obtain ⟨row, hcell, hrow⟩ := h.exists_row_inside hb hy
    obtain ⟨x, ⟨-, -, hle, hlt⟩, hxp, hyp⟩ := b.exists_alongTop hy hx hp
    obtain ⟨x', ⟨-, -, hle', hlt'⟩, hxq, hyq⟩ := b.exists_alongTop hy hx hq
    rw [← hyp] at hcell
    have hcell' : InCell row q.y := by rwa [hyq, ← hyp]
    rcases Int.le_total x x' with hxx | hxx
    · exact Region.joined_of_row hxx (fun c hc hc' => hrow c (by omega) (by omega)) ⟨hxp, hcell⟩
        ⟨hxq, hcell'⟩
    · exact (Region.joined_of_row hxx (fun c hc hc' => hrow c (by omega) (by omega))
        ⟨hxq, hcell'⟩ ⟨hxp, hcell⟩).symm
  · obtain ⟨column, hcell, hcolumn⟩ := h.exists_column_inside hb hx
    obtain ⟨y, ⟨-, -, hle, hlt⟩, hxp, hyp⟩ := b.exists_alongLeft hx hy hp
    obtain ⟨y', ⟨-, -, hle', hlt'⟩, hxq, hyq⟩ := b.exists_alongLeft hx hy hq
    rw [← hxp] at hcell
    have hcell' : InCell column q.x := by rwa [hxq, ← hxp]
    rcases Int.le_total y y' with hyy | hyy
    · exact Region.joined_of_column hyy (fun c hc hc' => hcolumn c (by omega) (by omega))
        ⟨hcell, hyp⟩ ⟨hcell', hyq⟩
    · exact (Region.joined_of_column hyy (fun c hc hc' => hcolumn c (by omega) (by omega))
        ⟨hcell', hyq⟩ ⟨hcell, hyp⟩).symm

end Outline.Exact

/-! ## Motions inside boxes -/

/-- A coordinate that moves evenly stays below a bound up to some moment. -/
theorem exists_last_below {z d bound t₀ τ : Rat} (h : z + t₀ * d ≤ bound) (hτ : t₀ ≤ τ) :
    ∃ u, t₀ ≤ u ∧ u ≤ τ ∧ ∀ t, t₀ ≤ t → t ≤ τ → (z + t * d ≤ bound ↔ t ≤ u) := by
  rcases le_or_gt d 0 with hd | hd
  · refine ⟨τ, hτ, le_rfl, fun t ht hle => iff_of_true ?_ hle⟩
    have := mul_le_mul_of_nonpos_right ht hd
    linarith
  · have hiff (t : Rat) : z + t * d ≤ bound ↔ t ≤ (bound - z) / d := by
      rw [le_div_iff₀ hd, le_sub_iff_add_le']
    refine ⟨(bound - z) / d ⊓ τ, le_inf ((hiff t₀).mp h) hτ, inf_le_right, fun t _ hle => ?_⟩
    rw [hiff, le_inf_iff, and_iff_left hle]

/-- A coordinate that moves evenly stays above a bound up to some moment. -/
theorem exists_last_above {z d bound t₀ τ : Rat} (h : bound ≤ z + t₀ * d) (hτ : t₀ ≤ τ) :
    ∃ u, t₀ ≤ u ∧ u ≤ τ ∧ ∀ t, t₀ ≤ t → t ≤ τ → (bound ≤ z + t * d ↔ t ≤ u) := by
  have hiff (t : Rat) : bound ≤ z + t * d ↔ -z + t * -d ≤ -bound := by
    constructor <;> intro <;> linarith
  obtain ⟨u, hu, huτ, hlast⟩ := exists_last_below ((hiff t₀).mp h) hτ
  exact ⟨u, hu, huτ, fun t ht hle => (hiff t).trans (hlast t ht hle)⟩

/-- Whether something never holds in a span of time, or holds a last time. -/
def EndsOrNever (p : Rat → Prop) (t₀ τ : Rat) : Prop :=
  (∀ t, t₀ ≤ t → t ≤ τ → ¬p t) ∨
    ∃ u, t₀ ≤ u ∧ u ≤ τ ∧ p u ∧ ∀ t, t₀ ≤ t → t ≤ τ → p t → t ≤ u

namespace EndsOrNever

variable {p q : Rat → Prop} {t₀ τ : Rat}

theorem congr (h : EndsOrNever p t₀ τ) (hpq : ∀ t, q t ↔ p t) : EndsOrNever q t₀ τ := by
  rwa [EndsOrNever, funext fun t => propext (hpq t)]

/-- Of two things that hold a last time, the later last time is that of both. -/
theorem or (hp : EndsOrNever p t₀ τ) (hq : EndsOrNever q t₀ τ) :
    EndsOrNever (fun t => p t ∨ q t) t₀ τ := by
  rcases hp with hp | ⟨u, hu, huτ, hpu, hlast⟩
  · rcases hq with hq | ⟨v, hv, hvτ, hqv, hlast⟩
    · exact Or.inl fun t ht htτ h => h.elim (hp t ht htτ) (hq t ht htτ)
    · refine Or.inr ⟨v, hv, hvτ, Or.inr hqv, fun t ht htτ h => ?_⟩
      exact hlast t ht htτ (h.resolve_left (hp t ht htτ))
  · rcases hq with hq | ⟨v, hv, hvτ, hqv, hlast'⟩
    · refine Or.inr ⟨u, hu, huτ, Or.inl hpu, fun t ht htτ h => ?_⟩
      exact hlast t ht htτ (h.resolve_right (hq t ht htτ))
    · refine Or.inr ⟨u ⊔ v, le_sup_of_le_left hu, sup_le huτ hvτ, ?_, fun t ht htτ h => ?_⟩
      · rcases le_total u v with huv | hvu
        · rw [sup_eq_right.mpr huv]
          exact Or.inr hqv
        · rw [sup_eq_left.mpr hvu]
          exact Or.inl hpu
      · exact h.elim (fun hpt => le_sup_of_le_left (hlast t ht htτ hpt))
          fun hqt => le_sup_of_le_right (hlast' t ht htτ hqt)

end EndsOrNever

namespace Segment

variable {motion : Segment Rat} {t₀ τ : Rat}

/-- A motion in a box stays in it up to some moment. -/
theorem exists_last_in_box {b : Box Int} (h : b.Closure (motion.along t₀)) (hτ : t₀ ≤ τ) :
    ∃ u, t₀ ≤ u ∧ u ≤ τ ∧ ∀ t, t₀ ≤ t → t ≤ τ → (b.Closure (motion.along t) ↔ t ≤ u) := by
  obtain ⟨⟨hleft, hright⟩, htop, hbottom⟩ := h
  obtain ⟨u₁, hu₁, hτ₁, h₁⟩ := exists_last_above hleft hτ
  obtain ⟨u₂, hu₂, hτ₂, h₂⟩ := exists_last_below hright hτ
  obtain ⟨u₃, hu₃, hτ₃, h₃⟩ := exists_last_above htop hτ
  obtain ⟨u₄, hu₄, hτ₄, h₄⟩ := exists_last_below hbottom hτ
  refine ⟨u₁ ⊓ u₂ ⊓ (u₃ ⊓ u₄), le_inf (le_inf hu₁ hu₂) (le_inf hu₃ hu₄),
    inf_le_left.trans (inf_le_left.trans hτ₁), fun t ht hle => ?_⟩
  rw [le_inf_iff, le_inf_iff, le_inf_iff, ← h₁ t ht hle, ← h₂ t ht hle, ← h₃ t ht hle,
    ← h₄ t ht hle]
  exact Iff.rfl

/-- A motion is never in a box, or there is a last moment at which it is. -/
theorem endsOrNever_box (b : Box Int) (motion : Segment Rat) (t₀ τ : Rat) :
    EndsOrNever (fun t => b.Closure (motion.along t)) t₀ τ := by
  by_cases h : ∃ t, t₀ ≤ t ∧ t ≤ τ ∧ b.Closure (motion.along t)
  · obtain ⟨t, ht, htτ, hin⟩ := h
    obtain ⟨u, hu, huτ, hlast⟩ := exists_last_in_box hin htτ
    refine Or.inr ⟨u, ht.trans hu, huτ, (hlast u hu huτ).mpr le_rfl, fun s _ hsτ hs => ?_⟩
    rcases le_total t s with hts | hst
    · exact (hlast s hts hsτ).mp hs
    · exact hst.trans hu
  · exact Or.inl fun t ht htτ hin => h ⟨t, ht, htτ, hin⟩

/-- A motion is never in one of some boxes, or there is a last moment at which it is. -/
theorem endsOrNever_boxes (boxes : List (Box Int)) (p : Box Int → Prop) (motion : Segment Rat)
    (t₀ τ : Rat) :
    EndsOrNever (fun t => ∃ b ∈ boxes, p b ∧ b.Closure (motion.along t)) t₀ τ := by
  induction boxes with
  | nil => exact Or.inl (by simp)
  | cons b boxes ih =>
    by_cases hb : p b
    · refine ((endsOrNever_box b motion t₀ τ).or ih).congr fun t => ?_
      simp [hb]
    · refine ih.congr fun t => ?_
      simp [hb]

/-- The motion back. -/
def back (s : Segment Rat) : Segment Rat :=
  ⟨s.stop, s.start⟩

theorem along_back (s : Segment Rat) (t : Rat) : s.back.along t = s.along (1 - t) := by
  simp only [along, back, Point.mk.injEq]
  constructor <;> ring

/-- A motion into a box is in it from some moment on. -/
theorem exists_first_in_box {b : Box Int} (h : b.Closure (motion.along τ)) (hτ : t₀ ≤ τ) :
    ∃ u, t₀ ≤ u ∧ u ≤ τ ∧ ∀ t, t₀ ≤ t → t ≤ τ → (b.Closure (motion.along t) ↔ u ≤ t) := by
  have hback : b.Closure (motion.back.along (1 - τ)) := by rwa [along_back, sub_sub_cancel]
  obtain ⟨u, hu, hu', hlast⟩ := exists_last_in_box hback (sub_le_sub_left hτ 1)
  refine ⟨1 - u, by linarith, by linarith, fun t ht htτ => ?_⟩
  have hiff := hlast (1 - t) (sub_le_sub_left htτ 1) (sub_le_sub_left ht 1)
  rw [along_back, sub_sub_cancel] at hiff
  rw [hiff]
  constructor <;> intro <;> linarith

/-- A motion that is in no box both now and later is in none of them for a while. -/
theorem exists_outside {boxes : List (Box Int)} {t : Rat} (hτ : t < τ)
    (h : ∀ b ∈ boxes, b.Closure (motion.along t) → ∀ s, t < s → ¬b.Closure (motion.along s)) :
    ∃ u, t < u ∧ u ≤ τ ∧ ∀ b ∈ boxes, ∀ s, t < s → s ≤ u → ¬b.Closure (motion.along s) := by
  induction boxes with
  | nil => exact ⟨τ, hτ, le_rfl, by simp⟩
  | cons b boxes ih =>
    obtain ⟨hb, hboxes⟩ := List.forall_mem_cons.mp h
    obtain ⟨u, htu, huτ, hout⟩ := ih hboxes
    by_cases hlater : ∃ s, t < s ∧ s ≤ u ∧ b.Closure (motion.along s)
    · obtain ⟨s, hts, hsu, hin⟩ := hlater
      have hnow : ¬b.Closure (motion.along t) := fun hnow => hb hnow s hts hin
      obtain ⟨v, htv, hvs, hfirst⟩ := exists_first_in_box hin hts.le
      have hlt : t < v := lt_of_le_of_ne htv fun heq =>
        hnow ((hfirst t le_rfl hts.le).mpr heq.ge)
      have hmid : t < (t + v) / 2 ∧ (t + v) / 2 < v := ⟨by linarith, by linarith⟩
      refine ⟨(t + v) / 2, hmid.1, by linarith, List.forall_mem_cons.mpr ⟨?_, ?_⟩⟩
      · intro w htw hwv hin'
        have := (hfirst w htw.le (by linarith)).mp hin'
        linarith
      · exact fun c hc w htw hwv => hout c hc w htw (by linarith)
    · refine ⟨u, htu, huτ, List.forall_mem_cons.mpr ⟨fun s hts hsu hin => ?_, hout⟩⟩
      exact hlater ⟨s, hts, hsu, hin⟩

/-- A box that a motion is in twice holds it in between. -/
theorem closure_between {b : Box Int} {s t u : Rat} (hs : b.Closure (motion.along s))
    (hu : b.Closure (motion.along u)) (hst : s ≤ t) (htu : t ≤ u) : b.Closure (motion.along t) := by
  have hbetween (z d low high : Rat) (hs : low ≤ z + s * d ∧ z + s * d ≤ high)
      (hu : low ≤ z + u * d ∧ z + u * d ≤ high) : low ≤ z + t * d ∧ z + t * d ≤ high := by
    rcases le_total 0 d with hd | hd
    · have := mul_le_mul_of_nonneg_right hst hd
      have := mul_le_mul_of_nonneg_right htu hd
      constructor <;> linarith
    · have := mul_le_mul_of_nonpos_right hst hd
      have := mul_le_mul_of_nonpos_right htu hd
      constructor <;> linarith
  exact ⟨hbetween _ _ _ _ hs.1 hu.1, hbetween _ _ _ _ hs.2 hu.2⟩

end Segment

namespace Region

variable {r : Region Int} {motion : Segment Rat} {τ : Rat}

/-- Whether a box holds a motion at a moment at which it is in the part where it starts. -/
def Reached (r : Region Int) (motion : Segment Rat) (b : Box Int) : Prop :=
  ∃ t, b.Closure (motion.along t) ∧ r.Joined motion.start (motion.along t)

/-- Whenever a motion is in a box that is reached, it is in the part where it starts. -/
theorem Reached.joined {b : Box Int} (h : r.Reached motion b) (hb : b ∈ r.boxes) {t : Rat}
    (ht : b.Closure (motion.along t)) : r.Joined motion.start (motion.along t) := by
  obtain ⟨s, hs, hjoined⟩ := h
  exact hjoined.trans (joined_of_box hb hs ht)

/-- A motion that goes on inside one of the boxes, wherever it is in the region, stays in the
part in which it starts. -/
theorem joined_along (hτ : 0 ≤ τ) (hstart : r.Closure motion.start)
    (hgo : ∀ t, 0 ≤ t → t < τ → r.Closure (motion.along t) →
      ∃ b ∈ r.boxes, b.Closure (motion.along t) ∧ ∃ s, t < s ∧ b.Closure (motion.along s)) :
    r.Joined motion.start (motion.along τ) := by
  rcases Segment.endsOrNever_boxes r.boxes (r.Reached motion) motion 0 τ with
    hnever | ⟨u, hu, huτ, ⟨b, hb, hreached, hin⟩, hlast⟩
  · rw [← motion.along_zero] at hstart
    obtain ⟨b, hb, hin⟩ := hstart
    have hreached : r.Reached motion b := ⟨0, hin, by
      rw [motion.along_zero] at hin ⊢
      exact joined_of_box hb hin hin⟩
    exact absurd ⟨b, hb, hreached, hin⟩ (hnever 0 le_rfl hτ)
  · have hjoined := hreached.joined hb hin
    rcases huτ.lt_or_eq with hlt | rfl
    · -- From the last moment in the part the motion would go on, and so be in it later still.
      obtain ⟨c, hc, hcu, s, hus, hcs⟩ := hgo u hu hlt ⟨b, hb, hin⟩
      have hmin : c.Closure (motion.along (s ⊓ τ)) :=
        Segment.closure_between hcu hcs (le_inf hus.le huτ) inf_le_left
      have hle := hlast (s ⊓ τ) (hu.trans (le_inf hus.le huτ)) inf_le_right
        ⟨c, hc, ⟨u, hcu, hjoined⟩, hmin⟩
      exact absurd hle (not_le.mpr (lt_inf_iff.mpr ⟨hus, hlt⟩))
    · exact hjoined

/-- A motion that does not leave a region stays in the part in which it starts. -/
theorem joined_of_closure_along (hτ : 0 ≤ τ) (h : ∀ t, 0 ≤ t → t ≤ τ → r.Closure (motion.along t)) :
    r.Joined motion.start (motion.along τ) := by
  refine joined_along hτ (motion.along_zero ▸ h 0 le_rfl hτ) fun t ht htτ _ => ?_
  by_contra hnone
  have hnever : ∀ b ∈ r.boxes, b.Closure (motion.along t) →
      ∀ s, t < s → ¬b.Closure (motion.along s) := fun b hb hin s hts hin' =>
    hnone ⟨b, hb, hin, s, hts, hin'⟩
  obtain ⟨u, htu, huτ, hout⟩ := Segment.exists_outside htτ hnever
  obtain ⟨b, hb, hin⟩ := h u (ht.trans htu.le) huτ
  exact hout b hb u htu le_rfl hin

end Region

/-- A motion stays in the part in which it starts up to the first border that blocks it. -/
theorem Outline.Exact.joined_up_to {outline : Outline Int} {r : Region Int}
    (h : Exact outline r) {motion : Segment Rat} {τ : Rat} (hτ : 0 ≤ τ ∧ τ ≤ 1)
    (hstart : r.Closure motion.start)
    (hfree : ∀ b ∈ outline, b.blocksAny motion.directions = true →
      ∀ t u, (b.map (Lift.lift : Int → Rat)).line.MeetAt motion u t → τ ≤ t) :
    r.Joined motion.start (motion.along τ) := by
  refine Region.joined_along hτ.1 hstart fun t ht htτ hin => ?_
  rcases h.goes_on_or_blocked hin with hgo | ⟨b, hb, hholds, hblocks⟩
  · exact hgo
  · obtain ⟨u, hmeet⟩ := (h.proper b hb).exists_meetAt hblocks ⟨ht, htτ.le.trans hτ.2⟩ hholds
    exact absurd (hfree b hb hblocks t u hmeet) (not_le.mpr htτ)

end Confinement
