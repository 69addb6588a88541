import Confinement.Proofs.Landings
import Confinement.Proofs.Rechecks

/-!
# Ends of motions with a margin

A region does not contain its right and bottom edge, so motions are stopped a margin short of these
borders. The margin is kept across the border. Along the border the end is brought between the ends
of the border, and the last one of these may be on an edge itself, where the area turns away from
the border (`Border.AtOpenEnd`). There, and nowhere else, a motion that starts in a region
is confined to a position outside (`Region.Built.confines_inside`).

One border alone does this only to a motion that starts at an end of it
(`Outline.StoppedOnce.covers`). A motion towards the open end would hit the border that bounds it,
and one that comes from there has crossed the pixel after the end (`Outline.Exact.covers_behind`).
A second border can do it to any motion, as the axis that the first one has settled is not searched
again. In a hook the first border pins a motion far below, the second one is the right end of the
upper bar, and the lower end of that is on the edge below the bar (`Region.confines_inside_hook`).
-/

namespace Confinement

/-! ## Beside pinned ends -/

namespace Border

/-- The row of pixels inside a horizontal border. -/
def innerRow (b : Border Int) : Int :=
  if b.blocks.down then b.line.start.y - 1 else b.line.start.y

/-- The column of pixels inside a vertical border. -/
def innerColumn (b : Border Int) : Int :=
  if b.blocks.right then b.line.start.x - 1 else b.line.start.x

/-- Whether a point is at the last end of a border, and the pixel after that end is not covered. -/
def AtOpenEnd (b : Border Int) (r : Region Int) (p : Point Rat) : Prop :=
  if b.isHorizontal then p.x = b.line.stop.x ∧ ¬r.Covers b.line.stop.x b.innerRow
  else p.y = b.line.stop.y ∧ ¬r.Covers b.innerColumn b.line.stop.y

end Border

/-- A coordinate pinned to a line, a margin before it or at it, is in the cell before it or in the
one after it. -/
theorem floor_pinned (line : Int) {margin : Rat} (h : 0 < margin ∧ margin ≤ 1) (growing : Bool) :
    ⌊(line : Rat) - if growing then margin else 0⌋ = if growing then line - 1 else line := by
  cases growing with
  | false => simp
  | true =>
    rw [if_pos rfl, if_pos rfl, Int.floor_eq_iff]
    push_cast
    constructor <;> linarith

namespace Outline.Exact

variable {outline : Outline Int} {r : Region Int} {b : Border Int} {free : Directions}
  {margin : Rat} {x y : Int}

/-- A horizontal border that blocks a motion blocks it downwards if and only if it goes down. -/
theorem down_eq (h : Exact outline r) (hb : b ∈ outline) (halong : b.AlongTop x y)
    (hblocks : b.blocksAny free = true) (hfree : free.OneWay) : free.down = b.blocks.down := by
  rcases h.edgeTop_of_blocksAny hb halong hblocks with ⟨honly, hup, -⟩ | ⟨honly, hdown, -⟩
  · rw [honly]
    exact Bool.eq_false_iff.mpr fun hd => hfree.2 ⟨hd, hup⟩
  · rw [honly]
    exact hdown

/-- A vertical border that blocks a motion blocks it to the right if and only if it goes there. -/
theorem right_eq (h : Exact outline r) (hb : b ∈ outline) (halong : b.AlongLeft x y)
    (hblocks : b.blocksAny free = true) (hfree : free.OneWay) : free.right = b.blocks.right := by
  rcases h.edgeLeft_of_blocksAny hb halong hblocks with ⟨honly, hleft, -⟩ | ⟨honly, hright, -⟩
  · rw [honly]
    exact Bool.eq_false_iff.mpr fun hr => hfree.1 ⟨hr, hleft⟩
  · rw [honly]
    exact hright

/-- Where a border pins the end of a motion : along it between its ends, and across it in the row
or column of pixels inside. -/
theorem pin_cases (h : Exact outline r) (hb : b ∈ outline) (hblocks : b.blocksAny free = true)
    (hfree : free.OneWay) (hmargin : 0 < margin ∧ margin ≤ 1) {p q : Point Rat}
    (hq : (b.map (Lift.lift : Int → Rat)).pin p free margin = q) :
    (b.line.start.y = b.line.stop.y ∧ b.line.start.x < b.line.stop.x ∧
        q.x = Coordinate.clamp p.x b.line.start.x b.line.stop.x ∧ ⌊q.y⌋ = b.innerRow) ∨
      b.line.start.x = b.line.stop.x ∧ b.line.start.y < b.line.stop.y ∧
        q.y = Coordinate.clamp p.y b.line.start.y b.line.stop.y ∧ ⌊q.x⌋ = b.innerColumn := by
  unfold Border.pin at hq
  rw [Border.isHorizontal_lift] at hq
  rcases h.proper b hb with ⟨hy, hx⟩ | ⟨hx, hy⟩
  · have hhorizontal : b.isHorizontal = true := beq_iff_eq.mpr hy
    rw [if_pos hhorizontal, h.down_eq hb ⟨rfl, hy.symm, le_rfl, hx⟩ hblocks hfree] at hq
    rw [← hq]
    exact Or.inl ⟨hy, hx, rfl, floor_pinned _ hmargin _⟩
  · have hvertical : ¬b.isHorizontal = true := fun heq => hy.ne (beq_iff_eq.mp heq)
    rw [if_neg hvertical, h.right_eq hb ⟨rfl, hx.symm, le_rfl, hy⟩ hblocks hfree] at hq
    rw [← hq]
    exact Or.inr ⟨hx, hy, rfl, floor_pinned _ hmargin _⟩

/-- A pinned end is over a covered pixel unless it is at an open end of the border. -/
theorem covers_pin_iff (h : Exact outline r) (hb : b ∈ outline) (hblocks : b.blocksAny free = true)
    (hfree : free.OneWay) (hmargin : 0 < margin ∧ margin ≤ 1) {p q : Point Rat}
    (hq : (b.map (Lift.lift : Int → Rat)).pin p free margin = q) :
    r.Covers ⌊q.x⌋ ⌊q.y⌋ ↔ ¬b.AtOpenEnd r q := by
  unfold Border.AtOpenEnd
  rcases h.pin_cases hb hblocks hfree hmargin hq with
    ⟨hy, hx, hclamp, hrow⟩ | ⟨hx, hy, hclamp, hcolumn⟩
  · have hhorizontal : b.isHorizontal = true := beq_iff_eq.mpr hy
    obtain ⟨hlow, hhigh⟩ := Coordinate.clamp_mem (a := p.x) (Int.cast_le (R := Rat).mpr hx.le)
    rw [← hclamp] at hlow hhigh
    rw [if_pos hhorizontal, hrow]
    rcases hhigh.lt_or_eq with hlt | heq
    · have hcovers := (h.beside_top hb ⟨rfl, hy.symm, floor_mem hlow hlt⟩).1
      exact iff_of_true hcovers fun hopen => hlt.ne hopen.1
    · rw [heq, Int.floor_intCast, not_and_not_right]
      exact ⟨fun hcovers _ => hcovers, fun hcovers => hcovers rfl⟩
  · have hvertical : ¬b.isHorizontal = true := fun heq => hy.ne (beq_iff_eq.mp heq)
    obtain ⟨hlow, hhigh⟩ := Coordinate.clamp_mem (a := p.y) (Int.cast_le (R := Rat).mpr hy.le)
    rw [← hclamp] at hlow hhigh
    rw [if_neg hvertical, hcolumn]
    rcases hhigh.lt_or_eq with hlt | heq
    · have hcovers := (h.beside_left hb ⟨rfl, hx.symm, floor_mem hlow hlt⟩).1
      exact iff_of_true hcovers fun hopen => hlt.ne hopen.1
    · rw [heq, Int.floor_intCast, not_and_not_right]
      exact ⟨fun hcovers _ => hcovers, fun hcovers => hcovers rfl⟩

end Outline.Exact

namespace Outline

variable {outline : Outline Int} {r : Region Int} {motion last : Segment Rat} {margin : Rat}
  {borders : List (Border Rat)}

/-- A motion that borders stop ends over a covered pixel unless it is at an open end of the last
one. -/
theorem Clamped.covers_iff {free : Directions}
    (hclamped : Clamped outline.lift margin motion free last borders) (h : Exact outline r)
    (hfree : free.OneWay) (hmargin : 0 < margin ∧ margin ≤ 1) (hne : borders ≠ []) :
    ∃ b ∈ outline, borders.getLast? = some (b.map Lift.lift) ∧
      (r.Covers ⌊last.stop.x⌋ ⌊last.stop.y⌋ ↔ ¬b.AtOpenEnd r last.stop) := by
  induction hclamped with
  | unhindered => exact absurd rfl hne
  | @pinned motion last free b borders hit rest ih =>
    obtain ⟨t, hit⟩ := exists_hitAt hit
    obtain ⟨c, hc, rfl, hblocks⟩ := hit.exists_mem
    cases rest with
    | unhindered => exact ⟨c, hc, rfl, h.covers_pin_iff hc hblocks hfree hmargin rfl⟩
    | pinned hit' rest' =>
      obtain ⟨b, hb, hlast, hiff⟩ := ih (hfree.without _) (List.cons_ne_nil _ _)
      exact ⟨b, hb, by rw [List.getLast?_cons_cons, hlast], hiff⟩

end Outline

theorem inCell_of_floor_eq {c : Int} {z : Rat} (h : ⌊z⌋ = c) : InCell c z := by
  rw [← h]
  exact inCell_floor z

/-! ## Where motions come from -/

/-- A coordinate that moves to a grid line comes from the cell before it if it grows, else from the
one after it. -/
theorem exists_floor_behind (line : Int) (d : Rat) : ∃ ε > 0, ∀ t, 0 < t → t ≤ ε →
    ⌊(line : Rat) + -t * d⌋ = if 0 < d then line - 1 else line := by
  obtain ⟨ε, hε, hbehind⟩ := exists_between_ahead
    (z := (line : Rat)) ⟨sub_one_lt _, lt_add_one _⟩ (-d)
  refine ⟨ε, hε, fun t ht hle => ?_⟩
  obtain ⟨hlow, hhigh⟩ := hbehind t ht.le hle
  rw [mul_neg, ← neg_mul] at hlow hhigh
  rw [Int.floor_eq_iff]
  split
  · rename_i hd
    have := mul_pos ht hd
    push_cast
    constructor <;> linarith
  · rename_i hd
    have := mul_nonpos_of_nonneg_of_nonpos ht.le (not_lt.mp hd)
    constructor <;> linarith

namespace Outline

variable {outline : Outline Int} {r : Region Int} {motion : Segment Rat} {t : Rat}

/-- A motion that starts over a covered pixel, and is at no border that blocks it before it comes to
a crossing of two grid lines, comes there from a covered pixel. -/
theorem Exact.covers_behind (h : Exact outline r)
    (hstart : r.Covers ⌊motion.start.x⌋ ⌊motion.start.y⌋) (ht : 0 < t)
    (hfree : ∀ s, 0 ≤ s → s < t → ∀ b ∈ outline, b.Holds (motion.along s) →
      ¬b.blocksAny motion.directions = true) {x y : Int} (hx : (motion.along t).x = x)
    (hy : (motion.along t).y = y) :
    r.Covers (if 0 < motion.stop.x - motion.start.x then x - 1 else x)
      (if 0 < motion.stop.y - motion.start.y then y - 1 else y) := by
  obtain ⟨ε, hε, hbehindx⟩ := exists_floor_behind x (motion.stop.x - motion.start.x)
  obtain ⟨ε', hε', hbehindy⟩ := exists_floor_behind y (motion.stop.y - motion.start.y)
  have hpos : 0 < ε ⊓ ε' ⊓ t := lt_inf_iff.mpr ⟨lt_inf_iff.mpr ⟨hε, hε'⟩, ht⟩
  have hle : ε ⊓ ε' ⊓ t ≤ ε ⊓ ε' := inf_le_left
  have hnonneg : 0 ≤ t + -(ε ⊓ ε' ⊓ t) := by linarith [inf_le_right (a := ε ⊓ ε') (b := t)]
  have hcovers := h.covers_along hnonneg hstart fun s hs hsle =>
    hfree s hs (hsle.trans_lt (by linarith))
  rw [Segment.along_add, hx, hy, hbehindx _ hpos (hle.trans inf_le_left),
    hbehindy _ hpos (hle.trans inf_le_right)] at hcovers
  exact hcovers

/-- Before the first border that it hits, a motion is at none that blocks it. -/
theorem HitAt.free_before {b : Border Rat} (h : Exact outline r)
    (hit : HitAt outline.lift motion motion.directions b t) :
    ∀ s, 0 ≤ s → s < t → ∀ c ∈ outline, c.Holds (motion.along s) →
      ¬c.blocksAny motion.directions = true := by
  intro s hs hst c hc hholds hblocks
  obtain ⟨v, hmeet⟩ := hit.meets
  obtain ⟨u, hmeet'⟩ :=
    (h.proper c hc).exists_meetAt hblocks ⟨hs, hst.le.trans hmeet.on_way.2⟩ hholds
  have hle := hit.first (c.map Lift.lift) (List.mem_map_of_mem hc)
    ((Border.blocksAny_lift c _).trans hblocks) s u hmeet'
  exact absurd hst (not_lt.mpr hle)

/-! ## One border -/

/-- A motion to the right that ends between a covered pixel and one that is not covered meets a
border there that blocks the right. -/
theorem Exact.exists_meetAt_right (h : Exact outline r) {p q : Point Rat} {x y : Int}
    (hx : q.x = x) (hy : InCell y q.y) (hin : r.Covers (x - 1) y) (hout : ¬r.Covers x y)
    (hright : p.x < q.x) : ∃ c ∈ outline, (∀ free : Directions, c.blocksAny free = free.right) ∧
      ∃ u, (c.map (Lift.lift : Int → Rat)).line.MeetAt ⟨p, q⟩ u 1 := by
  obtain ⟨c, hc, hholds, honly⟩ := h.exists_facing_left (Or.inr ⟨rfl, hin, hout⟩) rfl hx hy
  refine ⟨c, hc, honly, (h.proper c hc).exists_meetAt ?_ ⟨zero_le_one, le_rfl⟩ ?_⟩
  · exact (honly _).trans ((Segment.contains_right _).mpr hright)
  · rwa [Segment.along_one]

/-- The same of a motion downwards. -/
theorem Exact.exists_meetAt_down (h : Exact outline r) {p q : Point Rat} {x y : Int}
    (hx : InCell x q.x) (hy : q.y = y) (hin : r.Covers x (y - 1)) (hout : ¬r.Covers x y)
    (hdown : p.y < q.y) : ∃ c ∈ outline, (∀ free : Directions, c.blocksAny free = free.down) ∧
      ∃ u, (c.map (Lift.lift : Int → Rat)).line.MeetAt ⟨p, q⟩ u 1 := by
  obtain ⟨c, hc, hholds, honly⟩ := h.exists_facing_top (Or.inr ⟨rfl, hin, hout⟩) rfl hx hy
  refine ⟨c, hc, honly, (h.proper c hc).exists_meetAt ?_ ⟨zero_le_one, le_rfl⟩ ?_⟩
  · exact (honly _).trans ((Segment.contains_down _).mpr hdown)
  · rwa [Segment.along_one]

/-- A coordinate that is clamped to the end of a range was no less. -/
theorem le_of_clamp_eq {a low high : Rat} (h : low < high)
    (hclamp : Coordinate.clamp a low high = high) : high ≤ a := by
  rw [Coordinate.clamp_rat, inf_eq_right] at hclamp
  exact (le_sup_iff.mp hclamp).resolve_right (not_le.mpr h)

/-- A coordinate that does not grow, and is aimed at the end of a range or beyond, is at that end
when it is in the range. -/
theorem share_eq_end {z goal high t : Rat} (ht : t ≤ 1) (hfalls : ¬z < goal) (hgoal : high ≤ goal)
    (hshare : z + t * (goal - z) ≤ high) : z + t * (goal - z) = high := by
  refine le_antisymm hshare (hgoal.trans ?_)
  have := mul_le_mul_of_nonpos_right ht (sub_nonpos.mpr (not_lt.mp hfalls))
  linarith

/-- A coordinate that grows starts before the end of a range, if it starts in the range and not at
its end. -/
theorem lt_of_share_le {z goal high t : Rat} (ht : 0 ≤ t) (hgrows : z < goal)
    (hshare : z + t * (goal - z) ≤ high) (hlater : z + t * (goal - z) = high → 0 < t) :
    z < high := by
  rcases hshare.lt_or_eq with hlt | heq
  · exact (le_add_of_nonneg_right (mul_nonneg ht (sub_nonneg.mpr hgrows.le))).trans_lt hlt
  · rw [← heq]
    exact lt_add_of_pos_right z (mul_pos (hlater heq) (sub_pos.mpr hgrows))

variable {b : Border Int} {margin : Rat} {q : Point Rat}

theorem innerRow_eq (h : motion.directions.down = b.blocks.down) :
    b.innerRow = if 0 < motion.stop.y - motion.start.y then b.line.start.y - 1
      else b.line.start.y := by
  unfold Border.innerRow
  rw [← h]
  simp [Segment.directions]

theorem innerColumn_eq (h : motion.directions.right = b.blocks.right) :
    b.innerColumn = if 0 < motion.stop.x - motion.start.x then b.line.start.x - 1
      else b.line.start.x := by
  unfold Border.innerColumn
  rw [← h]
  simp [Segment.directions]

/-- How a motion that one border stops gets to its end `q` : it hits the border after the share `t`
of its way, is pinned, and hits no other one on the way to where it is pinned. -/
structure StoppedOnce (outline : Outline Int) (margin : Rat) (motion : Segment Rat) (b : Border Int)
    (t : Rat) (q : Point Rat) : Prop where
  mem : b ∈ outline
  hit : HitAt outline.lift motion motion.directions (b.map Lift.lift) t
  pin_eq : (b.map (Lift.lift : Int → Rat)).pin motion.stop motion.directions margin = q
  unhindered : (motion.directions.without b.axis).isEmpty = true ∨
    (outline.lift : Outline Rat).firstHit? ⟨motion.start, q⟩
      (motion.directions.without b.axis) = .ok none

namespace StoppedOnce

theorem blocks (hs : StoppedOnce outline margin motion b t q) :
    b.blocksAny motion.directions = true := by
  rw [← Border.blocksAny_lift]
  exact hs.hit.blocks

theorem share (hs : StoppedOnce outline margin motion b t q) : 0 ≤ t ∧ t ≤ 1 := by
  obtain ⟨u, hmeet⟩ := hs.hit.meets
  exact hmeet.on_way

theorem holds (hs : StoppedOnce outline margin motion b t q) (h : Exact outline r) :
    b.Holds (motion.along t) := by
  obtain ⟨u, hmeet⟩ := hs.hit.meets
  exact (h.proper b hs.mem).holds_of_meetAt hmeet

/-- A motion that does not start at an end of the border takes its time to get there. -/
theorem pos_of_end (hs : StoppedOnce outline margin motion b t q) (hend : ¬b.HasEnd motion.start)
    (hx : (motion.along t).x = b.line.stop.x) (hy : (motion.along t).y = b.line.stop.y) :
    0 < t := by
  refine lt_of_le_of_ne hs.share.1 fun hzero => hend (Or.inr ?_)
  rw [← motion.along_zero, hzero]
  exact congrArg₂ Point.mk hx hy

theorem not_open_horizontal (hs : StoppedOnce outline margin motion b t q) (h : Exact outline r)
    (hstart : r.Covers ⌊motion.start.x⌋ ⌊motion.start.y⌋) (hend : ¬b.HasEnd motion.start)
    (hy : b.line.start.y = b.line.stop.y) (hx : b.line.start.x < b.line.stop.x)
    (hclamp : q.x = Coordinate.clamp motion.stop.x b.line.start.x b.line.stop.x)
    (hrow : ⌊q.y⌋ = b.innerRow) (hlast : q.x = b.line.stop.x) :
    r.Covers b.line.stop.x b.innerRow := by
  have halong : b.AlongTop b.line.start.x b.line.start.y := ⟨rfl, hy.symm, le_rfl, hx⟩
  have hholds := hs.holds h
  have hline : (motion.along t).y = b.line.start.y := le_antisymm (hy ▸ hholds.2.2) hholds.2.1
  have hpos (hz : (motion.along t).x = b.line.stop.x) : 0 < t :=
    hs.pos_of_end hend hz (hline.trans (congrArg Int.cast hy))
  by_cases hright : motion.start.x < motion.stop.x
  · -- On the way to the end it would hit the border there.
    by_contra hout
    have hshort : motion.start.x < q.x := by
      rw [hlast]
      exact lt_of_share_le hs.share.1 hright hholds.1.2 hpos
    obtain ⟨c, hc, honly, v, hmeet⟩ := h.exists_meetAt_right hlast (inCell_of_floor_eq hrow)
      (h.beside_top hs.mem ⟨rfl, hy.symm, by omega, by omega⟩).1 hout hshort
    refine not_meetAt_of_unhindered hs.unhindered hc ?_ _ _ hmeet
    rw [honly, halong.axis_eq]
    exact motion.contains_right.mpr hright
  · -- It hits the border at the end, and comes there from the pixel in question.
    have haimed := le_of_clamp_eq (Int.cast_lt.mpr hx) (hclamp.symm.trans hlast)
    have hz := share_eq_end hs.share.2 hright haimed hholds.1.2
    have hcovers := h.covers_behind hstart (hpos hz) (hs.hit.free_before h) hz hline
    rwa [if_neg (mt sub_pos.mp hright),
      ← innerRow_eq (h.down_eq hs.mem halong hs.blocks motion.oneWay_directions)] at hcovers

theorem not_open_vertical (hs : StoppedOnce outline margin motion b t q) (h : Exact outline r)
    (hstart : r.Covers ⌊motion.start.x⌋ ⌊motion.start.y⌋) (hend : ¬b.HasEnd motion.start)
    (hx : b.line.start.x = b.line.stop.x) (hy : b.line.start.y < b.line.stop.y)
    (hclamp : q.y = Coordinate.clamp motion.stop.y b.line.start.y b.line.stop.y)
    (hcolumn : ⌊q.x⌋ = b.innerColumn) (hlast : q.y = b.line.stop.y) :
    r.Covers b.innerColumn b.line.stop.y := by
  have halong : b.AlongLeft b.line.start.x b.line.start.y := ⟨rfl, hx.symm, le_rfl, hy⟩
  have hholds := hs.holds h
  have hline : (motion.along t).x = b.line.start.x := le_antisymm (hx ▸ hholds.1.2) hholds.1.1
  have hpos (hz : (motion.along t).y = b.line.stop.y) : 0 < t :=
    hs.pos_of_end hend (hline.trans (congrArg Int.cast hx)) hz
  by_cases hdown : motion.start.y < motion.stop.y
  · by_contra hout
    have hshort : motion.start.y < q.y := by
      rw [hlast]
      exact lt_of_share_le hs.share.1 hdown hholds.2.2 hpos
    obtain ⟨c, hc, honly, v, hmeet⟩ := h.exists_meetAt_down (inCell_of_floor_eq hcolumn) hlast
      (h.beside_left hs.mem ⟨rfl, hx.symm, by omega, by omega⟩).1 hout hshort
    refine not_meetAt_of_unhindered hs.unhindered hc ?_ _ _ hmeet
    rw [honly, halong.axis_eq]
    exact motion.contains_down.mpr hdown
  · have haimed := le_of_clamp_eq (Int.cast_lt.mpr hy) (hclamp.symm.trans hlast)
    have hz := share_eq_end hs.share.2 hdown haimed hholds.2.2
    have hcovers := h.covers_behind hstart (hpos hz) (hs.hit.free_before h) hline hz
    rwa [if_neg (mt sub_pos.mp hdown),
      ← innerColumn_eq (h.right_eq hs.mem halong hs.blocks motion.oneWay_directions)] at hcovers

/-- A motion that starts over a covered pixel, and not at an end of the one border that stops it,
ends over a covered pixel. -/
theorem covers (hs : StoppedOnce outline margin motion b t q) (h : Exact outline r)
    (hstart : r.Covers ⌊motion.start.x⌋ ⌊motion.start.y⌋) (hend : ¬b.HasEnd motion.start)
    (hmargin : 0 < margin ∧ margin ≤ 1) : r.Covers ⌊q.x⌋ ⌊q.y⌋ := by
  have hfree := motion.oneWay_directions
  rw [h.covers_pin_iff hs.mem hs.blocks hfree hmargin hs.pin_eq]
  unfold Border.AtOpenEnd
  rcases h.pin_cases hs.mem hs.blocks hfree hmargin hs.pin_eq with
    ⟨hy, hx, hclamp, hrow⟩ | ⟨hx, hy, hclamp, hcolumn⟩
  · have hhorizontal : b.isHorizontal = true := beq_iff_eq.mpr hy
    rw [if_pos hhorizontal]
    rintro ⟨hlast, hout⟩
    exact hout (hs.not_open_horizontal h hstart hend hy hx hclamp hrow hlast)
  · have hvertical : ¬b.isHorizontal = true := fun heq => hy.ne (beq_iff_eq.mp heq)
    rw [if_neg hvertical]
    rintro ⟨hlast, hout⟩
    exact hout (hs.not_open_vertical h hstart hend hx hy hclamp hcolumn hlast)

end StoppedOnce

/-- A motion that starts over a covered pixel, and that one border stops at most, ends over a
covered pixel, unless it starts at an end of that border. -/
theorem Clamped.covers {last : Segment Rat} {borders : List (Border Rat)}
    (hclamped : Clamped outline.lift margin motion motion.directions last borders)
    (h : Exact outline r) (hstart : r.Covers ⌊motion.start.x⌋ ⌊motion.start.y⌋)
    (hmargin : 0 < margin ∧ margin ≤ 1) (hfew : borders = [] ∨ ∃ b ∈ outline,
      borders = [b.map Lift.lift] ∧ ¬b.HasEnd motion.start) :
    r.Covers ⌊last.stop.x⌋ ⌊last.stop.y⌋ := by
  cases hclamped with
  | unhindered hfree =>
    rw [← motion.along_one]
    refine h.covers_along zero_le_one hstart fun t ht ht1 b hb hholds hblocks => ?_
    obtain ⟨u, hmeet⟩ := (h.proper b hb).exists_meetAt hblocks ⟨ht, ht1⟩ hholds
    exact not_meetAt_of_unhindered hfree hb hblocks t u hmeet
  | pinned hit rest =>
    obtain ⟨b, hb, hborders, hend⟩ := hfew.resolve_left (List.cons_ne_nil _ _)
    obtain ⟨rfl, rfl⟩ := List.cons_eq_cons.mp hborders
    obtain ⟨t, hit⟩ := exists_hitAt hit
    cases rest with
    | unhindered hrest =>
      rw [Border.axis_lift] at hrest
      exact StoppedOnce.covers ⟨hb, hit, rfl, hrest⟩ h hstart hend hmargin

end Outline

/-- Borders among whole numbers are the same if they are among fractions. -/
theorem Border.map_lift_injective :
    Function.Injective (Border.map (Lift.lift : Int → Rat)) := by
  rintro ⟨⟨⟨ax, ay⟩, zx, zy⟩, blocks⟩ ⟨⟨⟨ax', ay'⟩, zx', zy'⟩, blocks'⟩ h
  simpa [Border.map, Segment.map, Point.map, Lift.lift, Coordinate.ofInt] using h

/-- A region that contains a point is not empty. -/
theorem Region.Built.isEmpty_of_contains {r : Region Int} (h : r.Built) {p : Point Rat}
    (hp : r.contains p = .ok true) : r.isEmpty = false := by
  obtain ⟨b, hb, -⟩ := (h.contains_iff p).mp hp
  exact List.isEmpty_eq_false_iff.mpr (List.ne_nil_of_mem hb)

/-- How a constraint with a margin confines a motion that starts in its region : to a position
inside, unless that is at an open end of the last border that stops the motion. One border at most
never leads to its open end, unless the motion starts at an end of it. And there the pointer is
to be, and is not warped, if and only if the position is inside. -/
structure Constraint.ConfinesInside (c : Constraint Int Rat) (before asked : Point Rat)
    (confined : Confined Rat) : Prop where
  trace_eq : c.trace before asked = .ok confined
  inside_iff : c.region.contains (confined.position.relativeTo c.origin) = .ok true ↔
    ∀ b ∈ c.outline, confined.stoppedBy.getLast? = some (b.map Lift.lift) →
      ¬b.AtOpenEnd c.region (confined.position.relativeTo c.origin)
  inside_of_few : (confined.stoppedBy = [] ∨ ∃ b ∈ c.outline,
      confined.stoppedBy = [b.map Lift.lift] ∧ ¬b.HasEnd (before.relativeTo c.origin)) →
    c.region.contains (confined.position.relativeTo c.origin) = .ok true
  ensure_iff : c.ensure confined.position = .ok confined.position ↔
    c.region.contains (confined.position.relativeTo c.origin) = .ok true
  recheck_iff : (Session.start c confined.position).step .recheck =
      .ok (.warped false, Session.start c confined.position) ↔
    c.region.contains (confined.position.relativeTo c.origin) = .ok true

namespace Region

/-- A motion that starts in a region that is built, and is confined to it with a margin of at most
one and without a step, ends inside unless it ends at an open end of the last border. -/
theorem Built.confines_inside {r : Region Int} (h : r.Built) {origin before : Point Rat}
    (hbefore : r.contains (before.relativeTo origin) = .ok true) {margin : Rat}
    (hmargin : 0 < margin ∧ margin ≤ 1) (asked : Point Rat) :
    ∃ c confined, Constraint.create? r origin margin 0 = .ok c ∧
      c.ConfinesInside before asked confined := by
  obtain ⟨outline, hexact, hc⟩ := h.exists_create origin hmargin.1.le le_rfl
  have hsound := Constraint.Sound.of_create? h zero_lt_one hc
  have hallows := Constraint.allows_of_not_isEmpty
    (c := ⟨r, outline, origin, margin, 0⟩) (h.isEmpty_of_contains hbefore)
  have hstart := h.closure_of_contains hbefore
  obtain ⟨last, borders, position, hconfine, hclamped, hwithin, -⟩ :=
    Outline.exists_confine (hexact.lift_ne_nil hstart) le_rfl origin before asked margin
  rw [Outline.requested_zero] at hclamped
  rw [h.contains_iff] at hbefore
  have hfew := hclamped.covers hexact hbefore hmargin
  refine ⟨_, ⟨position, borders⟩, hc, hconfine, ?_, ?_, ?_, ?_⟩
  · rw [h.contains_iff, hwithin.eq]
    by_cases hborders : borders = []
    · subst hborders
      exact iff_of_true (hfew (Or.inl rfl)) fun b _ hlast => by cases hlast
    · obtain ⟨b, hb, hlast, hiff⟩ :=
        hclamped.covers_iff hexact (Segment.oneWay_directions _) hmargin hborders
      rw [hiff]
      refine ⟨fun hopen c _ hlast' => ?_, fun hall => hall b hb hlast⟩
      cases Border.map_lift_injective (Option.some.inj (hlast.symm.trans hlast'))
      exact hopen
  · rw [h.contains_iff, hwithin.eq]
    exact hfew
  · rw [hsound.ensure_eq_iff, hallows]
  · rw [Session.step_recheck_iff hsound]
    exact hallows position

/-! ## The hook -/

/-- A bar of eight pixels, a bar of two pixels two rows above it, and a pixel that joins their
left ends. -/
def hook : Region Int :=
  ⟨[.ofPixels ⟨0, 0⟩ ⟨1, 0⟩, .ofPixels ⟨0, 1⟩ ⟨0, 1⟩, .ofPixels ⟨0, 2⟩ ⟨7, 2⟩]⟩

/-- The borders around the hook. -/
def hookOutline : Outline Int :=
  [.horizontal 0 2 0 .up, .vertical 0 0 3 .left, .vertical 2 0 1 .right,
    .horizontal 1 2 1 .down, .vertical 1 1 2 .right, .horizontal 1 8 2 .up,
    .vertical 8 2 3 .right, .horizontal 0 8 3 .down]

theorem ofRegion?_hook : Outline.ofRegion? hook = .ok hookOutline := by
  have hjoin : Outline.between? [.ofPixels ⟨0, 0⟩ ⟨1, 0⟩] [.ofPixels ⟨0, 1⟩ ⟨0, 1⟩] =
      .ok [.horizontal 1 2 1 .down] := Outline.between?_of_touch rfl
  have hbar : Outline.between? [.ofPixels ⟨0, 1⟩ ⟨0, 1⟩] [.ofPixels ⟨0, 2⟩ ⟨7, 2⟩] =
      .ok [.horizontal 1 8 2 .up] := Outline.between?_of_touch rfl
  have hrows := Outline.ofRows?_cons (Outline.under?_cons hjoin (Outline.under?_cons hbar
    (Outline.under?_nil _)))
  exact bind_eq_ok_iff.mpr ⟨_, hrows, rfl⟩

/-- A motion in the hook from its upper left pixel. It is pinned to the right end of the upper bar,
at the lower end of that border, and there it is outside. -/
theorem confines_inside_hook : hook.Built ∧
    hook.contains (Point.relativeTo ⟨1 / 2, 1 / 2⟩ ⟨0, 0⟩) = .ok true ∧
    (0 < (1 / 2 : Rat) ∧ (1 / 2 : Rat) ≤ 1) ∧
    ∃ c confined, Constraint.create? hook ⟨0, 0⟩ (1 / 2) 0 = .ok c ∧
      c.ConfinesInside ⟨1 / 2, 1 / 2⟩ ⟨17 / 2, 65 / 2⟩ confined ∧
      confined.position = ⟨3 / 2, 1⟩ ∧
      hook.contains (Point.relativeTo ⟨3 / 2, 1⟩ ⟨0, 0⟩) = .ok false := by
  have hbuilt : hook.Built := Canonical.built (by decide)
  have hbefore : hook.contains (Point.relativeTo ⟨1 / 2, 1 / 2⟩ ⟨0, 0⟩) = .ok true := by
    decide +kernel
  have hmargin : 0 < (1 / 2 : Rat) ∧ (1 / 2 : Rat) ≤ 1 := by norm_num
  obtain ⟨c, confined, hc, hconfines⟩ := hbuilt.confines_inside hbefore hmargin ⟨17 / 2, 65 / 2⟩
  obtain ⟨c', hc', htrace⟩ : ∃ c', Constraint.create? hook (⟨0, 0⟩ : Point Rat) (1 / 2) 0 = .ok c' ∧
      Confined.position <$> c'.trace ⟨1 / 2, 1 / 2⟩ ⟨17 / 2, 65 / 2⟩ = .ok ⟨3 / 2, 1⟩ := by
    refine ⟨_, Constraint.create?_eq_ok_iff.mpr ⟨⟨?_, ?_⟩, _, ofRegion?_hook, rfl⟩, ?_⟩ <;> decide +kernel
  cases hc.symm.trans hc'
  rw [hconfines.trace_eq] at htrace
  exact ⟨hbuilt, hbefore, hmargin, c, confined, hc, hconfines, Except.ok.inj htrace,
    by decide +kernel⟩

end Region

end Confinement
