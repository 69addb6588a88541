import Confinement.Proofs.Constraints
import Confinement.Proofs.Nearest
import Confinement.Seat

/-!
# Rechecks on a display

A seat warps its pointer to the pixel that holds the position to which it is recovered. The next
recheck looks at the first corner of that pixel, so it leaves the pointer alone if and only if the
constraint allows this corner (`Seat.settles_iff`).

A recovered position is one step inside the region. If the origin lies between pixels, the pixel
that holds it may start outside, and then every recheck warps the pointer again. This cannot happen
if each coordinate of the origin is a whole number or at most a step below one (`KeepsPixels`), and
it does happen in a region of one pixel at any other origin (`Region.settlesAt_iff`). Where
there is no area the pointer settles at the origin, and so only if this is a pixel itself.
-/

namespace Confinement

/-! ## Rechecks one after another -/

namespace Seat

/-- This many rechecks, with all that the display is sent and all answers. -/
def rechecks {κ α : Type} [Coordinate κ] [Scalar α] [Lift κ α] (c : Constraint κ α) :
    Nat → Seat → Except (RecheckError κ) (List DisplayCall × List Bool × Seat)
  | 0, s => .ok ([], [], s)
  | n + 1, s => do
    let (calls, warped, after) ← s.recheck c
    let (more, answers, last) ← rechecks c n after
    return (calls ++ more, warped :: answers, last)

/-- Whether after one recheck no number of further ones warps the pointer. -/
def Settles (s : Seat) (c : Constraint Int Rat) : Prop :=
  ∃ calls warped after, s.recheck c = .ok (calls, warped, after) ∧
    ∀ n, after.rechecks c n = .ok ([], List.replicate n false, after)

variable {s : Seat} {c : Constraint Int Rat} {p : Point Int}

/-- The seat with the pointer of its connection at another pixel. -/
def showing (s : Seat) (p : Point Int) : Seat :=
  { s with connection := some p }

/-- A pointer that is not corrected is left alone. -/
theorem recheck_of_none (hp : s.connection = some p)
    (h : c.correction? (p.map Coordinate.ofInt) = .ok none) : s.recheck c = .ok ([], false, s) := by
  unfold recheck position?
  rw [hp]
  simp only [Except.mapError, bind, Except.bind, h]
  rfl

/-- A pointer that is corrected is warped to the pixel that holds the position. -/
theorem recheck_of_some (hp : s.connection = some p) {q : Point Rat}
    (h : c.correction? (p.map Coordinate.ofInt) = .ok (some q)) :
    s.recheck c = .ok ([.warp ⌊q.x⌋ ⌊q.y⌋, .sync], true, s.showing ⟨⌊q.x⌋, ⌊q.y⌋⟩) := by
  unfold recheck position? warp isConnected
  rw [hp]
  simp only [Except.mapError, bind, Except.bind, h]
  rfl

/-- A recheck that leaves the pointer alone is followed by such rechecks only. -/
theorem rechecks_of_recheck (h : s.recheck c = .ok ([], false, s)) (n : Nat) :
    s.rechecks c n = .ok ([], List.replicate n false, s) := by
  induction n with
  | zero => rfl
  | succ n ih =>
    unfold rechecks
    simp only [h, bind, Except.bind, ih]
    rfl

/-- The pointer settles if and only if after one recheck it may be where the display has it. -/
theorem settles_iff (h : c.Sound) {calls : List DisplayCall} {warped : Bool} {after : Seat}
    (hrecheck : s.recheck c = .ok (calls, warped, after)) (hp : after.connection = some p) :
    s.Settles c ↔ c.Allows (p.map Coordinate.ofInt) := by
  rcases h.correction?_cases (p.map Coordinate.ofInt) with
    ⟨hallows, hcorrection⟩ | ⟨hallows, q, hcorrection, -⟩
  · have hsettled := rechecks_of_recheck (recheck_of_none hp hcorrection)
    exact iff_of_true ⟨_, _, _, hrecheck, hsettled⟩ hallows
  · refine iff_of_false ?_ hallows
    rintro ⟨calls', warped', after', hrecheck', hrest⟩
    cases hrecheck.symm.trans hrecheck'
    have honce := hrest 1
    simp only [rechecks, recheck_of_some hp hcorrection, bind, Except.bind] at honce
    cases honce

/-- A recheck of a seat that is connected answers, and the pointer settles if and only if it may
then be where the display has it. -/
theorem exists_recheck (h : c.Sound) (hs : s.isConnected = true) :
    ∃ calls warped after p, s.recheck c = .ok (calls, warped, after) ∧
      after.connection = some p ∧ (s.Settles c ↔ c.Allows (p.map Coordinate.ofInt)) := by
  obtain ⟨p, hp⟩ := Option.isSome_iff_exists.mp hs
  rcases h.correction?_cases (p.map Coordinate.ofInt) with ⟨-, hcorrection⟩ | ⟨-, q, hcorrection, -⟩
  · have hrecheck := recheck_of_none hp hcorrection
    exact ⟨_, _, _, _, hrecheck, hp, settles_iff h hrecheck hp⟩
  · have hrecheck := recheck_of_some hp hcorrection
    exact ⟨_, _, _, _, hrecheck, rfl, settles_iff h hrecheck rfl⟩

/-- The pointer settles if the pixel to which it is warped is always allowed. -/
theorem settles_of_pixels (h : c.Sound) (hs : s.isConnected = true)
    (hpixel : ∀ (p : Point Int) (q : Point Rat), ¬c.Allows (p.map Coordinate.ofInt) →
      c.correction? (p.map Coordinate.ofInt) = .ok (some q) → c.Allows q →
        c.Allows (Point.map Coordinate.ofInt ⟨⌊q.x⌋, ⌊q.y⌋⟩)) : s.Settles c := by
  obtain ⟨p, hp⟩ := Option.isSome_iff_exists.mp hs
  rcases h.correction?_cases (p.map Coordinate.ofInt) with
    ⟨hallows, hcorrection⟩ | ⟨hallows, q, hcorrection, hq⟩
  · exact (settles_iff h (recheck_of_none hp hcorrection) hp).mpr hallows
  · refine (settles_iff h (recheck_of_some hp hcorrection) rfl).mpr ?_
    exact hpixel p q hallows hcorrection hq

end Seat

/-! ## Pixels of recovered pointers -/

/-- Whether an origin is a whole number or at most a step below one. -/
def KeepsPixels (origin : Rat) : Prop :=
  (⌈origin⌉ : Rat) ≤ origin + 1 / 256

theorem keepsPixels_intCast (n : Int) : KeepsPixels n := by
  unfold KeepsPixels
  rw [Int.ceil_intCast]
  linarith

/-- Whether a coordinate is this one, or a step off a line. -/
def StepOff (a coordinate : Rat) : Prop :=
  coordinate = a ∨ ∃ line : Int, coordinate = line + 1 / 256 ∨ coordinate = line - 1 / 256

/-- Where the first corner of a pixel lies in a region. -/
theorem floor_intCast_sub (p : Int) (origin : Rat) : ⌊(p : Rat) - origin⌋ = p - ⌈origin⌉ := by
  rw [sub_eq_add_neg, Int.floor_intCast_add, Int.floor_neg, sub_eq_add_neg]

/-- A pixel starts where its positions lie, if the origin is not too far below a whole number. -/
theorem floor_sub_ceil {a origin : Rat} {k : Int} (hlow : (k : Rat) + ⌈origin⌉ ≤ a)
    (hhigh : a - origin < k + 1) : ⌊a⌋ - ⌈origin⌉ = ⌊a - origin⌋ := by
  have hceil := Int.le_ceil origin
  have hpixel : ⌊a - origin⌋ = k := Int.floor_eq_iff.mpr ⟨by linarith, hhigh⟩
  have hfloor : ⌊a⌋ = k + ⌈origin⌉ := by
    rw [Int.floor_eq_iff]
    push_cast
    exact ⟨hlow, by linarith⟩
  rw [hpixel, hfloor, add_sub_cancel_right]

/-- The pixel of a position a step off a line starts in the same pixel of the region. -/
theorem KeepsPixels.floor_sub {origin : Rat} (h : KeepsPixels origin) {a : Rat} {pointer : Int}
    (ha : StepOff (pointer - origin) (a - origin)) : ⌊a⌋ - ⌈origin⌉ = ⌊a - origin⌋ := by
  have hceil : (⌈origin⌉ : Rat) ≤ origin + 1 / 256 := h
  rcases ha with hkept | ⟨line, hoff | hoff⟩
  · refine floor_sub_ceil (k := pointer - ⌈origin⌉) ?_ ?_ <;> push_cast <;> linarith
  · refine floor_sub_ceil (k := line) ?_ ?_ <;> linarith
  · refine floor_sub_ceil (k := line - 1) ?_ ?_ <;> push_cast <;> linarith

/-- A clamped coordinate is what it was or an end of the range. -/
theorem Coordinate.clamp_cases (a low high : Rat) :
    clamp a low high = a ∨ clamp a low high = low ∨ clamp a low high = high := by
  rw [clamp_rat]
  rcases min_choice (a ⊔ low) high with h | h
  · rcases max_choice a low with h' | h'
    · exact Or.inl (h.trans h')
    · exact Or.inr (Or.inl (h.trans h'))
  · exact Or.inr (Or.inr h)

/-- The coordinates of the point next to a border. -/
theorem Border.stepOff_inner (b : Border Int) (p : Point Rat) :
    StepOff p.x ((b.map (Lift.lift : Int → Rat)).inner p (1 / 256)).x ∧
      StepOff p.y ((b.map (Lift.lift : Int → Rat)).inner p (1 / 256)).y := by
  have hacross (a : Rat) (line : Int) (growing : Bool) :
      StepOff a (if growing then (line : Rat) - 1 / 256 else line + 1 / 256) := by
    cases growing with
    | false => exact Or.inr ⟨line, Or.inl rfl⟩
    | true => exact Or.inr ⟨line, Or.inr rfl⟩
  have halong (a : Rat) (low high : Int) :
      StepOff a (Coordinate.clamp a (low + 1 / 256) (high - 1 / 256)) := by
    rcases Coordinate.clamp_cases a (low + 1 / 256) (high - 1 / 256) with h | h | h
    · exact Or.inl h
    · exact Or.inr ⟨low, Or.inl h⟩
    · exact Or.inr ⟨high, Or.inr h⟩
  unfold inner
  split
  · exact ⟨halong _ _ _, hacross _ _ _⟩
  · exact ⟨hacross _ _ _, halong _ _ _⟩

namespace Constraint

variable {c : Constraint Int Rat}

/-- Whether a pointer may be at the first corner of a pixel. -/
theorem allows_pixel_iff (h : c.Sound) (hne : c.region.isEmpty = false) (p : Point Int) :
    c.Allows (p.map Coordinate.ofInt) ↔
      c.region.Covers (p.x - ⌈c.origin.x⌉) (p.y - ⌈c.origin.y⌉) := by
  rw [allows_of_not_isEmpty hne, h.built.contains_iff, ← floor_intCast_sub, ← floor_intCast_sub]
  rfl

/-- With an origin that keeps pixels, the pixel of a pointer that is corrected is allowed. -/
theorem Sound.allows_pixel (h : c.Sound) (hne : c.region.isEmpty = false) (hstep : c.step = 1 / 256)
    (hx : KeepsPixels c.origin.x) (hy : KeepsPixels c.origin.y) {p : Point Int} {q : Point Rat}
    (hp : ¬c.Allows (p.map Coordinate.ofInt))
    (hcorrection : c.correction? (p.map Coordinate.ofInt) = .ok (some q)) :
    c.Allows (Point.map Coordinate.ofInt ⟨⌊q.x⌋, ⌊q.y⌋⟩) := by
  obtain ⟨outline, hexact, b, hb, m, -, q', hq', hinner⟩ := h.exists_inner hne hp
  cases hcorrection.symm.trans hq'
  have hwire : recoveryStep c.step = 1 / 256 := by
    rw [hstep, Region.recoveryStep_rat, if_pos (by norm_num)]
  rw [hwire] at hinner
  have hoff := b.stepOff_inner (Point.relativeTo (p.map Coordinate.ofInt) c.origin)
  have hcovers := hexact.covers_inner hb
    (show 0 < (1 / 256 : Rat) ∧ (1 / 256 : Rat) < 1 by norm_num)
    (Point.relativeTo (p.map Coordinate.ofInt) c.origin)
  rw [← hinner] at hoff hcovers
  rw [allows_pixel_iff h hne, hx.floor_sub hoff.1, hy.floor_sub hoff.2]
  exact hcovers

end Constraint

/-! ## Origins at which every pointer settles -/

/-- A seat that is connected to a display with the pointer at this pixel. -/
def Seat.connected (p : Point Int) : Seat :=
  ⟨.standard, some p, some p⟩

namespace Region

theorem covers_pixel_iff (x y : Int) : pixel.Covers x y ↔ x = 0 ∧ y = 0 := by
  simp only [Covers, pixel, List.exists_mem_cons_iff, Box.Covers, List.not_mem_nil, false_and,
    exists_false, or_false]
  omega

/-- The nearest point of the pixel to what lies before it is at its edge. -/
theorem IsNearest.nonpos {p n : Point Rat} (h : pixel.IsNearest p n) :
    (p.x ≤ 0 → n.x ≤ 0) ∧ (p.y ≤ 0 → n.y ≤ 0) := by
  have hclosure (q : Point Rat) : pixel.Closure q ↔ (0 ≤ q.x ∧ q.x ≤ 1) ∧ 0 ≤ q.y ∧ q.y ≤ 1 := by
    simp [Closure, pixel, Box.Closure]
  obtain ⟨⟨hx, hx'⟩, hy, hy'⟩ := (hclosure n).mp h.closure
  constructor
  · intro hp
    have hle := h.le ⟨0, n.y⟩ ((hclosure _).mpr ⟨⟨le_rfl, zero_le_one⟩, hy, hy'⟩)
    simp only [Segment.squaredLength] at hle
    nlinarith
  · intro hp
    have hle := h.le ⟨n.x, 0⟩ ((hclosure _).mpr ⟨⟨hx, hx'⟩, le_rfl, zero_le_one⟩)
    simp only [Segment.squaredLength] at hle
    nlinarith

/-- What lies before the pixel is recovered at most a step inside. -/
theorem correction?_pixel {c : Constraint Int Rat} (h : c.Sound) (hregion : c.region = pixel)
    (hstep : c.step = 1 / 256) {p : Point Rat} (hp : ¬c.Allows p) :
    ∃ q, c.correction? p = .ok (some q) ∧
      (p.x ≤ c.origin.x → q.x ≤ c.origin.x + 1 / 256) ∧
      (p.y ≤ c.origin.y → q.y ≤ c.origin.y + 1 / 256) := by
  have hne : c.region.isEmpty = false := by
    rw [hregion]
    rfl
  obtain ⟨outline, hexact, b, -, m, hfirst, q, hq, hinner⟩ := h.exists_inner hne hp
  rw [Constraint.allows_of_not_isEmpty hne, h.built.contains_iff] at hp
  have hnearest := hexact.isNearest_pin hp hfirst
  rw [hregion] at hnearest
  have hwithin := Border.inner_within_pin (b.map Lift.lift) (p.relativeTo c.origin)
    (recoveryStep_pos c.step).le
  rw [← hinner, hstep, recoveryStep_rat, if_pos (by norm_num)] at hwithin
  obtain ⟨hx, hy⟩ := hwithin
  refine ⟨q, hq, fun hle => ?_, fun hle => ?_⟩
  · have hzero := hnearest.nonpos.1 (sub_nonpos.mpr hle)
    have hoff : q.x - c.origin.x - _ ≤ (1 / 256 : Rat) := (abs_le.mp hx).2
    linarith
  · have hzero := hnearest.nonpos.2 (sub_nonpos.mpr hle)
    have hoff : q.y - c.origin.y - _ ≤ (1 / 256 : Rat) := (abs_le.mp hy).2
    linarith

/-- At an origin that does not keep pixels, a pointer just before the pixel does not settle. -/
theorem exists_not_settles {c : Constraint Int Rat} (h : c.Sound) (hregion : c.region = pixel)
    (hstep : c.step = 1 / 256) (hkeeps : ¬(KeepsPixels c.origin.x ∧ KeepsPixels c.origin.y)) :
    ∃ p, ¬(Seat.connected p).Settles c := by
  have hallows (p : Point Int) : c.Allows (p.map Coordinate.ofInt) ↔
      p.x - ⌈c.origin.x⌉ = 0 ∧ p.y - ⌈c.origin.y⌉ = 0 := by
    rw [Constraint.allows_pixel_iff h (by rw [hregion]; rfl), hregion, covers_pixel_iff]
  have hsettles {p : Point Int} {q : Point Rat}
      (hq : c.correction? (p.map Coordinate.ofInt) = .ok (some q)) :
      (Seat.connected p).Settles c ↔ ⌊q.x⌋ - ⌈c.origin.x⌉ = 0 ∧ ⌊q.y⌋ - ⌈c.origin.y⌉ = 0 := by
    rw [Seat.settles_iff h (Seat.recheck_of_some (s := Seat.connected p) rfl hq) rfl, hallows]
  have hbefore (origin : Rat) : ((⌈origin⌉ - 1 : Int) : Rat) ≤ origin := by
    push_cast
    linarith [Int.ceil_lt_add_one origin]
  rcases not_and_or.mp hkeeps with hx | hy
  · have hp : ¬c.Allows (Point.map Coordinate.ofInt ⟨⌈c.origin.x⌉ - 1, ⌈c.origin.y⌉⟩) := by
      rw [hallows]
      rintro ⟨hzero, -⟩
      simp at hzero
    obtain ⟨q, hq, hle, -⟩ := correction?_pixel h hregion hstep hp
    refine ⟨_, mt (hsettles hq).mp ?_⟩
    rintro ⟨hpixel, -⟩
    refine hx ((Int.cast_le.mpr (sub_eq_zero.mp hpixel).ge).trans ?_)
    exact (Int.floor_le q.x).trans (hle (hbefore _))
  · have hp : ¬c.Allows (Point.map Coordinate.ofInt ⟨⌈c.origin.x⌉, ⌈c.origin.y⌉ - 1⟩) := by
      rw [hallows]
      rintro ⟨-, hzero⟩
      simp at hzero
    obtain ⟨q, hq, -, hle⟩ := correction?_pixel h hregion hstep hp
    refine ⟨_, mt (hsettles hq).mp ?_⟩
    rintro ⟨-, hpixel⟩
    refine hy ((Int.cast_le.mpr (sub_eq_zero.mp hpixel).ge).trans ?_)
    exact (Int.floor_le q.y).trans (hle (hbefore _))

/-! ## Regions at origins -/

/-- Whether at an origin one recheck settles the pointer of every seat that is connected. -/
def SettlesAt (r : Region Int) (origin : Point Rat) : Prop :=
  ∃ c, Constraint.create? r origin = .ok c ∧ ∀ s : Seat, s.isConnected = true → s.Settles c

/-- A constraint with the standard margin and step for a region that is built. -/
theorem Built.exists_standard {r : Region Int} (h : r.Built) (origin : Point Rat) :
    ∃ c, Constraint.create? r origin = .ok c ∧ c.Sound ∧ c.region = r ∧ c.origin = origin ∧
      c.step = 1 / 256 := by
  have hstep : (Scalar.wireStep : Rat) = 1 / 256 := by decide +kernel
  have hpos : (0 : Rat) ≤ Scalar.wireStep := by decide +kernel
  obtain ⟨outline, -, hc⟩ := h.exists_create origin le_rfl hpos
  exact ⟨_, hc, .of_create? h (by rw [hstep]; norm_num) hc, rfl, rfl, hstep⟩

/-- At an origin that keeps pixels, every pointer settles in a region that is not empty. -/
theorem Built.settlesAt {r : Region Int} (h : r.Built) (hne : r.isEmpty = false)
    {origin : Point Rat} (hx : KeepsPixels origin.x) (hy : KeepsPixels origin.y) :
    r.SettlesAt origin := by
  obtain ⟨c, hc, hsound, rfl, rfl, hstep⟩ := h.exists_standard origin
  exact ⟨c, hc, fun s hs => Seat.settles_of_pixels hsound hs fun p q hp hcorrection _ =>
    hsound.allows_pixel hne hstep hx hy hp hcorrection⟩

/-- Without any area, every pointer settles if and only if the origin is a pixel. -/
theorem Built.settlesAt_iff_of_isEmpty {r : Region Int} (h : r.Built) (hempty : r.isEmpty = true)
    (origin : Point Rat) :
    r.SettlesAt origin ↔ ∃ p : Point Int, origin = p.map Coordinate.ofInt := by
  obtain ⟨c, hc, hsound, rfl, rfl, -⟩ := h.exists_standard origin
  constructor
  · rintro ⟨c', hc', hsettles⟩
    cases hc.symm.trans hc'
    obtain ⟨calls, warped, after, p, -, -, hiff⟩ :=
      Seat.exists_recheck hsound (s := Seat.connected ⟨0, 0⟩) rfl
    have hallows := hiff.mp (hsettles _ rfl)
    exact ⟨p, ((Constraint.allows_of_isEmpty hempty _).mp hallows).symm⟩
  · rintro ⟨n, hn⟩
    refine ⟨c, hc, fun s hs => Seat.settles_of_pixels hsound hs fun p q _ _ hq => ?_⟩
    rw [Constraint.allows_of_isEmpty hempty] at hq ⊢
    rw [hq, hn]
    simp [Point.map, Coordinate.ofInt]

/-- One recheck of a seat settles its pointer if and only if the display then has the pointer where
it may be. In every region that is not empty this is so at the origins that keep pixels, and at no
others ; in an empty region, at the origins that are pixels. -/
theorem settlesAt_iff (origin : Point Rat) :
    (∀ r : Region Int, r.Built → ∃ c, Constraint.create? r origin = .ok c ∧
      ∀ s : Seat, s.isConnected = true → ∃ calls warped after p,
        s.recheck c = .ok (calls, warped, after) ∧ after.connection = some p ∧
          (s.Settles c ↔ c.Allows (p.map Coordinate.ofInt))) ∧
    ((∀ r : Region Int, r.Built → r.isEmpty = false → r.SettlesAt origin) ↔
      KeepsPixels origin.x ∧ KeepsPixels origin.y) ∧
    ∀ r : Region Int, r.Built → r.isEmpty = true →
      (r.SettlesAt origin ↔ ∃ p : Point Int, origin = p.map Coordinate.ofInt) := by
  refine ⟨fun r h => ?_, ⟨fun hall => ?_, fun hkeeps r h hne => ?_⟩, fun r h hempty => ?_⟩
  · obtain ⟨c, hc, hsound, -⟩ := h.exists_standard origin
    exact ⟨c, hc, fun s hs => Seat.exists_recheck hsound hs⟩
  · by_contra hkeeps
    obtain ⟨c, hc, hsettles⟩ := hall pixel built_pixel rfl
    obtain ⟨c', hc', hsound, hregion, rfl, hstep⟩ := built_pixel.exists_standard origin
    cases hc.symm.trans hc'
    obtain ⟨p, hp⟩ := exists_not_settles hsound hregion hstep hkeeps
    exact hp (hsettles _ rfl)
  · exact h.settlesAt hne hkeeps.1 hkeeps.2
  · exact h.settlesAt_iff_of_isEmpty hempty origin

/-- A frame at an origin that is a pixel. -/
theorem settlesAt_frame : frame.Built ∧ frame.isEmpty = false ∧
    (KeepsPixels 2 ∧ KeepsPixels 4) ∧ frame.SettlesAt ⟨2, 4⟩ := by
  have hkeeps : KeepsPixels 2 ∧ KeepsPixels 4 := ⟨keepsPixels_intCast 2, keepsPixels_intCast 4⟩
  exact ⟨built_frame, rfl, hkeeps, (settlesAt_iff ⟨2, 4⟩).2.1.mpr hkeeps frame built_frame rfl⟩

/-- Half a pixel off, a pointer to the left of a region of one pixel is warped to the same place by
every recheck. -/
theorem not_settles_pixel : ∃ c, Constraint.create? pixel (⟨1 / 2, 0⟩ : Point Rat) = .ok c ∧
    (Seat.connected ⟨-5, 0⟩).recheck c =
      .ok ([.warp 0 0, .sync], true, (Seat.connected ⟨-5, 0⟩).showing ⟨0, 0⟩) ∧
    ((Seat.connected ⟨-5, 0⟩).showing ⟨0, 0⟩).recheck c =
      .ok ([.warp 0 0, .sync], true, (Seat.connected ⟨-5, 0⟩).showing ⟨0, 0⟩) ∧
    ¬(Seat.connected ⟨-5, 0⟩).Settles c := by
  obtain ⟨c, hc, hcorrection⟩ : ∃ c, Constraint.create? pixel (⟨1 / 2, 0⟩ : Point Rat) = .ok c ∧
      ∀ p ∈ [(⟨-5, 0⟩ : Point Int), ⟨0, 0⟩], c.correction? (p.map Coordinate.ofInt) =
        .ok (some ⟨1 / 2 + 1 / 256, 1 / 256⟩) := by
    refine ⟨_, Constraint.create?_eq_ok_iff.mpr ⟨⟨?_, ?_⟩, _, by rfl, rfl⟩, ?_⟩ <;> decide +kernel
  have hsound : c.Sound := .of_create? built_pixel (by decide +kernel) hc
  have hx : ⌊(1 / 2 + 1 / 256 : Rat)⌋ = 0 := by norm_num
  have hy : ⌊(1 / 256 : Rat)⌋ = 0 := by norm_num
  have hrecheck (s : Seat) (p : Point Int) (hs : s.connection = some p)
      (hp : p ∈ [(⟨-5, 0⟩ : Point Int), ⟨0, 0⟩]) :
      s.recheck c = .ok ([.warp 0 0, .sync], true, s.showing ⟨0, 0⟩) := by
    rw [Seat.recheck_of_some hs (hcorrection p hp)]
    simp only [hx, hy]
  have hfirst := hrecheck (Seat.connected ⟨-5, 0⟩) _ rfl (by simp)
  refine ⟨c, hc, hfirst, hrecheck _ _ rfl (by simp), ?_⟩
  rw [Seat.settles_iff hsound hfirst rfl]
  rcases hsound.correction?_cases (Point.map Coordinate.ofInt ⟨0, 0⟩) with ⟨-, hnone⟩ | ⟨hnot, -⟩
  · cases hnone.symm.trans (hcorrection ⟨0, 0⟩ (by simp))
  · exact hnot

end Region

end Confinement
