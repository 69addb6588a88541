import Confinement.Outline.Run
import Confinement.Proofs.Sides

/-!
# Joined runs

`Run.join?` lengthens vertical borders by those that continue them. Borders that go from left
to right or from top to bottom (`Border.Proper`) are always joined to such borders, and along
the side of every pixel there run as many after joining as before, with each blocking
(`Run.exists_join?`).

A run that is open is a vertical border, so lengthening it by a border that starts where it
ends adds the sides of that border and no other (`Run.countLeft_longer`).

Horizontal borders stay as they are (`Run.horizontals_join?`). If vertical borders come from top
to bottom and no two with the same blocking run along one side, then none is left that goes on
where another ends (`Run.not_continues_join?`) : every run stays open, as two that end at one
point would run along one side (`Run.Ready.map_closeAt`).
-/

namespace Confinement

/-- A border from left to right or from top to bottom. -/
def Border.Proper (b : Border Int) : Prop :=
  b.line.start.y = b.line.stop.y ∧ b.line.start.x < b.line.stop.x ∨
    b.line.start.x = b.line.stop.x ∧ b.line.start.y < b.line.stop.y

/-- A border from top to bottom. -/
def Border.Upright (b : Border Int) : Prop :=
  b.line.start.x = b.line.stop.x ∧ b.line.start.y < b.line.stop.y

/-- Whether a border goes on where another one ends, with the same blocking. -/
def Border.Continues (c b : Border Int) : Prop :=
  b.line.stop = c.line.start ∧ b.blocks = c.blocks

namespace Border

theorem Upright.proper {b : Border Int} (h : b.Upright) : b.Proper :=
  Or.inr h

theorem Proper.upright {b : Border Int} (h : b.Proper) (hh : ¬b.isHorizontal = true) :
    b.Upright := by
  refine h.resolve_left fun hb => hh ?_
  unfold isHorizontal
  rw [hb.1]
  exact beq_self_eq_true _

theorem Upright.not_alongTop {b : Border Int} (h : b.Upright) (x y : Int) : ¬b.AlongTop x y := by
  unfold AlongTop
  have := h.1
  omega

theorem Upright.not_isHorizontal {b : Border Int} (h : b.Upright) : b.isHorizontal = false :=
  beq_eq_false_iff_ne.mpr (Int.ne_of_lt h.2)

/-- A border from top to bottom runs along the left of the pixel above its end. -/
theorem Upright.alongLeft_last {b : Border Int} (h : b.Upright) :
    b.AlongLeft b.line.stop.x (b.line.stop.y - 1) := by
  unfold AlongLeft
  have := h.1
  have := h.2
  omega

end Border

namespace Run

/-- What is known of a run : its border is proper, and upright while the run is open. -/
structure Sound (r : Run Int) : Prop where
  proper : r.border.Proper
  upright : r.isOpen = true → r.border.Upright

theorem border_closeAt (p : Point Int) (blocks : Directions) (r : Run Int) :
    (r.closeAt p blocks).border = r.border := by
  unfold closeAt
  split <;> rfl

theorem Sound.closeAt {r : Run Int} (h : r.Sound) (p : Point Int) (blocks : Directions) :
    (r.closeAt p blocks).Sound := by
  unfold Run.closeAt
  split
  · exact ⟨h.proper, fun hopen => by cases hopen⟩
  · exact h

theorem endsAt_iff (r : Run Int) (p : Point Int) (blocks : Directions) :
    r.endsAt p blocks = true ↔
      r.isOpen = true ∧ r.border.line.stop = p ∧ r.border.blocks = blocks := by
  obtain ⟨⟨⟨start, ⟨x, y⟩⟩, bs⟩, isOpen⟩ := r
  obtain ⟨px, py⟩ := p
  simp [endsAt, Point.same, and_assoc]

/-- A run with its border lengthened to the end of another. -/
def longer (r : Run Int) (b : Border Int) : Run Int :=
  ⟨⟨⟨r.border.line.start, b.line.stop⟩, r.border.blocks⟩, true⟩

section Longer

variable {r : Run Int} {b : Border Int}

theorem upright_longer (hr : r.border.Upright) (hb : b.Upright)
    (h : r.border.line.stop = b.line.start) : (r.longer b).border.Upright := by
  have := hr.1
  have := hr.2
  have := hb.1
  have := hb.2
  have := congrArg Point.x h
  have := congrArg Point.y h
  show r.border.line.start.x = b.line.stop.x ∧ r.border.line.start.y < b.line.stop.y
  omega

/-- The sides along a longer run are those along the run and those along what it is lengthened
by. -/
theorem countLeft_longer (hr : r.border.Upright) (hb : b.Upright) (h : b.Continues r.border)
    (x y : Int) (blocks : Directions) :
    (if (r.longer b).border.AlongLeft x y ∧ (r.longer b).border.blocks = blocks then 1 else 0) =
      (if r.border.AlongLeft x y ∧ r.border.blocks = blocks then 1 else 0) +
        if b.AlongLeft x y ∧ b.blocks = blocks then 1 else 0 := by
  have := hr.1
  have := hr.2
  have := hb.1
  have := hb.2
  have := congrArg Point.x h.1
  have := congrArg Point.y h.1
  simp only [Border.AlongLeft, longer, h.2]
  by_cases hsame : b.blocks = blocks
  · simp only [hsame, and_true]
    split_ifs <;> omega
  · simp [hsame]

theorem ofSegment?_longer (hr : r.border.Upright) (hb : b.Upright)
    (h : r.border.line.stop = b.line.start) :
    Border.ofSegment? ⟨r.border.line.start, b.line.stop⟩ r.border.blocks =
      .ok (r.longer b).border := by
  have hlong := upright_longer hr hb h
  have hx : (r.border.line.start.x == b.line.stop.x) = true := beq_iff_eq.mpr hlong.1
  have hy : (r.border.line.start.y == b.line.stop.y) = false :=
    beq_eq_false_iff_ne.mpr (Int.ne_of_lt hlong.2)
  unfold Border.ofSegment?
  rw [hx, hy]
  rfl

end Longer

/-- Runs are lengthened in one place, or in none if none ends where the border starts. -/
theorem lengthen?_cases {runs : List (Run Int)} (hs : ∀ r ∈ runs, r.Sound) {b : Border Int}
    (hb : b.Upright) :
    lengthen? b runs = .ok none ∧ (∀ r ∈ runs, r.endsAt b.line.start b.blocks = false) ∨
      ∃ before r after, runs = before ++ r :: after ∧ r.border.Upright ∧ b.Continues r.border ∧
        lengthen? b runs = .ok (some (before ++ r.longer b :: after)) := by
  induction runs with
  | nil => exact Or.inl ⟨rfl, by simp⟩
  | cons r runs ih =>
    unfold lengthen?
    split
    · rename_i hends
      obtain ⟨hopen, hstop, hblocks⟩ := (endsAt_iff r _ _).mp hends
      have hr := (hs r List.mem_cons_self).upright hopen
      rw [ofSegment?_longer hr hb hstop]
      exact Or.inr ⟨[], r, runs, rfl, hr, ⟨hstop, hblocks⟩, rfl⟩
    · rename_i hends
      rcases ih fun s hs' => hs s (List.mem_cons_of_mem _ hs') with ⟨hnone, hall⟩ | ⟨before, s,
        after, heq, hup, hcontinues, hsome⟩
      · rw [hnone]
        exact Or.inl ⟨rfl, List.forall_mem_cons.mpr ⟨Bool.not_eq_true _ ▸ hends, hall⟩⟩
      · rw [hsome]
        exact Or.inr ⟨r :: before, s, after, by rw [heq]; rfl, hup, hcontinues, rfl⟩

/-- How a border is taken in : a horizontal one takes a place of its own, and so does a vertical
one where no run is open at its start. -/
inductive Taken (b : Border Int) (runs : List (Run Int)) : List (Run Int) → Prop where
  | horizontal (h : b.isHorizontal = true) : Taken b runs (runs ++ [⟨b, false⟩])
  | opened (hb : b.Upright)
    (hnone : ∀ r ∈ runs.map (closeAt b.line.stop b.blocks),
      r.endsAt b.line.start b.blocks = false) :
    Taken b runs (runs.map (closeAt b.line.stop b.blocks) ++ [⟨b, true⟩])
  | lengthened (hb : b.Upright) {before after : List (Run Int)} {r : Run Int}
    (heq : runs.map (closeAt b.line.stop b.blocks) = before ++ r :: after)
    (hr : r.border.Upright) (hcontinues : b.Continues r.border) :
    Taken b runs (before ++ r.longer b :: after)

/-- The next border is always taken in. -/
theorem exists_step {runs : List (Run Int)} (hs : ∀ r ∈ runs, r.Sound) {b : Border Int}
    (hb : b.Proper) : ∃ runs', step runs b = .ok runs' ∧ Taken b runs runs' := by
  unfold step
  split
  · rename_i hhorizontal
    exact ⟨_, rfl, .horizontal hhorizontal⟩
  · rename_i hhorizontal
    have hup := hb.upright hhorizontal
    have hothers : ∀ r ∈ runs.map (closeAt b.line.stop b.blocks), r.Sound := by
      intro r hr
      obtain ⟨s, hs', rfl⟩ := List.mem_map.mp hr
      exact (hs s hs').closeAt _ _
    show ∃ runs', stepVertical runs b = .ok runs' ∧ _
    unfold stepVertical
    rcases lengthen?_cases hothers hup with ⟨hlengthen, hnone⟩ | ⟨before, r, after, heq, hr,
      hcontinues, hlengthen⟩
    · simp only [hlengthen]
      exact ⟨_, rfl, .opened hup hnone⟩
    · simp only [hlengthen]
      exact ⟨_, rfl, .lengthened hup heq hr hcontinues⟩

/-- Closing runs changes none of their borders. -/
theorem map_border_closeAt (p : Point Int) (blocks : Directions) (runs : List (Run Int)) :
    (runs.map (closeAt p blocks)).map Run.border = runs.map Run.border := by
  rw [List.map_map]
  exact List.map_congr_left fun r _ => border_closeAt p blocks r

/-- Taking in a border leaves the horizontal ones as they are. -/
theorem Taken.horizontals {b : Border Int} {runs runs' : List (Run Int)}
    (h : Taken b runs runs') : (runs'.map Run.border).filter Border.isHorizontal =
      (runs.map Run.border).filter Border.isHorizontal ++ [b].filter Border.isHorizontal := by
  have hothers := map_border_closeAt b.line.stop b.blocks runs
  cases h with
  | horizontal => rw [List.map_append, List.filter_append]; rfl
  | opened => rw [List.map_append, List.filter_append, hothers]; rfl
  | lengthened hb heq hr hcontinues =>
    have hlong := upright_longer hr hb hcontinues.1
    rw [← hothers, heq]
    simp [hr.not_isHorizontal, hlong.not_isHorizontal, hb.not_isHorizontal]

/-! ## Sides -/

/-- Runs account for borders : they are sound, and as many run along the side of every pixel. -/
structure Accounts (runs : List (Run Int)) (borders : List (Border Int)) : Prop where
  sound : ∀ r ∈ runs, r.Sound
  top : ∀ x y blocks, Outline.countTop (runs.map Run.border) x y blocks =
    Outline.countTop borders x y blocks
  left : ∀ x y blocks, Outline.countLeft (runs.map Run.border) x y blocks =
    Outline.countLeft borders x y blocks

theorem Accounts.refl {runs : List (Run Int)} (h : ∀ r ∈ runs, r.Sound) :
    Accounts runs (runs.map Run.border) :=
  ⟨h, fun _ _ _ => rfl, fun _ _ _ => rfl⟩

theorem Accounts.nil : Accounts [] [] :=
  Accounts.refl (by simp)

theorem Accounts.append {runs : List (Run Int)} {borders : List (Border Int)}
    (h : Accounts runs borders) {r : Run Int} (hr : r.Sound) :
    Accounts (runs ++ [r]) (borders ++ [r.border]) := by
  refine ⟨?_, fun x y blocks => ?_, fun x y blocks => ?_⟩
  · intro s hs
    rcases List.mem_append.mp hs with hs | hs
    · exact h.sound s hs
    · cases List.mem_singleton.mp hs
      exact hr
  · rw [List.map_append, Outline.countTop_append, Outline.countTop_append, h.top]
    rfl
  · rw [List.map_append, Outline.countLeft_append, Outline.countLeft_append, h.left]
    rfl

/-- Closing runs changes none of their borders. -/
theorem Accounts.closeAt {runs : List (Run Int)} {borders : List (Border Int)}
    (h : Accounts runs borders) (p : Point Int) (blocks : Directions) :
    Accounts (runs.map (Run.closeAt p blocks)) borders := by
  refine ⟨fun r hr => ?_, fun x y bs => by rw [map_border_closeAt, h.top],
    fun x y bs => by rw [map_border_closeAt, h.left]⟩
  obtain ⟨s, hs, rfl⟩ := List.mem_map.mp hr
  exact (h.sound s hs).closeAt p blocks

/-- A run that is lengthened accounts for one more border. -/
theorem Accounts.longer {before after : List (Run Int)} {r : Run Int}
    {borders : List (Border Int)} (h : Accounts (before ++ r :: after) borders) {b : Border Int}
    (hr : r.border.Upright) (hb : b.Upright) (hcontinues : b.Continues r.border) :
    Accounts (before ++ r.longer b :: after) (borders ++ [b]) := by
  have hlong := upright_longer hr hb hcontinues.1
  refine ⟨?_, fun x y blocks => ?_, fun x y blocks => ?_⟩
  · intro s hs
    rcases List.mem_append.mp hs with hs | hs
    · exact h.sound s (List.mem_append_left _ hs)
    · rcases List.mem_cons.mp hs with rfl | hs
      · exact ⟨hlong.proper, fun _ => hlong⟩
      · exact h.sound s (List.mem_append_right _ (List.mem_cons_of_mem _ hs))
  · have hb' : Outline.countTop [b] x y blocks = 0 :=
      Outline.countTop_eq_zero fun c hc => by
        cases List.mem_singleton.mp hc
        exact hb.not_alongTop x y
    rw [Outline.countTop_append, hb', ← h.top]
    simp only [List.map_append, List.map_cons, Outline.countTop_append, Outline.countTop_cons,
      hr.not_alongTop, hlong.not_alongTop, false_and, if_false, Nat.add_zero]
  · rw [Outline.countLeft_append, ← h.left]
    simp only [List.map_append, List.map_cons, Outline.countLeft_append, Outline.countLeft_cons,
      countLeft_longer hr hb hcontinues, Outline.countLeft_nil]
    omega

/-- Runs that have taken in a border account for it. -/
theorem Accounts.taken {runs runs' : List (Run Int)} {borders : List (Border Int)}
    (h : Accounts runs borders) {b : Border Int} (hb : b.Proper) (htaken : Taken b runs runs') :
    Accounts runs' (borders ++ [b]) := by
  have hothers := h.closeAt b.line.stop b.blocks
  cases htaken with
  | horizontal => exact h.append ⟨hb, fun hopen => by cases hopen⟩
  | opened hup => exact hothers.append ⟨hb, fun _ => hup⟩
  | lengthened hup heq hr hcontinues => exact (heq ▸ hothers).longer hr hup hcontinues

/-- All borders are taken in. -/
theorem foldlM_step {runs : List (Run Int)} {borders more : List (Border Int)}
    (h : Accounts runs borders) (hmore : ∀ b ∈ more, b.Proper) :
    ∃ runs', more.foldlM step runs = .ok runs' ∧ Accounts runs' (borders ++ more) ∧
      (runs'.map Run.border).filter Border.isHorizontal =
        (runs.map Run.border).filter Border.isHorizontal ++ more.filter Border.isHorizontal := by
  induction more generalizing runs borders with
  | nil => exact ⟨runs, rfl, by rwa [List.append_nil], (List.append_nil _).symm⟩
  | cons b more ih =>
    have hb := hmore b List.mem_cons_self
    obtain ⟨runs₁, hstep, htaken⟩ := exists_step h.sound hb
    obtain ⟨runs₂, hfold, h₂, hsame⟩ :=
      ih (h.taken hb htaken) fun c hc => hmore c (List.mem_cons_of_mem _ hc)
    refine ⟨runs₂, ?_, by simpa using h₂, ?_⟩
    · rw [List.foldlM_cons, hstep]
      exact hfold
    · rw [hsame, htaken.horizontals, List.append_assoc, ← List.filter_append,
        List.singleton_append]

/-- Proper borders are joined to proper borders, of which as many run along every side. -/
theorem exists_join? {borders : List (Border Int)} (h : ∀ b ∈ borders, b.Proper) :
    ∃ joined, join? borders = .ok joined ∧ (∀ b ∈ joined, b.Proper) ∧
      (∀ x y blocks, Outline.countTop joined x y blocks = Outline.countTop borders x y blocks) ∧
      ∀ x y blocks, Outline.countLeft joined x y blocks = Outline.countLeft borders x y blocks := by
  obtain ⟨runs, hfold, haccounts, -⟩ := foldlM_step Accounts.nil h
  refine ⟨runs.map Run.border, ?_, fun b hb => ?_, haccounts.top, haccounts.left⟩
  · unfold join?
    rw [hfold]
  · obtain ⟨r, hr, rfl⟩ := List.mem_map.mp hb
    exact (haccounts.sound r hr).proper

/-- Joining leaves the horizontal borders as they are, in their order. -/
theorem horizontals_join? {borders joined : List (Border Int)} (h : ∀ b ∈ borders, b.Proper)
    (hjoin : join? borders = .ok joined) :
    joined.filter Border.isHorizontal = borders.filter Border.isHorizontal := by
  obtain ⟨runs, hfold, -, hsame⟩ := foldlM_step Accounts.nil h
  unfold join? at hjoin
  rw [hfold] at hjoin
  cases hjoin
  exact hsame

/-! ## Runs that nothing continues -/

/-- Runs that wait for borders from top to bottom, of which none runs along one side with
another or with a run : the upright ones are open, and none goes on where another ends. -/
structure Ready (runs : List (Run Int)) (more : List (Border Int)) : Prop where
  sound : ∀ r ∈ runs, r.Sound
  proper : ∀ b ∈ more, b.Proper
  isOpen : ∀ r ∈ runs, r.border.Upright → r.isOpen = true
  apart : ∀ r ∈ runs, ∀ s ∈ runs, r.border.Upright → s.border.Upright →
    ¬s.border.Continues r.border
  above : ∀ r ∈ runs, r.border.Upright → ∀ b ∈ more, b.Upright →
    r.border.line.start.y ≤ b.line.start.y
  sorted : more.Pairwise fun b c => b.Upright → c.Upright → b.line.start.y ≤ c.line.start.y
  once : ∀ x y blocks, Outline.countLeft (runs.map Run.border ++ more) x y blocks ≤ 1

namespace Ready

variable {runs runs' : List (Run Int)} {b : Border Int} {more : List (Border Int)}

/-- No run is closed : one that ends where the next border ends would run along one side with
it. -/
theorem map_closeAt (h : Ready runs (b :: more)) (hb : b.Upright) :
    runs.map (closeAt b.line.stop b.blocks) = runs := by
  refine (List.map_congr_left fun r hr => ?_).trans (List.map_id runs)
  refine if_neg fun hends => ?_
  obtain ⟨hopen, hstop, hblocks⟩ := (endsAt_iff r _ _).mp hends
  have hr' := ((h.sound r hr).upright hopen).alongLeft_last
  rw [hstop] at hr'
  have hrun : 0 < Outline.countLeft (runs.map Run.border) b.line.stop.x (b.line.stop.y - 1)
      b.blocks :=
    List.countP_pos_iff.mpr ⟨r.border, List.mem_map_of_mem hr, decide_eq_true ⟨hr', hblocks⟩⟩
  have honce := h.once b.line.stop.x (b.line.stop.y - 1) b.blocks
  rw [Outline.countLeft_append, Outline.countLeft_cons, if_pos ⟨hb.alongLeft_last, rfl⟩] at honce
  omega

/-- A run that ends where the next border ends, and starts where that starts or above, may be
added if it continues none. -/
theorem add (h : Ready runs (b :: more)) (hb : b.Upright) (n : Run Int) (hopen : n.isOpen = true)
    (hup : n.border.Upright) (hstop : n.border.line.stop = b.line.stop)
    (hstart : n.border.line.start.y ≤ b.line.start.y)
    (hnew : ∀ r ∈ runs, r.border.Upright → ¬n.border.Continues r.border)
    (hmem : ∀ r ∈ runs', r ∈ runs ∨ r = n)
    (haccounts : Accounts runs' (runs.map Run.border ++ [b])) : Ready runs' more := by
  have habove : ∀ r ∈ runs, r.border.Upright → r.border.line.start.y ≤ b.line.start.y :=
    fun r hr hr' => h.above r hr hr' b List.mem_cons_self hb
  have hstop' : n.border.line.stop.y = b.line.stop.y := congrArg Point.y hstop
  refine ⟨haccounts.sound, (List.forall_mem_cons.mp h.proper).2, fun r hr hr' => ?_,
    fun r hr s hs hr' hs' hcontinues => ?_, fun r hr hr' c hc hc' => ?_, h.sorted.of_cons,
    fun x y blocks => ?_⟩
  · rcases hmem r hr with hr | rfl
    · exact h.isOpen r hr hr'
    · exact hopen
  · have hmeet := congrArg Point.y hcontinues.1
    rcases hmem r hr with hr | rfl <;> rcases hmem s hs with hs | rfl
    · exact h.apart r hr s hs hr' hs' hcontinues
    · exact hnew r hr hr' hcontinues
    · have := habove s hs hs'
      have := hb.2
      omega
    · have := hs'.2
      omega
  · rcases hmem r hr with hr | rfl
    · exact h.above r hr hr' c (List.mem_cons_of_mem _ hc) hc'
    · exact Int.le_trans hstart (List.rel_of_pairwise_cons h.sorted hc hb hc')
  · have := h.once x y blocks
    rwa [List.append_cons, Outline.countLeft_append, ← haccounts.left,
      ← Outline.countLeft_append] at this

/-- Runs are ready again when the next border is taken in. -/
theorem taken (h : Ready runs (b :: more)) (htaken : Taken b runs runs') : Ready runs' more := by
  obtain ⟨hb, hmore⟩ := List.forall_mem_cons.mp h.proper
  have haccounts := (Accounts.refl h.sound).taken hb htaken
  cases htaken with
  | horizontal hhorizontal =>
    have hnot : ∀ r ∈ runs ++ [⟨b, false⟩], r.border.Upright → r ∈ runs := by
      intro r hr hr'
      rcases List.mem_append.mp hr with hr | hr
      · exact hr
      · cases List.mem_singleton.mp hr
        rw [hr'.not_isHorizontal] at hhorizontal
        cases hhorizontal
    refine ⟨haccounts.sound, hmore, fun r hr hr' => h.isOpen r (hnot r hr hr') hr',
      fun r hr s hs hr' hs' => h.apart r (hnot r hr hr') s (hnot s hs hs') hr' hs',
      fun r hr hr' c hc => h.above r (hnot r hr hr') hr' c (List.mem_cons_of_mem _ hc),
      h.sorted.of_cons, fun x y blocks => ?_⟩
    rw [List.map_append]
    have := h.once x y blocks
    rwa [List.append_cons] at this
  | opened hup hnone =>
    rw [h.map_closeAt hup] at hnone haccounts ⊢
    refine h.add hup ⟨b, true⟩ rfl hup rfl (Int.le_refl _) (fun r hr hr' hcontinues => ?_)
      (fun r hr => ?_) haccounts
    · have hends := (endsAt_iff r _ _).mpr ⟨h.isOpen r hr hr', hcontinues⟩
      rw [hnone r hr] at hends
      cases hends
    · exact (List.mem_append.mp hr).imp_right List.mem_singleton.mp
  | @lengthened hup before after r heq hr hcontinues =>
    rw [h.map_closeAt hup] at heq
    subst heq
    have hmem : r ∈ before ++ r :: after := List.mem_append_right _ List.mem_cons_self
    refine h.add hup (r.longer b) rfl (upright_longer hr hup hcontinues.1) rfl
      (h.above r hmem hr b List.mem_cons_self hup) (fun s hs hs' hlong => ?_) (fun s hs => ?_)
      haccounts
    · exact h.apart s hs r hmem hs' hr hlong
    · rcases List.mem_append.mp hs with hs | hs
      · exact Or.inl (List.mem_append_left _ hs)
      · rcases List.mem_cons.mp hs with rfl | hs
        · exact Or.inr rfl
        · exact Or.inl (List.mem_append_right _ (List.mem_cons_of_mem _ hs))

/-- All borders are taken in. -/
theorem exists_foldlM (h : Ready runs more) :
    ∃ runs', more.foldlM step runs = .ok runs' ∧ Ready runs' [] := by
  induction more generalizing runs with
  | nil => exact ⟨runs, rfl, h⟩
  | cons b more ih =>
    obtain ⟨runs₁, hstep, htaken⟩ := exists_step h.sound (h.proper b List.mem_cons_self)
    obtain ⟨runs₂, hfold, h₂⟩ := ih (h.taken htaken)
    refine ⟨runs₂, ?_, h₂⟩
    rw [List.foldlM_cons, hstep]
    exact hfold

end Ready

/-- Where vertical borders come from top to bottom, and no two with the same blocking run along
one side, joining leaves none that goes on where another ends. -/
theorem not_continues_join? {borders joined : List (Border Int)} (h : ∀ b ∈ borders, b.Proper)
    (hsorted : borders.Pairwise fun b c =>
      b.Upright → c.Upright → b.line.start.y ≤ c.line.start.y)
    (honce : ∀ x y blocks, Outline.countLeft borders x y blocks ≤ 1)
    (hjoin : join? borders = .ok joined) :
    ∀ b ∈ joined, ∀ c ∈ joined, b.Upright → c.Upright → ¬c.Continues b := by
  have hstart : Ready [] borders := ⟨by simp, h, by simp, by simp, by simp, hsorted, honce⟩
  obtain ⟨runs, hfold, hready⟩ := hstart.exists_foldlM
  unfold join? at hjoin
  rw [hfold] at hjoin
  cases hjoin
  intro b hb c hc
  obtain ⟨r, hr, rfl⟩ := List.mem_map.mp hb
  obtain ⟨s, hs, rfl⟩ := List.mem_map.mp hc
  exact hready.apart r hr s hs

end Run

end Confinement
