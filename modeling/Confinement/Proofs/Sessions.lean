import Confinement.Proofs.Constraints
import Confinement.Proofs.Journeys
import Confinement.Session

/-!
# Runs of sessions

A step of a session answers if and only if it has an effect, and then leaves the session with it
(`Session.Effect`, `Session.step_eq_ok_iff`). A step that fails has none : nothing is written
before the last thing that can fail, so the session stays as it was (`Session.outcome_perform`).

A region comes into a session together with its outline, and nothing else of the constraint is
ever written. So after any steps, whether they answer or fail, the region is that of the last
update that answered (`Session.region_run`), the constraint is the one that would be created for
it now, and it answers what that one would (`Session.consistent_run`). This holds for coordinates
of every type, and for regions of any boxes.
-/

namespace Confinement

namespace Session

/-! ## Fresh constraints -/

section Fresh

variable {κ α : Type} [Coordinate κ] [Scalar α] {origin : Point α} {margin step : α}

/-- Whether the constraint of a session is the one that would be created for its region. -/
def IsFresh (s : Session κ α) (origin : Point α) (margin step : α) : Prop :=
  Constraint.create? s.constraint.region origin margin step = .ok s.constraint

theorem isFresh_start {region : Region κ} {c : Constraint κ α}
    (hc : Constraint.create? region origin margin step = .ok c) (pointer : Point α) :
    (start c pointer).IsFresh origin margin step := by
  obtain ⟨-, outline, -, rfl⟩ := Constraint.create?_eq_ok_iff.mp hc
  exact hc

variable {s : Session κ α}

theorem IsFresh.fields (h : s.IsFresh origin margin step) :
    Outline.ofRegion? s.constraint.region = .ok s.constraint.outline ∧
      s.constraint.origin = origin ∧ s.constraint.margin = margin ∧ s.constraint.step = step := by
  obtain ⟨-, outline, houtline, hc⟩ := Constraint.create?_eq_ok_iff.mp h
  rw [hc] at houtline ⊢
  exact ⟨houtline, rfl, rfl, rfl⟩

/-- With a region comes its outline, and so the constraint for it. -/
theorem IsFresh.update (h : s.IsFresh origin margin step) {region : Region κ}
    {outline : Outline κ} (houtline : Outline.ofRegion? region = .ok outline) :
    IsFresh { s with constraint := { s.constraint with region, outline } } origin margin step := by
  obtain ⟨hsigns, -⟩ := Constraint.create?_eq_ok_iff.mp h
  obtain ⟨-, rfl, rfl, rfl⟩ := h.fields
  exact Constraint.create?_eq_ok_iff.mpr ⟨hsigns, outline, houtline, rfl⟩

end Fresh

/-! ## Single steps -/

/-- Whether something that reads and writes a state answers with these effects, or fails and leaves
the state as it was. -/
inductive Outcome {ε σ γ : Type} (s : σ) (effect : γ → σ → Prop) : Except ε γ × σ → Prop where
  | answers {answer : γ} {after : σ} (h : effect answer after) :
    Outcome s effect (.ok answer, after)
  | fails (e : ε) : Outcome s effect (.error e, s)

theorem run_ofExcept {ε ε' σ β γ : Type} {s : σ} {x : Except ε' β} {b : β} (hx : x = .ok b)
    {f : ε' → ε} {next : β → ExceptT ε (StateM σ) γ} :
    (ofExcept (x.mapError f) >>= next : ExceptT ε (StateM σ) γ).run.run s =
      (next b).run.run s := by
  rw [hx]
  rfl

/-- Where nothing is written before something that can fail, it is enough to look at what follows
if it does not. -/
theorem Outcome.ofExcept {ε ε' σ β γ : Type} {s : σ} {effect : γ → σ → Prop} {x : Except ε' β}
    {f : ε' → ε} {next : β → ExceptT ε (StateM σ) γ}
    (h : ∀ b, x = .ok b → Outcome s effect ((next b).run.run s)) :
    Outcome s effect ((ofExcept (x.mapError f) >>= next : ExceptT ε (StateM σ) γ).run.run s) := by
  cases hx : x with
  | ok b =>
    rw [run_ofExcept rfl]
    exact h b hx
  | error e => exact .fails (f e)

variable {κ α : Type} [Coordinate κ] [Scalar α] [Lift κ α]

/-- The effect of a step, with its answer. -/
inductive Effect (s : Session κ α) :
    SessionStep κ α → SessionAnswer α → Session κ α → Prop where
  /-- A motion is only answered. -/
  | confine {before asked p : Point α} (h : s.constraint.confine before asked = .ok p) :
    Effect s (.confine before asked) (.position p) s
  /-- A position is only answered. -/
  | ensure {position p : Point α} (h : s.constraint.ensure position = .ok p) :
    Effect s (.ensure position) (.position p) s
  /-- A region comes with its outline. -/
  | update {region : Region κ} {outline : Outline κ}
    (h : Outline.ofRegion? region = .ok outline) :
    Effect s (.update region) .done { s with constraint := { s.constraint with region, outline } }
  /-- The pointer is where it is put. -/
  | place (position : Point α) :
    Effect s (.place position) .done { s with place := .position position }
  /-- The pointer is where its motion ends. -/
  | move {vector p : Point α}
    (h : s.pointer.add vector >>= s.constraint.confine s.pointer = .ok p) :
    Effect s (.move vector) (.position p) { s with place := s.endOfMotion p }
  /-- The pointer is left where it is. -/
  | settled {r : Recovery α} (h : s.constraint.recover s.pointer = .ok r)
    (hr : s.isSettled r = true) : Effect s .recheck (.warped false) s
  /-- The pointer is warped to where it is recovered. -/
  | warped {r : Recovery α} (h : s.constraint.recover s.pointer = .ok r)
    (hr : s.isSettled r = false) :
    Effect s .recheck (.warped true) { s with place := r.place, warps := s.warps + 1 }

variable (s : Session κ α)

/-- A step answers and has its effect, or it fails and leaves the session as it was. -/
theorem outcome_perform (action : SessionStep κ α) :
    Outcome s (s.Effect action) ((perform action).run.run s) := by
  cases action with
  | confine before asked => exact .ofExcept fun p h => .answers (.confine h)
  | ensure position => exact .ofExcept fun p h => .answers (.ensure h)
  | update region => exact .ofExcept fun outline h => .answers (.update h)
  | place position => exact .answers (.place position)
  | move vector =>
    refine .ofExcept fun asked hasked => .ofExcept fun p h => .answers (.move ?_)
    rw [hasked]
    exact h
  | recheck =>
    refine .ofExcept fun r h => ?_
    cases hr : s.isSettled r with
    | true => exact .answers (.settled h hr)
    | false => exact .answers (.warped h hr)

/-- The same, of the answer and the session after it. -/
theorem step_cases (action : SessionStep κ α) :
    (∃ answer, s.step action = .ok (answer, s.next action) ∧
        s.Effect action answer (s.next action)) ∨
      (∃ e, s.step action = .error e) ∧ s.next action = s := by
  have houtcome := s.outcome_perform action
  unfold step next
  generalize (perform action).run.run s = result at houtcome ⊢
  cases houtcome with
  | answers h => exact Or.inl ⟨_, rfl, h⟩
  | fails e => exact Or.inr ⟨⟨e, rfl⟩, rfl⟩

variable {s} in
/-- A step that has an effect answers, and leaves the session with it. -/
theorem perform_of_effect {action : SessionStep κ α} {answer : SessionAnswer α}
    {after : Session κ α} (h : s.Effect action answer after) :
    (perform action).run.run s = (.ok answer, after) := by
  cases h with
  | confine h => exact run_ofExcept h
  | ensure h => exact run_ofExcept h
  | update h => exact run_ofExcept h
  | place => rfl
  | move h =>
    obtain ⟨asked, hasked, hp⟩ := bind_eq_ok_iff.mp h
    exact (run_ofExcept hasked).trans (run_ofExcept hp)
  | settled h hr =>
    refine (run_ofExcept h).trans ?_
    rw [hr]
    rfl
  | warped h hr =>
    refine (run_ofExcept h).trans ?_
    rw [hr]
    rfl

/-- A step answers if and only if it has an effect. -/
theorem step_eq_ok_iff {action : SessionStep κ α} {answer : SessionAnswer α}
    {after : Session κ α} :
    s.step action = .ok (answer, after) ↔ s.Effect action answer after := by
  constructor
  · intro h
    rcases s.step_cases action with ⟨_, hok, heffect⟩ | ⟨⟨e, he⟩, -⟩
    · cases hok.symm.trans h
      exact heffect
    · cases he.symm.trans h
  · intro h
    unfold step
    rw [perform_of_effect h]

/-- A step that answers leaves the session that it answers with. -/
theorem next_of_step_ok {action : SessionStep κ α} {answer : SessionAnswer α}
    {after : Session κ α} (h : s.step action = .ok (answer, after)) : s.next action = after := by
  unfold next
  rw [perform_of_effect (s.step_eq_ok_iff.mp h)]

/-- A step that fails leaves the session as it was. -/
theorem next_of_step_error {action : SessionStep κ α} {e : SessionError κ}
    (h : s.step action = .error e) : s.next action = s := by
  rcases s.step_cases action with ⟨answer, hok, -⟩ | ⟨-, hnext⟩
  · cases h.symm.trans hok
  · exact hnext

/-- A step without an effect on the session leaves it as it was. -/
theorem next_eq_of_effect {action : SessionStep κ α}
    (h : ∀ answer after, s.Effect action answer after → after = s) : s.next action = s := by
  rcases s.step_cases action with ⟨answer, -, heffect⟩ | ⟨-, hnext⟩
  · exact h answer _ heffect
  · exact hnext

/-- The constraint is only ever changed by a region that comes with its outline. -/
theorem constraint_next (action : SessionStep κ α) :
    (s.next action).constraint = s.constraint ∨ ∃ region outline, action = .update region ∧
      Outline.ofRegion? region = .ok outline ∧
      (s.next action).constraint = { s.constraint with region, outline } := by
  rcases s.step_cases action with ⟨answer, -, heffect⟩ | ⟨-, hnext⟩
  · generalize s.next action = after at heffect ⊢
    cases heffect with
    | update houtline => exact Or.inr ⟨_, _, rfl, houtline, rfl⟩
    | confine => exact Or.inl rfl
    | ensure => exact Or.inl rfl
    | place => exact Or.inl rfl
    | move => exact Or.inl rfl
    | settled => exact Or.inl rfl
    | warped => exact Or.inl rfl
  · exact Or.inl (congrArg constraint hnext)

/-- A step that only asks for something answers with it. -/
theorem step_of_asks {ε β : Type} {action : SessionStep κ α} {x : Except ε β}
    {f : ε → SessionError κ} {answer : β → SessionAnswer α}
    (h : (perform action).run.run s = (ofExcept (x.mapError f) >>= fun b => pure (answer b) :
      ExceptT (SessionError κ) (StateM (Session κ α)) (SessionAnswer α)).run.run s) :
    s.step action = (fun b => (answer b, s)) <$> x.mapError f := by
  unfold step
  rw [h]
  cases x <;> rfl

theorem step_confine (before asked : Point α) : s.step (.confine before asked) =
    (fun p => (.position p, s)) <$> (s.constraint.confine before asked).mapError .arithmetic :=
  s.step_of_asks rfl

theorem step_ensure (position : Point α) : s.step (.ensure position) =
    (fun p => (.position p, s)) <$> (s.constraint.ensure position).mapError .recovery :=
  s.step_of_asks rfl

/-! ## Runs -/

@[simp]
theorem run_nil : s.run [] = s := rfl

@[simp]
theorem run_cons (action : SessionStep κ α) (actions : List (SessionStep κ α)) :
    s.run (action :: actions) = (s.next action).run actions := rfl

variable {s}

/-- What every step keeps is kept by a run. -/
theorem run_induction {P : Session κ α → Prop} {actions : List (SessionStep κ α)} (hs : P s)
    (hnext : ∀ action ∈ actions, ∀ s, P s → P (s.next action)) : P (s.run actions) := by
  induction actions generalizing s with
  | nil => rwa [run_nil]
  | cons action actions ih =>
    obtain ⟨haction, hactions⟩ := List.forall_mem_cons.mp hnext
    rw [run_cons]
    exact ih (haction s hs) hactions

/-! ## The region in force -/

/-- The region after a step. An update brings a new one, if that has an outline. -/
def regionAfter (region : Region κ) : SessionStep κ α → Region κ
  | .update new =>
    match Outline.ofRegion? new with
    | .ok _ => new
    | .error _ => region
  | _ => region

/-- The region after steps : that of the last update that answers, if there is one. -/
def lastRegion (region : Region κ) (actions : List (SessionStep κ α)) : Region κ :=
  actions.foldl regionAfter region

theorem region_next (s : Session κ α) (action : SessionStep κ α) :
    (s.next action).constraint.region = regionAfter s.constraint.region action := by
  rcases s.step_cases action with ⟨answer, -, heffect⟩ | ⟨⟨e, he⟩, hnext⟩
  · generalize s.next action = after at heffect ⊢
    cases heffect with
    | update houtline => simp only [regionAfter, houtline]
    | _ => rfl
  · rw [hnext]
    cases action with
    | update new =>
      -- With an outline the update would have answered.
      cases houtline : Outline.ofRegion? new with
      | ok outline => cases he.symm.trans (s.step_eq_ok_iff.mpr (.update houtline))
      | error reason => simp only [regionAfter, houtline]
    | _ => rfl

/-- After any steps the region is that of the last update that answered. -/
theorem region_run (s : Session κ α) (actions : List (SessionStep κ α)) :
    (s.run actions).constraint.region = lastRegion s.constraint.region actions := by
  induction actions generalizing s with
  | nil => rfl
  | cons action actions ih =>
    rw [run_cons, ih, region_next]
    rfl

/-! ## Consistency -/

variable {origin : Point α} {margin step : α}

theorem IsFresh.next (h : s.IsFresh origin margin step) (action : SessionStep κ α) :
    (s.next action).IsFresh origin margin step := by
  unfold IsFresh
  rcases s.constraint_next action with hsame | ⟨region, outline, -, houtline, hnew⟩
  · rw [hsame]
    exact h
  · rw [hnew]
    exact h.update houtline

theorem IsFresh.run (h : s.IsFresh origin margin step) (actions : List (SessionStep κ α)) :
    (s.run actions).IsFresh origin margin step :=
  run_induction (P := fun s => s.IsFresh origin margin step) h fun action _ _ hs => hs.next action

/-- Asking about a motion changes nothing. -/
theorem next_confine (s : Session κ α) (before asked : Point α) :
    s.next (.confine before asked) = s :=
  s.next_eq_of_effect fun _ _ heffect => by cases heffect; rfl

/-- Asking about a position changes nothing. -/
theorem next_ensure (s : Session κ α) (position : Point α) : s.next (.ensure position) = s :=
  s.next_eq_of_effect fun _ _ heffect => by cases heffect; rfl

/-- What holds of a session with this region, origin, margin and step : its outline is that of its
region, what it is asked is answered as by a constraint created for that region, and neither a
question nor a step that fails changes it. Any other step has its effect. -/
structure Consistent (s : Session κ α) (region : Region κ) (origin : Point α) (margin step : α) :
    Prop where
  region_eq : s.constraint.region = region
  outline_eq : Outline.ofRegion? s.constraint.region = .ok s.constraint.outline
  origin_eq : s.constraint.origin = origin
  margin_eq : s.constraint.margin = margin
  step_eq : s.constraint.step = step
  answers : ∃ fresh, Constraint.create? s.constraint.region origin margin step = .ok fresh ∧
    (∀ before asked, s.step (.confine before asked) =
      (fun p => (.position p, s)) <$> (fresh.confine before asked).mapError .arithmetic) ∧
    ∀ position, s.step (.ensure position) =
      (fun p => (.position p, s)) <$> (fresh.ensure position).mapError .recovery
  next_confine_eq : ∀ before asked, s.next (.confine before asked) = s
  next_ensure_eq : ∀ position, s.next (.ensure position) = s
  next_eq_of_error : ∀ action e, s.step action = .error e → s.next action = s
  step_iff : ∀ action answer after,
    s.step action = .ok (answer, after) ↔ s.Effect action answer after
  next_eq_of_ok : ∀ action answer after,
    s.step action = .ok (answer, after) → s.next action = after

/-- After any steps, whether they answer or fail, a session is consistent with the region of the
last update that answered, and the origin, the margin and the step that it was started with. -/
theorem consistent_run {region : Region κ} {c : Constraint κ α}
    (hc : Constraint.create? region origin margin step = .ok c) (pointer : Point α)
    (actions : List (SessionStep κ α)) :
    ((start c pointer).run actions).Consistent (lastRegion region actions) origin margin step := by
  have hregion : c.region = region := by
    obtain ⟨-, outline, -, rfl⟩ := Constraint.create?_eq_ok_iff.mp hc
    rfl
  have hfresh := (isFresh_start hc pointer).run actions
  obtain ⟨houtline, horigin, hmargin, hstep⟩ := hfresh.fields
  exact {
    region_eq := hregion ▸ region_run _ actions
    outline_eq := houtline
    origin_eq := horigin
    margin_eq := hmargin
    step_eq := hstep
    answers := ⟨_, hfresh, step_confine _, step_ensure _⟩
    next_confine_eq := next_confine _
    next_ensure_eq := next_ensure _
    next_eq_of_error := fun _ _ => next_of_step_error _
    step_iff := fun _ _ _ => step_eq_ok_iff _
    next_eq_of_ok := fun _ _ _ => next_of_step_ok _ }

end Session

/-- Two boxes that start at the same column of a row, above a third one. They are in no order in
which they could be swept. -/
def Region.overlapping : Region Int :=
  ⟨[.ofPixels ⟨0, 0⟩ ⟨1, 0⟩, .ofPixels ⟨0, 0⟩ ⟨2, 0⟩, .ofPixels ⟨0, 1⟩ ⟨0, 1⟩]⟩

theorem Region.ofRegion?_overlapping :
    Outline.ofRegion? overlapping = .error (.seam .unswept) := by
  have hseam : Outline.between? [.ofPixels ⟨0, 0⟩ ⟨1, 0⟩, .ofPixels ⟨0, 0⟩ ⟨2, 0⟩]
      [.ofPixels ⟨0, 1⟩ ⟨0, 1⟩] = .error (.seam .unswept) := Outline.between?_of_touch rfl
  have hrows : rowsOf overlapping.boxes =
      [[.ofPixels ⟨0, 0⟩ ⟨1, 0⟩, .ofPixels ⟨0, 0⟩ ⟨2, 0⟩], [.ofPixels ⟨0, 1⟩ ⟨0, 1⟩]] := rfl
  simp only [Outline.ofRegion?, hrows, Outline.ofRows?, Outline.under?, hseam]
  rfl

/-- A session on a frame that goes on in one pixel. After that a region without an outline is
refused. -/
theorem Session.consistent_run_frame : ∃ c : Constraint Int Rat,
    Constraint.create? Region.frame ⟨2, 4⟩ (1 / 2) (1 / 256) = .ok c ∧
      Outline.ofRegion? Region.overlapping = .error (.seam .unswept) ∧
      ((start c ⟨3, 5⟩).run [.move ⟨9, 9⟩, .update Region.pixel, .place ⟨0, 0⟩,
        .update Region.overlapping, .recheck]).Consistent Region.pixel ⟨2, 4⟩ (1 / 2) (1 / 256) := by
  obtain ⟨outline, -, hc⟩ := Region.built_frame.exists_create
    (⟨2, 4⟩ : Point Rat) (show (0 : Rat) ≤ 1 / 2 by norm_num) (show (0 : Rat) ≤ 1 / 256 by norm_num)
  obtain ⟨pixelOutline, hpixel, -⟩ := Outline.exists_ofRegion? Region.built_pixel.banded
  have hrun := consistent_run hc ⟨3, 5⟩ [.move ⟨9, 9⟩, .update Region.pixel, .place ⟨0, 0⟩,
    .update Region.overlapping, .recheck]
  simp only [lastRegion, List.foldl_cons, List.foldl_nil, regionAfter, hpixel,
    Region.ofRegion?_overlapping] at hrun
  exact ⟨_, hc, Region.ofRegion?_overlapping, hrun⟩

end Confinement
