import Confinement.Proofs.Exact
import Confinement.Seat
import Mathlib.Data.List.Perm.Basic
import Mathlib.Data.List.Range

/-!
# Connections of a seat

A seat works with the connection that it opened last. The connections are numbered here in the order
in which they are opened, by what the display is sent and whether it can be reached
(`Connections.after`), and a record of a seat holds this count beside it (`SeatRecord`).

A connection that is opened is closed, or held, or lost (`SeatRecord.Accounts`); it is lost if
another one is opened while it is held. So all of them are accounted for at every point of a run if
and only if none is opened while the seat is connected, and in any case none is closed twice
(`SeatRecord.balanced_iff`).
-/

namespace Confinement

/-! ## What a display sees -/

/-- The connections to a display, which are numbered in the order in which they are opened. -/
structure Connections where
  /-- How many have been opened. -/
  opened : Nat
  /-- Those that have been closed. -/
  closed : List Nat

namespace Connections

/-- The connections after a call. A seat knows no connection but the one that it opened last, so
this is the one that is closed. -/
def after (isReached : Bool) (c : Connections) : DisplayCall → Connections
  | .openDisplay _ => if isReached then { c with opened := c.opened + 1 } else c
  | .close => { c with closed := c.closed ++ [c.opened - 1] }
  | .warp _ _ => c
  | .sync => c

end Connections

/-- A step of a seat, at a moment when the display can be reached or not : where a new connection
shows the pointer then, if it can. -/
structure SeatMoment (κ α : Type) [Coordinate κ] where
  /-- Where a new connection shows the pointer. -/
  pointer : Option (Point Int)
  /-- The step. -/
  step : SeatStep κ α

namespace SeatMoment

variable {κ α : Type} [Coordinate κ]

/-- Whether a connection is opened. -/
def opens (m : SeatMoment κ α) : Bool :=
  match m.step with
  | .connect => m.pointer.isSome
  | .enter => m.pointer.isSome
  | _ => false

end SeatMoment

namespace Seat

variable {κ α : Type} [Coordinate κ] [Scalar α] [Lift κ α] {s after : Seat}
  {calls : List DisplayCall}

/-- A seat that warps the pointer is connected, and stays so. -/
theorem exists_of_warp {target : Point α} (h : s.warp target = .ok (calls, after)) :
    s.isConnected = true ∧ ∃ x y, calls = [.warp x y, .sync] ∧
      after = { s with connection := some ⟨x, y⟩ } := by
  unfold warp at h
  split at h
  · rename_i hconnected
    obtain ⟨x, -, hx⟩ := bind_eq_ok_iff.mp h
    obtain ⟨y, -, hy⟩ := bind_eq_ok_iff.mp hx
    cases hy
    exact ⟨hconnected, x, y, rfl, rfl⟩
  · cases h

/-- A recheck warps the pointer or leaves everything as it is. -/
theorem exists_of_recheck {c : Constraint κ α} {warped : Bool}
    (h : s.recheck c = .ok (calls, warped, after)) : calls = [] ∧ after = s ∨
      ∃ target : Point α, s.warp target = .ok (calls, after) := by
  unfold recheck at h
  obtain ⟨p, -, hp⟩ := bind_eq_ok_iff.mp h
  obtain ⟨target?, -, htarget⟩ := bind_eq_ok_iff.mp hp
  cases target? with
  | none =>
    cases htarget
    exact Or.inl ⟨rfl, rfl⟩
  | some target =>
    obtain ⟨⟨calls', after'⟩, hwarp, heq⟩ := bind_eq_ok_iff.mp htarget
    cases heq
    exact Or.inr ⟨target, mapError_eq_ok_iff.mp hwarp⟩

/-- Whether a step neither opens nor closes a connection. -/
structure Quiet (s : Seat) (action : SeatStep κ α) : Prop where
  calls : ∀ isReached c, (s.perform action).1.foldl (Connections.after isReached) c = c
  isConnected_next : (s.next action).isConnected = s.isConnected

variable {action : SeatStep κ α}

theorem quiet_of_error {e : RecheckError κ} (h : s.perform action = ([], .error e)) :
    s.Quiet action := by
  refine ⟨fun isReached c => ?_, ?_⟩
  · rw [h]
    rfl
  · unfold next
    rw [h]

theorem quiet_of_ok {answer : SeatAnswer} (h : s.perform action = (calls, .ok (answer, after)))
    (hcalls : calls = [] ∧ after = s ∨ ∃ target : Point α, s.warp target = .ok (calls, after)) :
    s.Quiet action := by
  have hnext : s.next action = after := by
    unfold next
    rw [h]
  rcases hcalls with ⟨rfl, rfl⟩ | ⟨target, hwarp⟩
  · exact ⟨fun isReached c => by rw [h]; rfl, by rw [hnext]⟩
  · obtain ⟨hconnected, x, y, rfl, rfl⟩ := exists_of_warp hwarp
    exact ⟨fun isReached c => by rw [h]; rfl, by rw [hnext, hconnected]; rfl⟩

theorem quiet_position : s.Quiet (.position : SeatStep κ α) := by
  obtain ⟨name, pointer, connection⟩ := s
  cases connection with
  | none => exact quiet_of_error rfl
  | some p => exact quiet_of_ok rfl (Or.inl ⟨rfl, rfl⟩)

theorem quiet_warp (target : Point α) : s.Quiet (.warp target : SeatStep κ α) := by
  cases hwarp : s.warp target with
  | error e => exact quiet_of_error (by simp only [perform, hwarp]; rfl)
  | ok result => exact quiet_of_ok (by simp only [perform, hwarp]; rfl) (Or.inr ⟨target, hwarp⟩)

theorem quiet_recheck (c : Constraint κ α) : s.Quiet (.recheck c) := by
  cases hrecheck : s.recheck c with
  | error e => exact quiet_of_error (by simp only [perform, hrecheck]; rfl)
  | ok result =>
    exact quiet_of_ok (by simp only [perform, hrecheck]; rfl) (exists_of_recheck hrecheck)

end Seat

/-- A seat together with the connections that it has opened and closed. -/
structure SeatRecord where
  /-- The seat. -/
  seat : Seat
  /-- The connections. -/
  connections : Connections

namespace SeatRecord

variable {κ α : Type} [Coordinate κ] [Scalar α] [Lift κ α]

/-- A seat that has never been connected. -/
def start (name : DisplayName) : SeatRecord :=
  ⟨.new name none, ⟨0, []⟩⟩

/-- The record after a step. -/
def step (r : SeatRecord) (m : SeatMoment κ α) : SeatRecord :=
  let seat := { r.seat with pointer := m.pointer }
  ⟨seat.next m.step, (seat.perform m.step).1.foldl (.after m.pointer.isSome) r.connections⟩

/-- The record after one step after another. -/
def run (r : SeatRecord) (moments : List (SeatMoment κ α)) : SeatRecord :=
  moments.foldl step r

/-- The connection that the seat holds. -/
def held (r : SeatRecord) : List Nat :=
  if r.seat.isConnected then [r.connections.opened - 1] else []

/-- What a step does to the connections. -/
inductive Turn (r : SeatRecord) (m : SeatMoment κ α) (r' : SeatRecord) : Prop where
  /-- One is opened. -/
  | opened (hopens : m.opens = true) (hheld : r'.held = [r.connections.opened])
    (hconnections : r'.connections = ⟨r.connections.opened + 1, r.connections.closed⟩)
  /-- The one that is held is closed. -/
  | closed (hopens : m.opens = false) (hheld : r'.held = [])
    (hconnections : r'.connections = ⟨r.connections.opened, r.connections.closed ++ r.held⟩)
  /-- None is opened or closed. -/
  | kept (hopens : m.opens = false) (hheld : r'.held = r.held)
    (hconnections : r'.connections = r.connections)

/-- A step that neither opens nor closes a connection leaves the connections as they are. -/
theorem Turn.of_quiet {r : SeatRecord} {m : SeatMoment κ α} (hopens : m.opens = false)
    (h : Seat.Quiet { r.seat with pointer := m.pointer } m.step) : Turn r m (r.step m) := by
  have hconnections : (r.step m).connections = r.connections := h.calls _ _
  have hseat : (r.step m).seat.isConnected = r.seat.isConnected := h.isConnected_next
  refine .kept hopens ?_ hconnections
  unfold held
  rw [hseat, hconnections]

/-- A step opens a connection, or closes the one that is held, or does neither. -/
theorem step_turn (r : SeatRecord) (m : SeatMoment κ α) : Turn r m (r.step m) := by
  obtain ⟨⟨name, old, connection⟩, connections⟩ := r
  obtain ⟨pointer, action⟩ := m
  cases action with
  | connect | enter =>
    cases pointer with
    | none => exact .kept rfl rfl rfl
    | some p => exact .opened rfl rfl rfl
  | close | leave =>
    cases connection with
    | none => exact .kept rfl rfl rfl
    | some p => exact .closed rfl rfl rfl
  | position => exact .of_quiet rfl Seat.quiet_position
  | warp target => exact .of_quiet rfl (Seat.quiet_warp target)
  | recheck c => exact .of_quiet rfl (Seat.quiet_recheck c)

/-! ## Where connections are -/

/-- Every connection that has been opened is closed, held or lost. -/
def Accounts (r : SeatRecord) (lost : List Nat) : Prop :=
  (r.connections.closed ++ r.held ++ lost).Perm (List.range r.connections.opened)

theorem accounts_start (name : DisplayName) : (start name).Accounts [] := List.Perm.refl []

/-- A connection is lost if one is opened while another one is held. -/
theorem Accounts.step {r : SeatRecord} {lost : List Nat} (h : r.Accounts lost)
    (m : SeatMoment κ α) : (r.step m).Accounts (if m.opens then lost ++ r.held else lost) := by
  unfold Accounts at h ⊢
  cases r.step_turn m with
  | opened hopens hheld hconnections =>
    rw [hopens, hheld, hconnections, if_pos rfl, List.range_succ]
    refine List.Perm.trans ?_ (h.append_right [r.connections.opened])
    -- What was held moves to what is lost; only the order of the numbers differs.
    grind
  | closed hopens hheld hconnections =>
    rw [hopens, hheld, hconnections, if_neg Bool.false_ne_true, List.append_nil]
    exact h
  | kept hopens hheld hconnections =>
    rw [hopens, hheld, hconnections, if_neg Bool.false_ne_true]
    exact h

/-- Whether all connections are accounted for : those that have been opened are as many as those
that have been closed, and the one that is held; each of them is closed or held; and none is closed
twice. -/
structure Balanced (r : SeatRecord) : Prop where
  count : r.connections.opened = r.connections.closed.length +
    if r.seat.isConnected then 1 else 0
  kept : ∀ i < r.connections.opened, i ∈ r.connections.closed ∨ i ∈ r.held
  once : r.connections.closed.Nodup

variable {r : SeatRecord} {lost : List Nat}

theorem length_held (r : SeatRecord) : r.held.length = if r.seat.isConnected then 1 else 0 := by
  unfold held
  split <;> rfl

theorem Accounts.nodup_closed (h : r.Accounts lost) : r.connections.closed.Nodup := by
  have hnodup := h.nodup_iff.mpr (List.nodup_range)
  rw [List.append_assoc] at hnodup
  exact (List.nodup_append.mp hnodup).1

/-- All connections are accounted for if and only if none is lost. -/
theorem Accounts.balanced_iff_eq_nil (h : r.Accounts lost) : r.Balanced ↔ lost = [] := by
  have hlength := h.length_eq
  rw [List.length_append, List.length_append, List.length_range, length_held] at hlength
  constructor
  · intro hbalanced
    have hcount := hbalanced.count
    exact List.length_eq_zero_iff.mp (by omega)
  · rintro rfl
    refine ⟨by simpa using hlength.symm, fun i hi => ?_, h.nodup_closed⟩
    have hmem := h.mem_iff.mpr (List.mem_range.mpr hi)
    simpa using hmem

/-! ## Runs -/

/-- Whether the seat is not connected at any moment at which a connection is opened. -/
def NeverReopens (r : SeatRecord) (moments : List (SeatMoment κ α)) : Prop :=
  ∀ before m, before ++ [m] <+: moments → m.opens = true →
    (r.run before).seat.isConnected = false

theorem NeverReopens.of_prefix {before moments : List (SeatMoment κ α)}
    (h : r.NeverReopens moments) (hbefore : before <+: moments) : r.NeverReopens before :=
  fun earlier m hm => h earlier m (hm.trans hbefore)

theorem run_append_singleton (r : SeatRecord) (moments : List (SeatMoment κ α))
    (m : SeatMoment κ α) : r.run (moments ++ [m]) = (r.run moments).step m := by
  simp [run]

/-- A connection is opened at each moment at which one can be. -/
theorem opened_run (r : SeatRecord) (moments : List (SeatMoment κ α)) :
    (r.run moments).connections.opened =
      r.connections.opened + moments.countP SeatMoment.opens := by
  induction moments using List.reverseRecOn with
  | nil => rfl
  | append_singleton moments m ih =>
    rw [run_append_singleton, List.countP_append, List.countP_singleton, ← Nat.add_assoc, ← ih]
    cases (r.run moments).step_turn m with
    | opened hopens _ hconnections => rw [hopens, hconnections, if_pos rfl]
    | closed hopens _ hconnections | kept hopens _ hconnections =>
      rw [hopens, hconnections, if_neg Bool.false_ne_true, Nat.add_zero]

theorem neverReopens_nil (r : SeatRecord) : r.NeverReopens ([] : List (SeatMoment κ α)) :=
  fun before m h => by simp at h

theorem neverReopens_append_singleton_iff (r : SeatRecord) (moments : List (SeatMoment κ α))
    (m : SeatMoment κ α) : r.NeverReopens (moments ++ [m]) ↔ r.NeverReopens moments ∧
      (m.opens = true → (r.run moments).seat.isConnected = false) := by
  constructor
  · intro h
    exact ⟨h.of_prefix (List.prefix_append _ _), h moments m (List.prefix_refl _)⟩
  · rintro ⟨hmoments, hm⟩ before m' hprefix
    rcases List.prefix_concat_iff.mp hprefix with heq | hbefore
    · obtain ⟨rfl, hm'⟩ := List.append_inj' heq rfl
      rw [List.singleton_inj.mp hm']
      exact hm
    · exact hmoments before m' hbefore

/-- In a run from where none is lost, none is lost if and only if the seat is not connected at any
moment at which a connection is opened. -/
theorem Accounts.exists_run (h : r.Accounts []) (moments : List (SeatMoment κ α)) :
    ∃ lost, (r.run moments).Accounts lost ∧ (lost = [] ↔ r.NeverReopens moments) := by
  induction moments using List.reverseRecOn with
  | nil => exact ⟨[], h, iff_of_true rfl (neverReopens_nil r)⟩
  | append_singleton moments m ih =>
    obtain ⟨lost, haccounts, hiff⟩ := ih
    rw [run_append_singleton, neverReopens_append_singleton_iff, ← hiff]
    refine ⟨_, haccounts.step m, ?_⟩
    cases m.opens with
    | true =>
      rw [if_pos rfl, List.append_eq_nil_iff]
      simp [held]
    | false => simp

/-- All connections of a seat that starts unconnected are accounted for at every point of a run if
and only if the seat is not connected at any moment at which a connection is opened. In any case as
many have been opened as there were such moments, and none has been closed twice. -/
theorem balanced_iff (name : DisplayName) (moments : List (SeatMoment κ α)) :
    ((∀ before, before <+: moments → ((start name).run before).Balanced) ↔
      (start name).NeverReopens moments) ∧
    ∀ before, before <+: moments →
      ((start name).run before).connections.opened = before.countP SeatMoment.opens ∧
        ((start name).run before).connections.closed.Nodup := by
  have hrun := fun before : List (SeatMoment κ α) => (accounts_start name).exists_run before
  refine ⟨⟨fun h => ?_, fun h before hbefore => ?_⟩, fun before _ => ?_⟩
  · obtain ⟨lost, haccounts, hiff⟩ := hrun moments
    exact hiff.mp (haccounts.balanced_iff_eq_nil.mp (h moments (List.prefix_refl moments)))
  · obtain ⟨lost, haccounts, hiff⟩ := hrun before
    exact haccounts.balanced_iff_eq_nil.mpr (hiff.mpr (h.of_prefix hbefore))
  · obtain ⟨lost, haccounts, -⟩ := hrun before
    exact ⟨(opened_run _ before).trans (Nat.zero_add _), haccounts.nodup_closed⟩

/-- A seat that is connected twice and closed loses its first connection. -/
theorem not_balanced_twice : ¬∀ before, before <+: ([⟨some ⟨40, 30⟩, .connect⟩,
      ⟨some ⟨40, 30⟩, .connect⟩, ⟨some ⟨40, 30⟩, .close⟩] : List (SeatMoment Int Rat)) →
    ((start .standard).run before).Balanced := by
  intro h
  have hnever := (balanced_iff .standard _).1.mp h
  cases hnever [⟨some ⟨40, 30⟩, .connect⟩] ⟨some ⟨40, 30⟩, .connect⟩ ⟨[_], rfl⟩ rfl

end SeatRecord

end Confinement
