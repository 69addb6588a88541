import Confinement.Config.Source
import Confinement.Proofs.Doubles
import Confinement.Proofs.Exact

/-!
# Sections of a configuration

A configuration is read from a mapping if and only if both sections are mappings or void, the values
of the section on the constraint can be read, and margin and step are not negative
(`Config.ofDocument?_eq_ok_iff`). So margin and step of settings that are read are never negative
(`Config.Reads`), whatever they were read from: a number keeps its sign when it becomes a double
(`Document.isNegative_float?`).
-/

namespace Confinement

namespace Document

/-! ## Entries -/

theorem find?_put_self (key : String) (value : Document) (entries : List (String × Document)) :
    find? key (put key value entries) = some value := by
  induction entries with
  | nil => simp [put, find?]
  | cons e rest ih =>
    unfold put
    split
    · simp [find?]
    · rename_i hkey
      simpa [find?, hkey] using ih

theorem find?_put_of_ne {key other : String} (h : key ≠ other) (value : Document)
    (entries : List (String × Document)) :
    find? other (put key value entries) = find? other entries := by
  have hother : (key == other) = false := beq_false_of_ne h
  induction entries with
  | nil => simp [put, find?, hother]
  | cons e rest ih =>
    unfold put
    simp only [find?, List.find?_cons] at ih ⊢
    split
    · rename_i hkey
      rw [beq_iff_eq.mp hkey, List.find?_cons, hother]
    · rw [List.find?_cons]
      split
      · rfl
      · exact ih

theorem entries?_eq_ok_iff {d : Document} {entries : List (String × Document)} :
    d.entries? = .ok entries ↔ d = .mapping entries := by
  cases d <;> simp [entries?]

/-! ## Numbers -/

/-- A number is compared with a whole number, and nothing else is. -/
theorem before?_int (d : Document) (i : Int) : Coordinate.before? d (.int i) =
    match d.number? with
    | some x => .ok (Number.lt x (.int i))
    | none => .error (.unordered "<" d.kind "int") := by
  cases d with
  | null => rfl
  | bool value => exact congrArg Except.ok Bool.decide_eq_true
  | int value => exact congrArg Except.ok Bool.decide_eq_true
  | real value => exact congrArg Except.ok Bool.decide_eq_true
  | text value => rfl
  | list items => rfl
  | mapping entries => rfl

/-- A number is below zero if and only if the double is that it stands for. -/
theorem isNegative_float? {d : Document} {n : Number} {x : Float} (hn : d.number? = some n)
    (hx : d.float? = .ok x) : Constraint.isNegative (Number.real x) = Number.lt n (.int 0) := by
  cases d with
  | bool value =>
    cases hn
    cases hx
    cases value with
    | false => decide +kernel
    | true => decide +kernel
  | int value =>
    cases hn
    exact Number.isNegative_floatOfInt (mapError_eq_ok_iff.mp hx)
  | real value =>
    cases hn
    cases hx
    exact Bool.decide_eq_true
  | null => cases hn
  | text value => cases hn
  | list items => cases hn
  | mapping entries => cases hn

end Document

namespace Config

/-! ## Settings -/

theorem nonNegative?_eq_ok_iff {refuse : Float → ConfigError} {x : Float} {u : Unit} :
    nonNegative? refuse x = .ok u ↔ Constraint.isNegative (Number.real x) = false := by
  unfold nonNegative?
  cases Constraint.isNegative (Number.real x) <;> simp

/-- The origin where none is configured. -/
theorem origin?_zero : origin? (.list [.int 0, .int 0]) = .ok ⟨0.0, 0.0⟩ := by
  have hzero : Document.float? (.int 0) = .ok 0.0 := rfl
  simp only [origin?, hzero]

/-- Whether a section on the constraint holds these settings. -/
structure Reads (entries : List (String × Document)) (s : ConstraintSettings) : Prop where
  backend : s.backend =
    .text (((Document.find? "backend" entries).map Document.display).getD Constraint.native)
  margin : float? "min_edge_distance" defaultMargin entries = .ok s.margin
  step : float? "fixed_step" defaultStep entries = .ok s.step
  origin : origin? ((Document.find? "origin" entries).getD (.list [.int 0, .int 0])) = .ok s.origin
  margin_sign : Constraint.isNegative (Number.real s.margin) = false
  step_sign : Constraint.isNegative (Number.real s.step) = false

theorem constraint?_eq_ok_iff {entries : List (String × Document)} {s : ConstraintSettings} :
    constraint? entries = .ok s ↔ Reads entries s := by
  unfold constraint?
  simp only [bind_eq_ok_iff, nonNegative?_eq_ok_iff]
  constructor
  · rintro ⟨margin, hmargin, step, hstep, origin, horigin, -, hm, -, hs, h⟩
    cases h
    refine ⟨?_, hmargin, hstep, horigin, hm, hs⟩
    cases Document.find? "backend" entries <;> rfl
  · rintro ⟨hbackend, hmargin, hstep, horigin, hm, hs⟩
    refine ⟨_, hmargin, _, hstep, _, horigin, (), hm, (), hs, ?_⟩
    obtain ⟨backend, margin, step, origin⟩ := s
    cases hbackend
    cases Document.find? "backend" entries <;> rfl

/-! ## Sections -/

/-- The entries under a key, if there is a mapping. -/
def entriesOf (key : String) (entries : List (String × Document)) : List (String × Document) :=
  match Document.find? key entries with
  | some (.mapping below) => below
  | _ => []

/-- Whether what stands under a key can be a section : a mapping, or a void document. -/
def HoldsSection (key : String) (entries : List (String × Document)) : Prop :=
  ∀ d, Document.find? key entries = some d → d.isVoid = true ∨ ∃ below, d = .mapping below

theorem section?_eq_ok_iff {key : String} {entries below : List (String × Document)} :
    Config.section? key entries = .ok below ↔
      entriesOf key entries = below ∧ HoldsSection key entries := by
  unfold section? entriesOf HoldsSection
  cases Document.find? key entries with
  | none => simp
  | some d =>
    simp only [Option.some.injEq, forall_eq']
    cases hvoid : d.isVoid with
    | true =>
      cases d with
      | mapping es => simp [List.isEmpty_iff.mp hvoid]
      | null | bool | int | real | text | list => simp
    | false =>
      rw [if_neg Bool.false_ne_true, mapError_eq_ok_iff, Document.entries?_eq_ok_iff]
      cases d with
      | mapping es => simp
      | null | bool | int | real | text | list => simp

theorem ofDocument?_eq_ok_iff {entries : List (String × Document)} {c : Config} :
    ofDocument? (.mapping entries) = .ok c ↔ ∃ constraint log,
      Config.section? "constraint" entries = .ok constraint ∧ section? "logging" entries = .ok log ∧
        Reads constraint c.constraint ∧ c.logging = logSettings log := by
  unfold ofDocument?
  simp only [bind_eq_ok_iff, constraint?_eq_ok_iff]
  constructor
  · rintro ⟨es, hes, constraint, hconstraint, s, hs, log, hlog, h⟩
    cases hes
    cases h
    exact ⟨constraint, log, hconstraint, hlog, hs, rfl⟩
  · rintro ⟨constraint, log, hconstraint, hlog, hs, h⟩
    obtain ⟨s, logging⟩ := c
    cases h
    exact ⟨entries, rfl, constraint, hconstraint, s, hs, log, hlog, rfl⟩

end Config

end Confinement
