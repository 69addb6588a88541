import Confinement.Proofs.Sections

/-!
# Overrides and the file they override

A value can be put in place of a configured one on the way from the file, or it can be written into
the file. It does not matter which (`Overrides.OfKind.applied_iff`) : both ways accept the same
values and lead to the same configuration, in which all other values are those of the file
(`Overrides.Applied.keeps`). The two ways check a number before and after it becomes a double, and
come to the same result because a double has the sign of the number that it stands for.
-/

namespace Confinement

namespace Document

/-- The entries with a value under a key, if one is given. -/
def putGiven (key : String) :
    Option Document → List (String × Document) → List (String × Document)
  | none, entries => entries
  | some value, entries => put key value entries

theorem find?_putGiven_self (key : String) (value : Option Document)
    (entries : List (String × Document)) :
    find? key (putGiven key value entries) = value.or (find? key entries) := by
  cases value with
  | none => rfl
  | some value => exact find?_put_self key value entries

theorem find?_putGiven_of_ne {key other : String} (h : key ≠ other) (value : Option Document)
    (entries : List (String × Document)) :
    find? other (putGiven key value entries) = find? other entries := by
  cases value with
  | none => rfl
  | some value => exact find?_put_of_ne h value entries

end Document

namespace Overrides

/-! ## Writing into a file -/

/-- The section on the constraint with the values written into it. -/
def constraintEntries (o : Overrides) (below : List (String × Document)) :
    List (String × Document) :=
  Document.putGiven "backend" o.backend <| Document.putGiven "min_edge_distance" o.margin <|
    Document.putGiven "fixed_step" o.step <| Document.putGiven "origin" o.origin below

/-- The section on logging with the values written into it. -/
def logEntries (o : Overrides) (below : List (String × Document)) : List (String × Document) :=
  Document.putGiven "level" o.level below

/-- The entries of a file with the values written into its sections. -/
def written (o : Overrides) (entries : List (String × Document)) : List (String × Document) :=
  Document.put "logging" (.mapping (o.logEntries (Config.entriesOf "logging" entries))) <|
    Document.put "constraint"
      (.mapping (o.constraintEntries (Config.entriesOf "constraint" entries))) entries

variable (o : Overrides) (below : List (String × Document))

theorem find?_backend : Document.find? "backend" (o.constraintEntries below) =
    o.backend.or (Document.find? "backend" below) := by
  unfold constraintEntries
  rw [Document.find?_putGiven_self, Document.find?_putGiven_of_ne (by decide),
    Document.find?_putGiven_of_ne (by decide), Document.find?_putGiven_of_ne (by decide)]

theorem find?_margin : Document.find? "min_edge_distance" (o.constraintEntries below) =
    o.margin.or (Document.find? "min_edge_distance" below) := by
  unfold constraintEntries
  rw [Document.find?_putGiven_of_ne (by decide), Document.find?_putGiven_self,
    Document.find?_putGiven_of_ne (by decide), Document.find?_putGiven_of_ne (by decide)]

theorem find?_step : Document.find? "fixed_step" (o.constraintEntries below) =
    o.step.or (Document.find? "fixed_step" below) := by
  unfold constraintEntries
  rw [Document.find?_putGiven_of_ne (by decide), Document.find?_putGiven_of_ne (by decide),
    Document.find?_putGiven_self, Document.find?_putGiven_of_ne (by decide)]

theorem find?_origin : Document.find? "origin" (o.constraintEntries below) =
    o.origin.or (Document.find? "origin" below) := by
  unfold constraintEntries
  rw [Document.find?_putGiven_of_ne (by decide), Document.find?_putGiven_of_ne (by decide),
    Document.find?_putGiven_of_ne (by decide), Document.find?_putGiven_self]

theorem logSettings_logEntries : Config.logSettings (o.logEntries below) =
    { Config.logSettings below with level := o.level.getD (Config.logSettings below).level } := by
  unfold Config.logSettings logEntries
  rw [Document.find?_putGiven_self, Document.find?_putGiven_of_ne (by decide),
    Document.find?_putGiven_of_ne (by decide)]
  cases o.level <;> rfl

end Overrides

namespace Config

theorem section?_put (key : String) (below entries : List (String × Document)) :
    Config.section? key (Document.put key (.mapping below) entries) = .ok below := by
  rw [section?_eq_ok_iff]
  unfold entriesOf HoldsSection
  rw [Document.find?_put_self]
  exact ⟨rfl, fun d hd => Or.inr ⟨below, (Option.some.inj hd).symm⟩⟩

theorem section?_put_of_ne {key other : String} (h : key ≠ other) (d : Document)
    (entries : List (String × Document)) :
    Config.section? other (Document.put key d entries) = section? other entries := by
  unfold section?
  rw [Document.find?_put_of_ne h]

/-- A configuration is read from a file into which values are written if and only if it is read
from the two sections with these values. -/
theorem ofDocument?_written {o : Overrides} {entries : List (String × Document)} {c : Config} :
    ofDocument? (.mapping (o.written entries)) = .ok c ↔
      Reads (o.constraintEntries (entriesOf "constraint" entries)) c.constraint ∧
        c.logging = logSettings (o.logEntries (entriesOf "logging" entries)) := by
  have hconstraint : section? "constraint" (o.written entries) =
      .ok (o.constraintEntries (entriesOf "constraint" entries)) := by
    unfold Overrides.written
    rw [section?_put_of_ne (by decide), section?_put]
  have hlog : section? "logging" (o.written entries) =
      .ok (o.logEntries (entriesOf "logging" entries)) := section?_put _ _ _
  rw [ofDocument?_eq_ok_iff, hconstraint, hlog]
  constructor
  · rintro ⟨_, _, h1, h2, h⟩
    cases h1
    cases h2
    exact h
  · intro h
    exact ⟨_, _, rfl, rfl, h⟩

end Config

namespace Overrides

/-! ## Values in place of others -/

theorem number?_some (refuse : Document → ConfigError) (configured : Float) (value : Document) :
    number? refuse configured (some value) =
      match value.number? with
      | some n =>
        if Number.lt n (.int 0) then .error (refuse value) else value.float?.mapError .access
      | none => .error (.access (.arithmetic (.unordered "<" value.kind "int"))) := by
  unfold number?
  simp only [Document.before?_int]
  cases value.number? with
  | none => rfl
  | some n => cases hless : Number.lt n (.int 0) <;> simp [hless, bind, Except.bind] <;> rfl

/-- A value is put in place of a number if and only if it is a number itself, there is a double for
it, and that is not negative. -/
theorem number?_some_eq_ok_iff (refuse : Document → ConfigError) (configured : Float)
    {value : Document} {x : Float} : number? refuse configured (some value) = .ok x ↔
      (∃ n, value.number? = some n) ∧ value.float? = .ok x ∧
        Constraint.isNegative (Number.real x) = false := by
  rw [number?_some]
  cases hn : value.number? with
  | none => simp
  | some n =>
    simp only [Option.some.injEq, exists_eq', true_and]
    have hsign := fun hx : value.float? = .ok x => Document.isNegative_float? hn hx
    cases hless : Number.lt n (.int 0) with
    | true => exact iff_of_false (by simp) fun ⟨hx, h⟩ => by simp [hsign hx, hless] at h
    | false =>
      rw [if_neg Bool.false_ne_true, mapError_eq_ok_iff]
      exact ⟨fun hx => ⟨hx, (hsign hx).trans hless⟩, And.left⟩

/-- A number that is not negative keeps being so, whatever is put in place of it. -/
theorem isNegative_of_number? {refuse : Document → ConfigError} {configured x : Float}
    {value : Option Document} (h : number? refuse configured value = .ok x)
    (hsign : Constraint.isNegative (Number.real configured) = false) :
    Constraint.isNegative (Number.real x) = false := by
  cases value with
  | none =>
    cases h
    exact hsign
  | some v =>
    obtain ⟨-, -, hx⟩ := (number?_some_eq_ok_iff refuse configured).mp h
    exact hx

/-- A number is put in place of another if and only if it is read when it is written there. -/
theorem number?_eq_ok_iff (refuse : Document → ConfigError) {value : Option Document}
    (hvalue : ∀ v, value = some v → ∃ n, v.number? = some n) {key : String}
    {absent configured : Float} {below after : List (String × Document)}
    (hfind : Document.find? key after = value.or (Document.find? key below))
    (hread : Config.float? key absent below = .ok configured)
    (hsign : Constraint.isNegative (Number.real configured) = false) (x : Float) :
    number? refuse configured value = .ok x ↔
      Config.float? key absent after = .ok x ∧
        Constraint.isNegative (Number.real x) = false := by
  cases value with
  | none =>
    have hsame : Config.float? key absent after = .ok configured := by
      rw [← hread]
      unfold Config.float?
      rw [hfind, Option.none_or]
    rw [hsame]
    constructor
    · intro h
      cases h
      exact ⟨rfl, hsign⟩
    · exact fun h => h.1
  | some v =>
    rw [number?_some_eq_ok_iff]
    unfold Config.float?
    rw [hfind, Option.some_or]
    simp only [mapError_eq_ok_iff]
    exact and_iff_right (hvalue v rfl)

/-- An origin is put in place of another if and only if it is read when it is written there. -/
theorem origin?_eq {value : Option Document}
    (hvalue : ∀ v, value = some v → ∃ items, v = .list items) {given : Option Document}
    {configured : Point Float}
    (hread : Config.origin? (given.getD (.list [.int 0, .int 0])) = .ok configured) :
    origin? configured value =
      Config.origin? ((value.or given).getD (.list [.int 0, .int 0])) := by
  cases value with
  | none =>
    rw [Option.none_or, hread]
    rfl
  | some v =>
    obtain ⟨items, rfl⟩ := hvalue v rfl
    rfl

/-- Whether a configuration is another one with values put in place. -/
structure Applied (o : Overrides) (c d : Config) : Prop where
  backend : d.constraint.backend = o.backend.getD c.constraint.backend
  margin : number? .marginOverride c.constraint.margin o.margin = .ok d.constraint.margin
  step : number? .stepOverride c.constraint.step o.step = .ok d.constraint.step
  origin : origin? c.constraint.origin o.origin = .ok d.constraint.origin
  logging : d.logging = { c.logging with level := o.level.getD c.logging.level }

theorem onto?_eq_ok_iff {o : Overrides} {c d : Config} : o.onto? c = .ok d ↔ o.Applied c d := by
  unfold onto?
  simp only [bind_eq_ok_iff]
  constructor
  · rintro ⟨margin, hmargin, step, hstep, origin, horigin, h⟩
    cases h
    exact ⟨rfl, hmargin, hstep, horigin, rfl⟩
  · rintro ⟨hbackend, hmargin, hstep, horigin, hlogging⟩
    obtain ⟨⟨backend, margin, step, origin⟩, logging⟩ := d
    cases hbackend
    cases hlogging
    exact ⟨margin, hmargin, step, hstep, origin, horigin, rfl⟩

/-- Whether the values are of the kinds that are given for them : texts for the strategy and the
level, numbers for margin and step, and a list for the origin. -/
structure OfKind (o : Overrides) : Prop where
  backend : ∀ d, o.backend = some d → ∃ name, d = .text name
  margin : ∀ d, o.margin = some d → ∃ n, d.number? = some n
  step : ∀ d, o.step = some d → ∃ n, d.number? = some n
  origin : ∀ d, o.origin = some d → ∃ items, d = .list items
  level : ∀ d, o.level = some d → ∃ name, d = .text name

/-- What is not overridden stays as it is configured. -/
structure Keeps (o : Overrides) (c d : Config) : Prop where
  backend : o.backend = none → d.constraint.backend = c.constraint.backend
  margin : o.margin = none → d.constraint.margin = c.constraint.margin
  step : o.step = none → d.constraint.step = c.constraint.step
  origin : o.origin = none → d.constraint.origin = c.constraint.origin
  level : o.level = none → d.logging.level = c.logging.level
  file : d.logging.file = c.logging.file
  format : d.logging.format = c.logging.format

variable {o : Overrides} {c d : Config}

theorem Applied.keeps (h : o.Applied c d) : o.Keeps c d where
  backend hnone := by rw [h.backend, hnone, Option.getD_none]
  margin hnone := by
    have hmargin := h.margin
    rw [hnone] at hmargin
    exact (Except.ok.inj hmargin).symm
  step hnone := by
    have hstep := h.step
    rw [hnone] at hstep
    exact (Except.ok.inj hstep).symm
  origin hnone := by
    have horigin := h.origin
    rw [hnone] at horigin
    exact (Except.ok.inj horigin).symm
  level hnone := by rw [h.logging, hnone, Option.getD_none]
  file := by rw [h.logging]
  format := by rw [h.logging]

/-- Values are put in place of those of a file with the result of writing them into it. -/
theorem OfKind.applied_iff (ho : o.OfKind) {entries : List (String × Document)}
    (hread : Config.ofDocument? (.mapping entries) = .ok c) :
    o.Applied c d ↔ Config.ofDocument? (.mapping (o.written entries)) = .ok d := by
  obtain ⟨constraint, log, hconstraint, hlog, hreads, hlogging⟩ :=
    Config.ofDocument?_eq_ok_iff.mp hread
  obtain ⟨rfl, -⟩ := Config.section?_eq_ok_iff.mp hconstraint
  obtain ⟨rfl, -⟩ := Config.section?_eq_ok_iff.mp hlog
  -- Field by field, a value that is put in place is the one that is read where it is written.
  have hmargin := number?_eq_ok_iff .marginOverride ho.margin (o.find?_margin _) hreads.margin
    hreads.margin_sign d.constraint.margin
  have hstep := number?_eq_ok_iff .stepOverride ho.step (o.find?_step _) hreads.step
    hreads.step_sign d.constraint.step
  have horigin := origin?_eq ho.origin hreads.origin
  rw [← o.find?_origin] at horigin
  have hbackend : o.backend.getD c.constraint.backend = .text
      (((o.backend.or (Document.find? "backend" (Config.entriesOf "constraint" entries))).map
        Document.display).getD Constraint.native) := by
    cases h : o.backend with
    | none => exact hreads.backend
    | some d =>
      obtain ⟨name, rfl⟩ := ho.backend d h
      rfl
  rw [← o.find?_backend] at hbackend
  rw [Config.ofDocument?_written, o.logSettings_logEntries, ← hlogging]
  constructor
  · intro h
    obtain ⟨hm, hmsign⟩ := hmargin.mp h.margin
    obtain ⟨hs, hssign⟩ := hstep.mp h.step
    exact ⟨⟨h.backend.trans hbackend, hm, hs, horigin ▸ h.origin, hmsign, hssign⟩, h.logging⟩
  · rintro ⟨h, hlog'⟩
    exact ⟨h.backend.trans hbackend.symm, hmargin.mpr ⟨h.margin, h.margin_sign⟩,
      hstep.mpr ⟨h.step, h.step_sign⟩, horigin ▸ h.origin, hlog'⟩

end Overrides

end Confinement
