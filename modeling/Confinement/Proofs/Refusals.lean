import Confinement.Proofs.Sections

/-!
# How a configuration is refused

What is no acceptable configuration is to be refused as such : with a failure of the sort
`ErrorSort.value`. A document is not always refused like that; there are accidents on the way. What
stands under the key of a section may have no entries; where a margin or a step is to stand, there
may be a document that is no scalar; and a whole number may lie beyond the range of doubles.
`Config.Accident` and `Document.PairOverruns` list them, each behind what has to be read before it,
and there are no others (`Config.orderly_iff`).
-/

namespace Confinement

namespace Document

/-! ## Doubles and their absence -/

/-- A whole number that there is no double for. -/
def IsBeyondRange (d : Document) : Prop :=
  ∃ i : Int, d = .int i ∧ (2 ^ 54 - 1) * 2 ^ 970 ≤ i.natAbs

/-- A document that stands for no double and is not even a text. -/
inductive IsMisfit : Document → Prop where
  /-- Nothing. -/
  | null : IsMisfit .null
  /-- Values in a row. -/
  | list (items : List Document) : IsMisfit (.list items)
  /-- Values under keys. -/
  | mapping (entries : List (String × Document)) : IsMisfit (.mapping entries)
  /-- A whole number that is too large. -/
  | int {d : Document} (h : d.IsBeyondRange) : IsMisfit d

/-- A pair with a number that there is no double for, if it comes to reading that. -/
def PairOverruns (d : Document) : Prop :=
  ∃ a b, d = .list [a, b] ∧ (a.IsBeyondRange ∨ (∃ x, a.float? = .ok x) ∧ b.IsBeyondRange)

theorem pairOverruns_list_iff (a b : Document) : (Document.list [a, b]).PairOverruns ↔
    a.IsBeyondRange ∨ (∃ x, a.float? = .ok x) ∧ b.IsBeyondRange := by
  constructor
  · rintro ⟨_, _, heq, h⟩
    cases heq
    exact h
  · exact fun h => ⟨a, b, rfl, h⟩

theorem isBeyondRange_int_iff (i : Int) :
    (Document.int i).IsBeyondRange ↔ ¬∃ x, Number.floatOfInt i = .ok x := by
  rw [Number.exists_floatOfInt_iff, Nat.not_lt]
  exact ⟨fun ⟨j, hj, h⟩ => Document.int.inj hj ▸ h, fun h => ⟨i, rfl, h⟩⟩

/-- A double is read from a whole number, or it is too large for one. -/
theorem float?_int (i : Int) :
    (∃ x, (Document.int i).float? = .ok x) ∧ ¬(Document.int i).IsBeyondRange ∨
      (Document.int i).float? = .error (.arithmetic .beyondRange) ∧
        (Document.int i).IsBeyondRange := by
  rw [isBeyondRange_int_iff]
  unfold float?
  rcases Number.floatOfInt_eq_ok_or i with ⟨x, hx⟩ | hx
  · simp [hx, Except.mapError]
  · simp [hx, Except.mapError]

/-- What becomes of reading a double : there is one, a text writes none, the document is no scalar,
or it is a whole number that is too large. -/
inductive Reading (d : Document) : Prop where
  /-- There is a double. -/
  | double (x : Float) (h : d.float? = .ok x) (hfit : ¬d.IsMisfit)
  /-- A text writes none. -/
  | text (value : String) (h : d.float? = .error (.notNumber value)) (hfit : ¬d.IsMisfit)
  /-- The document is no scalar. -/
  | kind (h : d.float? = .error (.notNumeric d.kind)) (hmisfit : d.IsMisfit)
    (hrange : ¬d.IsBeyondRange)
  /-- The number is too large. -/
  | range (h : d.float? = .error (.arithmetic .beyondRange)) (hrange : d.IsBeyondRange)

theorem reading (d : Document) : d.Reading := by
  have hrange : (∀ i, d ≠ .int i) → ¬d.IsBeyondRange := fun hd ⟨i, hi, _⟩ => hd i hi
  cases d with
  | null => exact .kind rfl .null (hrange nofun)
  | list items => exact .kind rfl (.list items) (hrange nofun)
  | mapping entries => exact .kind rfl (.mapping entries) (hrange nofun)
  | bool value => exact .double _ rfl fun | .int h => hrange nofun h
  | real value => exact .double _ rfl fun | .int h => hrange nofun h
  | text value =>
    cases hread : Decimal.read? value with
    | some x => exact .double x (by simp [float?, hread]) fun | .int h => hrange nofun h
    | none => exact .text value (by simp [float?, hread]) fun | .int h => hrange nofun h
  | int i =>
    rcases float?_int i with ⟨⟨x, hx⟩, hfit⟩ | ⟨hx, hi⟩
    · exact .double x hx fun | .int h => hfit h
    · exact .range hx hi

end Document

namespace Config

/-! ## Refusals -/

section Orderly

variable {α β : Type}

/-- Whether there is a value, or a refusal of the sort that is for values. -/
def Orderly (x : Except ConfigError α) : Prop :=
  ∀ e, x = .error e → e.sort = .value

theorem orderly_ok (a : α) : Orderly (.ok a) := fun _ h => nomatch h

theorem orderly_error_iff {e : ConfigError} : Orderly (.error e : Except ConfigError α) ↔
    e.sort = .value :=
  ⟨fun h => h e rfl, fun h _ he => Except.error.inj he ▸ h⟩

theorem not_orderly_error {e : ConfigError} (h : e.sort ≠ .value) :
    ¬Orderly (.error e : Except ConfigError α) :=
  mt orderly_error_iff.mp h

/-- What goes on from a value is orderly if and only if both steps are. -/
theorem orderly_bind_iff {x : Except ConfigError α} {f : α → Except ConfigError β} :
    Orderly (x >>= f) ↔ Orderly x ∧ ∀ a, x = .ok a → Orderly (f a) := by
  cases x with
  | ok a => exact ⟨fun h => ⟨orderly_ok a, fun b hb => Except.ok.inj hb ▸ h⟩, fun h => h.2 a rfl⟩
  | error e =>
    show Orderly (.error e) ↔ _
    rw [orderly_error_iff, orderly_error_iff]
    exact ⟨fun h => ⟨h, nofun⟩, And.left⟩

end Orderly

theorem orderly_float?_iff (d : Document) :
    Orderly (d.float?.mapError ConfigError.access) ↔ ¬d.IsMisfit := by
  cases d.reading with
  | double x h hfit =>
    rw [h]
    exact iff_of_true (orderly_ok x) hfit
  | text value h hfit =>
    rw [h]
    exact iff_of_true (orderly_error_iff.mpr rfl) hfit
  | kind h hmisfit hrange =>
    rw [h]
    exact iff_of_false (not_orderly_error nofun) (not_not_intro hmisfit)
  | range h hrange =>
    rw [h]
    exact iff_of_false (not_orderly_error nofun) (not_not_intro (.int hrange))

/-- A pair is refused as a value unless it comes to a number that is too large. -/
theorem orderly_origin?_iff (d : Document) : Orderly (origin? d) ↔ ¬d.PairOverruns := by
  unfold origin?
  split
  · rename_i a b
    rw [Document.pairOverruns_list_iff]
    -- The second number is looked at only where the first one is a double.
    cases a.reading with
    | range ha hrange =>
      simp only [ha]
      exact iff_of_false (not_orderly_error nofun) (not_not_intro (.inl hrange))
    | text _ ha hfit =>
      simp only [ha]
      exact iff_of_true (orderly_error_iff.mpr rfl) (by simpa using mt .int hfit)
    | kind ha _ hrange =>
      simp only [ha]
      exact iff_of_true (orderly_error_iff.mpr rfl) (by simpa using hrange)
    | double x ha hfit =>
      have hrange : ¬a.IsBeyondRange := mt .int hfit
      cases b.reading with
      | range hb hbeyond =>
        simp only [ha, hb]
        exact iff_of_false (not_orderly_error nofun) (not_not_intro (.inr ⟨⟨x, rfl⟩, hbeyond⟩))
      | text _ hb hfit' =>
        simp only [ha, hb]
        exact iff_of_true (orderly_error_iff.mpr rfl) (by simpa [hrange] using mt .int hfit')
      | kind hb _ hrange' =>
        simp only [ha, hb]
        exact iff_of_true (orderly_error_iff.mpr rfl) (by simpa [hrange] using hrange')
      | double y hb hfit' =>
        simp only [ha, hb]
        exact iff_of_true (orderly_ok _) (by simpa [hrange] using mt .int hfit')
  · rename_i hshape
    exact iff_of_true (orderly_error_iff.mpr rfl) fun ⟨a, b, hd, _⟩ => hshape a b hd

theorem orderly_section?_iff (key : String) (entries : List (String × Document)) :
    Orderly (section? key entries) ↔ HoldsSection key entries := by
  constructor
  · intro horderly d hd
    by_contra hsection
    obtain ⟨hvoid, hkind⟩ := not_or.mp hsection
    have herror : section? key entries = .error (.access (.noMember d.kind "get")) := by
      unfold section?
      rw [hd]
      cases d with
      | mapping below => exact absurd ⟨below, rfl⟩ hkind
      | null | bool | int | real | text | list => exact if_neg hvoid
    cases horderly _ herror
  · intro hsection
    rw [section?_eq_ok_iff.mpr ⟨rfl, hsection⟩]
    exact orderly_ok _

theorem orderly_floatAt_iff (key : String) (absent : Float) (entries : List (String × Document)) :
    Orderly (float? key absent entries) ↔
      ∀ d, Document.find? key entries = some d → ¬d.IsMisfit := by
  unfold float?
  cases Document.find? key entries with
  | none => exact iff_of_true (orderly_ok absent) nofun
  | some d => simpa using orderly_float?_iff d

theorem orderly_nonNegative? {refuse : Float → ConfigError} {x : Float}
    (h : (refuse x).sort = .value) : Orderly (nonNegative? refuse x) := by
  unfold nonNegative?
  split
  · exact orderly_error_iff.mpr h
  · exact orderly_ok ()

theorem orderly_originAt_iff (entries : List (String × Document)) :
    Orderly (origin? ((Document.find? "origin" entries).getD (.list [.int 0, .int 0]))) ↔
      ∀ d, Document.find? "origin" entries = some d → ¬d.PairOverruns := by
  cases Document.find? "origin" entries with
  | none =>
    rw [Option.getD_none, origin?_zero]
    exact iff_of_true (orderly_ok _) nofun
  | some d => simpa using orderly_origin?_iff d

/-! ## Accidents -/

/-- What can happen on the way through the section on the constraint, each behind what is read
before it. -/
inductive SettingsAccident (below : List (String × Document)) : Prop where
  /-- The margin is no scalar, or too large. -/
  | margin {d : Document} (h : Document.find? "min_edge_distance" below = some d) (hd : d.IsMisfit)
  /-- The step is no scalar, or too large. -/
  | step {margin : Float} (hmargin : float? "min_edge_distance" defaultMargin below = .ok margin)
    {d : Document} (h : Document.find? "fixed_step" below = some d) (hd : d.IsMisfit)
  /-- A number of the origin is too large. -/
  | origin {margin step : Float}
    (hmargin : float? "min_edge_distance" defaultMargin below = .ok margin)
    (hstep : float? "fixed_step" defaultStep below = .ok step) {d : Document}
    (h : Document.find? "origin" below = some d) (hd : d.PairOverruns)

/-- What can happen on the way through the entries of a document. -/
inductive Accident (entries : List (String × Document)) : Prop where
  /-- The section on the constraint has no entries. -/
  | constraint (h : ¬HoldsSection "constraint" entries)
  /-- There is an accident in it. -/
  | settings (h : SettingsAccident (entriesOf "constraint" entries))
  /-- The section on logging has no entries. -/
  | logging {s : ConstraintSettings} (hs : constraint? (entriesOf "constraint" entries) = .ok s)
    (h : ¬HoldsSection "logging" entries)

theorem orderly_constraint?_iff (below : List (String × Document)) :
    Orderly (constraint? below) ↔ ¬SettingsAccident below := by
  unfold constraint?
  simp only [orderly_bind_iff, orderly_floatAt_iff, orderly_originAt_iff]
  constructor
  · rintro ⟨hmargin, hrest⟩ haccident
    cases haccident with
    | margin h hd => exact hmargin _ h hd
    | step hm h hd => exact (hrest _ hm).1 _ h hd
    | origin hm hs h hd => exact ((hrest _ hm).2 _ hs).1 _ h hd
  · intro h
    refine ⟨fun d hd hmisfit => h (.margin hd hmisfit), fun margin hm => ⟨fun d hd hmisfit =>
      h (.step hm hd hmisfit), fun step hs => ⟨fun d hd hpair => h (.origin hm hs hd hpair),
      fun _ _ => ⟨?_, fun _ _ => ⟨?_, fun _ _ => orderly_ok _⟩⟩⟩⟩⟩
    · exact orderly_nonNegative? rfl
    · exact orderly_nonNegative? rfl

/-- Without an accident, a mapping is read or refused as a value. -/
theorem orderly_ofDocument?_iff (entries : List (String × Document)) :
    Orderly (ofDocument? (.mapping entries)) ↔ ¬Accident entries := by
  unfold ofDocument?
  rw [orderly_bind_iff]
  simp only [orderly_bind_iff, orderly_section?_iff, orderly_constraint?_iff, section?_eq_ok_iff]
  constructor
  · rintro ⟨-, hrest⟩ haccident
    obtain ⟨hsection, hbelow⟩ := hrest entries rfl
    obtain ⟨hsettings, hlog⟩ := hbelow _ ⟨rfl, hsection⟩
    cases haccident with
    | constraint h => exact h hsection
    | settings h => exact hsettings h
    | logging hs h => exact h (hlog _ hs).1
  · intro h
    have hentries : Orderly ((Document.mapping entries).entries?.mapError ConfigError.access) :=
      orderly_ok entries
    refine ⟨hentries, fun es hes => ?_⟩
    cases hes
    refine ⟨?_, ?_⟩
    · by_contra hsection
      exact h (.constraint hsection)
    · rintro _ ⟨rfl, -⟩
      refine ⟨fun hsettings => h (.settings hsettings), fun s hs => ⟨?_, fun _ _ => orderly_ok _⟩⟩
      by_contra hsection
      exact h (.logging hs hsection)

/-- A mapping is read or refused as a value if and only if there is no accident on the way through
it, and an origin if and only if it is no pair of which a number is too large. -/
theorem orderly_iff (entries : List (String × Document)) (d : Document) :
    (Orderly (ofDocument? (.mapping entries)) ↔ ¬Accident entries) ∧
      (Orderly (origin? d) ↔ ¬d.PairOverruns) :=
  ⟨orderly_ofDocument?_iff entries, orderly_origin?_iff d⟩

/-- A whole number of four hundred digits. -/
theorem isBeyondRange_googols : (Document.int (10 ^ 400)).IsBeyondRange := by
  refine ⟨10 ^ 400, rfl, ?_⟩
  rw [Int.natAbs_pow]
  decide +kernel

/-- Not refused as values are a list in place of a section, nothing in place of a margin, and a
pair with such a number. -/
theorem not_orderly_googols :
    ¬Orderly (ofDocument? (.mapping [("constraint", .list [.int 1])])) ∧
      ¬Orderly (ofDocument? (.mapping [("constraint", .mapping [("min_edge_distance", .null)])])) ∧
      ¬Orderly (origin? (.list [.int (10 ^ 400), .int 0])) := by
  refine ⟨fun h => ?_, fun h => ?_, fun h => ?_⟩
  · refine (orderly_iff _ .null).1.mp h (.constraint fun hsection => ?_)
    rcases hsection _ rfl with hvoid | ⟨below, hbelow⟩
    · cases hvoid
    · cases hbelow
  · exact (orderly_iff _ .null).1.mp h (.settings (.margin rfl .null))
  · exact (orderly_iff [] _).2.mp h ⟨_, _, rfl, .inl isBeyondRange_googols⟩

end Config

end Confinement
