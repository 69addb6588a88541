import Confinement.Proofs.Constraints
import Confinement.Proofs.Overrides

/-!
# Configurations that are loaded

A configuration is loaded if and only if it is read from the entries that the files hold for it,
with values put in place (`Config.loadWith?_eq_ok_iff`); where no place holds a file, there are no
entries, and what is read from none are the defaults. Values in place of those of the file lead to
the same configuration as the values written into it (`Config.HeldAt.loadWith?_iff_written`).

Whatever is put in place, margin and step of a configuration that is loaded are not negative, and
its strategy is a text as long as no other value is put in place of it. So no value that is let
through is refused when a region is confined with it (`Config.constraint?_of_loadWith?`).
-/

namespace Confinement

/-! ## Files in the working directory -/

theorem Path.text_single (name : String) : Path.text ⟨"", [name]⟩ = name := by
  show "" ++ "/".intercalate [name] = name
  rw [String.empty_append]
  rfl

namespace Files

theorem admit?_eq_ok {shown : String} (hnull : '\x00' ∉ shown.toList)
    (hlimit : shown.utf8ByteSize ≤ pathLimit) : admit? shown = .ok () := by
  unfold admit?
  rw [String.contains_char_eq, decide_eq_false hnull, if_neg Bool.false_ne_true,
    if_neg (Nat.not_lt.mpr hlimit)]

/-- A document in the working directory is read by its name. -/
theorem read?_eq_ok {files : Files} {name : String} {content : Document}
    (hnull : '\x00' ∉ name.toList) (hlimit : name.utf8ByteSize ≤ partLimit) (hup : name ≠ "..")
    (hworking : files.node .working [] = .directory)
    (hcontent : files.node .working [name] = .document content) :
    files.read? ⟨"", [name]⟩ = .ok content := by
  have hadmit : admit? name = .ok () :=
    admit?_eq_ok hnull (hlimit.trans (by decide))
  have hfollow : files.follow? .working name [] [name] = .ok [name] := by
    simp only [follow?, List.reverse_nil, hworking, if_neg (Nat.not_lt.mpr hlimit), Path.descend,
      if_neg hup, List.reverse_singleton]
  show files.find? ⟨.working, ⟨"", [name]⟩⟩ (Path.text ⟨"", [name]⟩) = _
  rw [Path.text_single]
  refine bind_eq_ok_iff.mpr ⟨_, hadmit, bind_eq_ok_iff.mpr ⟨_, hfollow, ?_⟩⟩
  simp only [hcontent]
  rfl

end Files

namespace Config

/-! ## Where a configuration is held -/

/-- The entries that a configuration is read from : those of the mapping at a given path, or else
at the first place that holds a document, and none where no place holds one. -/
inductive HeldAt (files : Files) : Option Path → List (String × Document) → Prop where
  /-- A path is given. -/
  | given {path : Path} {entries : List (String × Document)}
    (h : files.read? path = .ok (.mapping entries)) : HeldAt files (some path) entries
  /-- A place holds a document. -/
  | found {place : Place} {entries : List (String × Document)}
    (hsearch : search? files = some place)
    (h : files.find? place (shownPlace files place) = .ok (.mapping entries)) :
    HeldAt files none entries
  /-- No place holds a document. -/
  | absent (hsearch : search? files = none) : HeldAt files none []

theorem mapping?_eq_ok_iff {path : String} {d e : Document} :
    mapping? path d = .ok e ↔ ∃ entries, d = .mapping entries ∧ e = .mapping entries := by
  cases d with
  | mapping entries => simp [mapping?, eq_comm]
  | null | bool | int | real | text | list => simp [mapping?]

/-- What is configured where nothing is are the defaults. -/
theorem ofDocument?_nil : ofDocument? (.mapping []) = .ok default := by
  refine ofDocument?_eq_ok_iff.mpr ⟨[], [], rfl, rfl, ⟨rfl, rfl, rfl, origin?_zero, ?_, ?_⟩, rfl⟩
  · decide +kernel
  · decide +kernel

variable {files : Files} {path : Option Path} {entries : List (String × Document)} {o : Overrides}
  {configured c : Config}

/-- Values are put in place of those that are read from the entries. -/
theorem HeldAt.loadWith?_eq (h : HeldAt files path entries) (o : Overrides) :
    loadWith? files path o = ofDocument? (.mapping entries) >>= o.onto? := by
  unfold loadWith? load?
  cases h with
  | given h =>
    simp only [Option.isNone_some, Bool.false_and, Bool.false_eq_true, if_false, readMapping?, h]
    rfl
  | found hsearch h =>
    simp only [hsearch, Option.isNone_some, Bool.and_false, Bool.false_eq_true, if_false, h]
    rfl
  | absent hsearch =>
    simp only [hsearch, Option.isNone_none, Bool.and_self, if_true, ofDocument?_nil]
    rfl

/-- What is loaded is held in the files. -/
theorem exists_heldAt (h : loadWith? files path o = .ok c) :
    ∃ entries, HeldAt files path entries := by
  unfold loadWith? load? at h
  cases path with
  | some path =>
    simp only [Option.isNone_some, Bool.false_and, Bool.false_eq_true, if_false, readMapping?,
      bind_eq_ok_iff, mapError_eq_ok_iff, mapping?_eq_ok_iff] at h
    obtain ⟨-, ⟨-, ⟨-, hread, entries, rfl, -⟩, -⟩, -⟩ := h
    exact ⟨entries, .given hread⟩
  | none =>
    cases hsearch : search? files with
    | none => exact ⟨[], .absent hsearch⟩
    | some place =>
      simp only [hsearch, Option.isNone_some, Bool.and_false, Bool.false_eq_true, if_false,
        bind_eq_ok_iff, mapError_eq_ok_iff, mapping?_eq_ok_iff] at h
      obtain ⟨-, ⟨-, hread, -, ⟨entries, rfl, -⟩, -⟩, -⟩ := h
      exact ⟨entries, .found hsearch hread⟩

/-- A configuration is loaded if and only if it is one that is read from the entries in the files,
with values put in place. -/
theorem loadWith?_eq_ok_iff : loadWith? files path o = .ok c ↔ ∃ entries configured,
    HeldAt files path entries ∧ ofDocument? (.mapping entries) = .ok configured ∧
      o.Applied configured c := by
  simp only [← Overrides.onto?_eq_ok_iff]
  constructor
  · intro h
    obtain ⟨entries, hheld⟩ := exists_heldAt h
    rw [hheld.loadWith?_eq] at h
    obtain ⟨configured, hread, honto⟩ := bind_eq_ok_iff.mp h
    exact ⟨entries, configured, hheld, hread, honto⟩
  · rintro ⟨entries, configured, hheld, hread, honto⟩
    rw [hheld.loadWith?_eq]
    exact bind_eq_ok_iff.mpr ⟨configured, hread, honto⟩

/-! ### A margin in a file -/

/-- The entries of a file that sets a margin. -/
def marginEntries : List (String × Document) :=
  [("constraint", .mapping [("min_edge_distance", .int 2)]), ("logging", .null)]

/-- The file in the working directory. -/
def marginFiles : Files :=
  ⟨"/work", "/home", [(⟨.working, ⟨"", ["config.yml"]⟩⟩, .mapping marginEntries)], []⟩

/-- What the file sets. -/
def marginConfig : Config :=
  ⟨{ default.constraint with margin := 2.0 }, default.logging⟩

/-- Values of all kinds to be put in place, but none for the margin. -/
def marginOverrides : Overrides where
  backend := some (.text "Native")
  step := some (.int 0)
  origin := some (.list [.int 4, .bool true])
  level := some (.text "DEBUG")

theorem heldAt_margin : HeldAt marginFiles (some ⟨"", ["config.yml"]⟩) marginEntries :=
  .given (Files.read?_eq_ok (by decide) (by decide) (by decide) rfl rfl)

theorem ofDocument?_margin : ofDocument? (.mapping marginEntries) = .ok marginConfig := by
  have htwo : Document.float? (.int 2) = .ok 2.0 := rfl
  refine ofDocument?_eq_ok_iff.mpr ⟨_, _, rfl, rfl, ⟨rfl, ?_, rfl, origin?_zero, ?_, ?_⟩, rfl⟩
  · show (Document.float? (.int 2)).mapError .access = .ok 2.0
    rw [htwo]
    rfl
  · decide +kernel
  · decide +kernel

theorem ofKind_margin : marginOverrides.OfKind where
  backend _ h := ⟨"Native", (Option.some.inj h).symm⟩
  margin _ h := nomatch h
  step _ h := ⟨.int 0, Option.some.inj h ▸ rfl⟩
  origin _ h := ⟨_, (Option.some.inj h).symm⟩
  level _ h := ⟨"DEBUG", (Option.some.inj h).symm⟩

/-! ## Values written into the file -/

/-- A configuration is loaded with values in place of those of a file if and only if it is read
from the file with the values written into it, and what is not overridden stays as it is. -/
theorem HeldAt.loadWith?_iff_written (hheld : HeldAt files path entries)
    (hread : ofDocument? (.mapping entries) = .ok configured) (ho : o.OfKind) :
    (∀ c, loadWith? files path o = .ok c ↔ ofDocument? (.mapping (o.written entries)) = .ok c) ∧
      ∀ c, loadWith? files path o = .ok c → o.Keeps configured c := by
  have happlied : ∀ c, loadWith? files path o = .ok c ↔ o.Applied configured c := fun c => by
    rw [hheld.loadWith?_eq, hread]
    exact Overrides.onto?_eq_ok_iff
  exact ⟨fun c => (happlied c).trans (ho.applied_iff hread), fun c h => ((happlied c).mp h).keeps⟩

theorem loadWith?_iff_written_margin :
    (∀ c, loadWith? marginFiles (some ⟨"", ["config.yml"]⟩) marginOverrides = .ok c ↔
      ofDocument? (.mapping (marginOverrides.written marginEntries)) = .ok c) ∧
    ∀ c, loadWith? marginFiles (some ⟨"", ["config.yml"]⟩) marginOverrides = .ok c →
      marginOverrides.Keeps marginConfig c :=
  heldAt_margin.loadWith?_iff_written ofDocument?_margin ofKind_margin

/-! ## Constraints that are configured -/

/-- Margin and step of a configuration that is loaded are not negative, whatever is put in place. -/
theorem nonNegative_of_loadWith? (h : loadWith? files path o = .ok c) :
    Constraint.isNegative (Number.real c.constraint.margin) = false ∧
      Constraint.isNegative (Number.real c.constraint.step) = false := by
  obtain ⟨entries, configured, -, hread, happlied⟩ := loadWith?_eq_ok_iff.mp h
  obtain ⟨_, _, -, -, hreads, -⟩ := ofDocument?_eq_ok_iff.mp hread
  exact ⟨Overrides.isNegative_of_number? happlied.margin hreads.margin_sign,
    Overrides.isNegative_of_number? happlied.step hreads.step_sign⟩

/-- The strategy of a configuration that is loaded is a text, as long as no other value is put in
place of it. -/
theorem exists_backend_of_loadWith? (h : loadWith? files path o = .ok c)
    (ho : ∀ d, o.backend = some d → ∃ name, d = .text name) :
    ∃ name, c.constraint.backend = .text name := by
  obtain ⟨entries, configured, -, hread, happlied⟩ := loadWith?_eq_ok_iff.mp h
  obtain ⟨_, _, -, -, hreads, -⟩ := ofDocument?_eq_ok_iff.mp hread
  rw [happlied.backend]
  cases hbackend : o.backend with
  | none => exact ⟨_, hreads.backend⟩
  | some d => exact ho d hbackend

end Config

/-- A double is below zero as a document if and only if it is as a number. -/
theorem Document.isNegative_real (x : Float) :
    Constraint.isNegative (Document.real x) = Constraint.isNegative (Number.real x) := rfl

namespace ConstraintSettings

variable {s : ConstraintSettings} {name : String} {κ : Type} [Coordinate κ] {region : Region κ}

/-- Whether the strategy of settings is the one there is. -/
def IsNative (s : ConstraintSettings) : Prop :=
  ∃ name, s.backend = .text name ∧ Text.lower name = Constraint.native

/-- Settings whose margin and step are not negative give a constraint to a region if and only if
their strategy is the one there is and the region has an outline. -/
theorem constraint?_eq_ok_iff (hmargin : Constraint.isNegative (Number.real s.margin) = false)
    (hstep : Constraint.isNegative (Number.real s.step) = false) {k : Constraint κ Document} :
    s.constraint? region = .ok k ↔
      s.IsNative ∧ ∃ outline, Outline.ofRegion? region = .ok outline ∧
        k = ⟨region, outline, s.place, .real s.margin, .real s.step⟩ := by
  have hbackend : s.constraint? region = .ok k ↔ s.IsNative ∧
      Constraint.create? region s.place (.real s.margin) (.real s.step) = .ok k := by
    unfold constraint? Constraint.ofBackend? IsNative
    cases s.backend with
    | text name =>
      show Constraint.withBackend? name region s.place _ _ = _ ↔ _
      unfold Constraint.withBackend?
      by_cases hname : Text.lower name = Constraint.native
      · simp [hname]
      · simp [hname]
    | null | bool | int | real | list | mapping => simp
  rw [hbackend, Constraint.create?_eq_ok_iff, Document.isNegative_real, Document.isNegative_real]
  simp only [hmargin, hstep, and_self, true_and]

/-- Settings whose margin and step are not negative give a constraint to every region that has an
outline. -/
theorem constraint?_of_native (hbackend : s.backend = .text name)
    (hname : Text.lower name = Constraint.native)
    (hmargin : Constraint.isNegative (Number.real s.margin) = false)
    (hstep : Constraint.isNegative (Number.real s.step) = false) {outline : Outline κ}
    (houtline : Outline.ofRegion? region = .ok outline) :
    s.constraint? region = .ok ⟨region, outline, s.place, .real s.margin, .real s.step⟩ :=
  (constraint?_eq_ok_iff hmargin hstep).mpr ⟨⟨name, hbackend, hname⟩, outline, houtline, rfl⟩

theorem constraint?_of_ne (hbackend : s.backend = .text name)
    (hname : Text.lower name ≠ Constraint.native) (region : Region κ) :
    s.constraint? region = .error (.unsupported name) := by
  unfold constraint? Constraint.ofBackend?
  rw [hbackend]
  exact if_neg hname

end ConstraintSettings

namespace Config

/-- A configuration that is loaded gives a constraint to every region, with the region's outline, if
its strategy is the one there is. If it is another one, this is refused as a value, and nothing else
ever is. -/
theorem constraint?_of_loadWith? (h : loadWith? files path o = .ok c)
    (ho : ∀ d, o.backend = some d → ∃ name, d = .text name) {region : Region Int}
    (hregion : region.Built) : ∃ name, c.constraint.backend = .text name ∧
      (Text.lower name = Constraint.native → ∃ outline, Outline.Exact outline region ∧
        c.constraint.constraint? region = .ok ⟨region, outline, c.constraint.place,
          .real c.constraint.margin, .real c.constraint.step⟩) ∧
      (Text.lower name ≠ Constraint.native → ∃ e : ConstraintError Int Document,
        c.constraint.constraint? region = .error e ∧ e.sort = .value ∧ e = .unsupported name) := by
  obtain ⟨name, hbackend⟩ := exists_backend_of_loadWith? h ho
  obtain ⟨hmargin, hstep⟩ := nonNegative_of_loadWith? h
  obtain ⟨outline, houtline, hexact⟩ := Outline.exists_ofRegion? hregion.banded
  refine ⟨name, hbackend, fun hname => ⟨outline, hexact, ?_⟩, fun hname => ⟨_, ?_, rfl, rfl⟩⟩
  · exact ConstraintSettings.constraint?_of_native hbackend hname hmargin hstep houtline
  · exact ConstraintSettings.constraint?_of_ne hbackend hname region

theorem constraint?_of_loadWith?_margin : ∃ c, loadWith? marginFiles
      (some ⟨"", ["config.yml"]⟩) marginOverrides = .ok c ∧
    ∃ outline, Outline.Exact outline Region.frame ∧
      c.constraint.constraint? Region.frame = .ok ⟨Region.frame, outline, c.constraint.place,
        .real c.constraint.margin, .real c.constraint.step⟩ := by
  have horigin : origin? (.list [.int 4, .bool true]) = .ok ⟨4.0, 1.0⟩ := by
    have hfour : Document.float? (.int 4) = .ok 4.0 := rfl
    have hone : Document.float? (.bool true) = .ok 1.0 := rfl
    simp only [origin?, hfour, hone]
  have hload : loadWith? marginFiles (some ⟨"", ["config.yml"]⟩) marginOverrides =
      .ok ⟨⟨.text "Native", 2.0, 0.0, ⟨4.0, 1.0⟩⟩, ⟨.text "DEBUG", .null, defaultFormat⟩⟩ :=
    loadWith?_eq_ok_iff.mpr ⟨_, _, heldAt_margin, ofDocument?_margin,
      ⟨rfl, rfl, (Overrides.number?_some_eq_ok_iff _ _).mpr
        ⟨⟨_, rfl⟩, rfl, by decide +kernel⟩, horigin, rfl⟩⟩
  obtain ⟨name, hname, hnative, -⟩ := constraint?_of_loadWith? hload ofKind_margin.backend
    Region.built_frame
  cases hname
  exact ⟨_, hload, hnative (by decide)⟩

end Config

end Confinement
