import Confinement.Proofs.Loadings
import Confinement.Proofs.Printing
import Mathlib.Data.List.TakeWhile
import Mathlib.Data.String.Basic

/-!
# Confining as the configured strategy does

The program takes outline, origin, margin and step of a motion by itself; a constraint takes them
from its strategy. The two agree if and only if, for the outline of the region, the strategy is the
one there is just in case the outline stops the motion (`Program.agrees_iff`). So they part in two
ways. A strategy that there is not gives no constraint, but motions are confined all the same
(`Program.not_agrees_barrier`); and there may be a constraint where a motion has no end, or one of
the borders that stop it cannot be listed.

Motions that are asked for on the command line are between doubles, and so are their ends, which can
always be listed (`Outline.exists_real_of_confine`).
-/

namespace Confinement

/-! ## Positions that are listed -/

/-- Whatever has a sum with a double, the sum is a double. -/
theorem Document.exists_real_of_add {d sum : Document} {x : Float}
    (h : Coordinate.add d (.real x) = .ok sum) : ∃ z, sum = .real z := by
  have hcompute : ∀ n : Number, (ofNumber <$> Coordinate.add n (.real x) : Except _ Document) =
      .ok sum → ∃ z, sum = .real z := by
    intro n hn
    cases n with
    | real y =>
      cases hn
      exact ⟨_, rfl⟩
    | int i =>
      change ofNumber <$> (Number.floatOfInt i >>= fun y => pure (.real (y + x))) = _ at hn
      cases hi : Number.floatOfInt i with
      | error e => rw [hi] at hn; cases hn
      | ok y => rw [hi] at hn; cases hn; exact ⟨_, rfl⟩
  cases d with
  | text | list | null | mapping => cases h
  | bool value => exact hcompute (.int (if value then 1 else 0)) h
  | int value => exact hcompute (.int value) h
  | real value => exact hcompute (.real value) h

/-- A motion between doubles ends at doubles. -/
theorem Outline.exists_real_of_confine {outline : Outline Document}
    {origin before asked : Point Float} {margin step : Document} {confined : Confined Document}
    (h : outline.confine (origin.map .real) (before.map .real) (asked.map .real) margin step =
      .ok confined) : ∃ p : Point Float, confined.position = p.map .real := by
  unfold confine at h
  split at h
  · cases h
    exact ⟨origin, rfl⟩
  · simp only [bind_eq_ok_iff] at h
    obtain ⟨x, -, y, -, requested, -, start, -, ⟨last, borders⟩, -, h⟩ := h
    dsimp only at h
    split at h
    · cases h
      exact ⟨asked, rfl⟩
    · obtain ⟨stopped, hstopped, h⟩ := bind_eq_ok_iff.mp h
      cases h
      unfold Point.add at hstopped
      simp only [bind_eq_ok_iff] at hstopped
      obtain ⟨sx, hx, sy, hy, heq⟩ := hstopped
      cases heq
      obtain ⟨zx, rfl⟩ := Document.exists_real_of_add hx
      obtain ⟨zy, rfl⟩ := Document.exists_real_of_add hy
      -- each coordinate is the one asked for, or where the motion was stopped
      refine ⟨⟨if last.stop.x == requested.x then asked.x else zx,
        if last.stop.y == requested.y then asked.y else zy⟩, ?_⟩
      simp only [Point.map]
      split <;> split <;> rfl

theorem Listing.exists_point_real (p : Point Float) : ∃ line, point (p.map .real) = .ok line :=
  ⟨_, rfl⟩

/-- Whether a motion has an end in an outline, and all borders that stop it can be listed. -/
def Outline.Stops (outline : Outline Document) (s : ConstraintSettings)
    (before asked : Point Document) : Prop :=
  ∃ confined, outline.confine s.place before asked (.real s.margin) (.real s.step) = .ok confined ∧
    ∀ b ∈ confined.stoppedBy, ∃ line, Listing.border b = .ok line

theorem Outline.stops_iff {outline : Outline Document} {s : ConstraintSettings}
    {before asked : Point Float} :
    outline.Stops s (before.map .real) (asked.map .real) ↔ ∃ confined lines,
      outline.confine s.place (before.map .real) (asked.map .real) (.real s.margin)
        (.real s.step) = .ok confined ∧ Listing.confined confined = .ok lines := by
  refine exists_congr fun confined => ?_
  rw [exists_and_left]
  refine and_congr_right fun hconfined => ?_
  obtain ⟨p, hp⟩ := exists_real_of_confine hconfined
  obtain ⟨position, hposition⟩ := Listing.exists_point_real p
  rw [← exists_mapM_eq_ok_iff]
  simp only [Listing.confined_eq_ok_iff, hp, hposition]
  constructor
  · rintro ⟨borders, hborders⟩
    exact ⟨_, position, borders, rfl, hborders, rfl⟩
  · rintro ⟨-, -, borders, -, hborders, -⟩
    exact ⟨borders, hborders⟩

/-! ## The strategy that is configured -/

/-- An outline of documents stands for itself. -/
theorem Outline.lift_document (outline : Outline Document) :
    (outline.lift : Outline Document) = outline :=
  List.map_id outline

/-- What a run of the program leaves behind agrees with the constraint that is configured. -/
structure Report.Agrees (report : Report) (files : Files) (s : ConstraintSettings) (name : String)
    (before asked : Point Document) : Prop where
  /-- The run succeeds if and only if there is such a constraint to the region of the file. -/
  exit_iff : report.exit = 0 ↔ ∃ region k,
    RegionFile.load? files (Path.ofString name) = .ok region ∧ s.constraint? region = .ok k
  /-- Then it first prints the position at which the constraint lets the motion end. -/
  position : ∀ region k, RegionFile.load? files (Path.ofString name) = .ok region →
    s.constraint? region = .ok k → ∃ p line, k.confine before asked = .ok p ∧
      Listing.point p = .ok line ∧ report.output.head? = some line

namespace Program

variable {files : Files} {c : Config} {file : Option Path} {logger : Logger}
  {arguments : List String} {choices : Choices} {name : String} {before asked : Point Float}
  (pointer : Option (Point Int)) (moment : LogMoment)

/-- The program that is asked to confine a motion succeeds if and only if the region of the file can
be read and has an outline that stops the motion. -/
theorem exit_eq_zero_iff
    (hread : Arguments.read? arguments =
      .ok (choices, .confine name (before.map .real) (asked.map .real)))
    (hload : Config.loadWith? files choices.path? choices.overrides = .ok c)
    (hlog : Logger.setUp files c.logging = (file, .ok logger)) :
    (run files pointer moment arguments).exit = 0 ↔ ∃ region outline,
      RegionFile.load? (file.elim files files.touch) (Path.ofString name) = .ok region ∧
        Outline.ofRegion? region = .ok outline ∧
          outline.Stops c.constraint (before.map .real) (asked.map .real) := by
  have hends := exit_confine_iff pointer moment hread hload hlog
  simp only [ConstraintSettings.confine?_eq_ok_iff] at hends
  simp only [Outline.stops_iff]
  constructor
  · intro hexit
    obtain ⟨confined, ⟨region, outline, hregion, houtline, hconfined⟩, hlines⟩ :=
      (hends _).mp ⟨hexit, rfl⟩
    exact ⟨region, outline, hregion, houtline, confined, _, hconfined, hlines⟩
  · rintro ⟨region, outline, hregion, houtline, confined, lines, hconfined, hlines⟩
    exact ((hends lines).mpr
      ⟨confined, ⟨region, outline, hregion, houtline, hconfined⟩, hlines⟩).1

/-- The first line of a run that succeeds is the position at which a constraint of the same outline,
origin, margin and step lets the motion end. -/
theorem exists_head?_of_stops
    (hread : Arguments.read? arguments =
      .ok (choices, .confine name (before.map .real) (asked.map .real)))
    (hload : Config.loadWith? files choices.path? choices.overrides = .ok c)
    (hlog : Logger.setUp files c.logging = (file, .ok logger)) {region : Region Document}
    {outline : Outline Document}
    (hregion : RegionFile.load? (file.elim files files.touch) (Path.ofString name) = .ok region)
    (houtline : Outline.ofRegion? region = .ok outline)
    (hstops : outline.Stops c.constraint (before.map .real) (asked.map .real)) :
    ∃ p line, (Constraint.mk region outline c.constraint.place (.real c.constraint.margin)
        (.real c.constraint.step)).confine (before.map .real) (asked.map .real) = .ok p ∧
      Listing.point p = .ok line ∧
        (run files pointer moment arguments).output.head? = some line := by
  obtain ⟨confined, lines, hconfined, hlines⟩ := Outline.stops_iff.mp hstops
  obtain ⟨position, borders, hposition, -, rfl⟩ := Listing.confined_eq_ok_iff.mp hlines
  have houtput := ((exit_confine_iff pointer moment hread hload hlog _).mpr
    ⟨confined, ConstraintSettings.confine?_eq_ok_iff.mpr
      ⟨region, outline, hregion, houtline, hconfined⟩, hlines⟩).2
  refine ⟨confined.position, position, ?_, hposition, ?_⟩
  · show Confined.position <$> (outline.lift : Outline Document).confine _ _ _ _ _ = _
    rw [Outline.lift_document, hconfined]
    rfl
  · rw [houtput]
    rfl

/-- The program that is asked to confine a motion agrees with the constraint that is configured if
and only if, where there is an outline, the strategy is the one there is just in case the outline
stops the motion. -/
theorem agrees_iff
    (hread : Arguments.read? arguments =
      .ok (choices, .confine name (before.map .real) (asked.map .real)))
    (hload : Config.loadWith? files choices.path? choices.overrides = .ok c)
    (hlog : Logger.setUp files c.logging = (file, .ok logger)) :
    (run files pointer moment arguments).Agrees (file.elim files files.touch) c.constraint name
        (before.map .real) (asked.map .real) ↔
      ∀ region outline,
        RegionFile.load? (file.elim files files.touch) (Path.ofString name) = .ok region →
          Outline.ofRegion? region = .ok outline →
            (c.constraint.IsNative ↔
              outline.Stops c.constraint (before.map .real) (asked.map .real)) := by
  obtain ⟨hmargin, hstep⟩ := Config.nonNegative_of_loadWith? hload
  have hexit := exit_eq_zero_iff pointer moment hread hload hlog
  have hconstraint {region : Region Document} {k : Constraint Document Document} :
      c.constraint.constraint? region = .ok k ↔ _ :=
    ConstraintSettings.constraint?_eq_ok_iff hmargin hstep
  constructor
  · rintro ⟨hagrees, -⟩ region outline hregion houtline
    rw [hexit] at hagrees
    constructor
    · intro hnative
      have hk := hconstraint.mpr ⟨hnative, outline, houtline, rfl⟩
      obtain ⟨_, _, hregion', houtline', hstops⟩ := hagrees.mpr ⟨region, _, hregion, hk⟩
      cases hregion.symm.trans hregion'
      cases houtline.symm.trans houtline'
      exact hstops
    · intro hstops
      obtain ⟨_, k, -, hk⟩ := hagrees.mp ⟨region, outline, hregion, houtline, hstops⟩
      exact (hconstraint.mp hk).1
  · intro h
    refine ⟨hexit.trans ⟨?_, ?_⟩, ?_⟩
    · rintro ⟨region, outline, hregion, houtline, hstops⟩
      have hnative := (h region outline hregion houtline).mpr hstops
      exact ⟨region, _, hregion, hconstraint.mpr ⟨hnative, outline, houtline, rfl⟩⟩
    · rintro ⟨region, k, hregion, hk⟩
      obtain ⟨hnative, outline, houtline, -⟩ := hconstraint.mp hk
      exact ⟨region, outline, hregion, houtline, (h region outline hregion houtline).mp hnative⟩
    · intro region k hregion hk
      obtain ⟨hnative, outline, houtline, rfl⟩ := hconstraint.mp hk
      exact exists_head?_of_stops pointer moment hread hload hlog hregion houtline
        ((h region outline hregion houtline).mp hnative)

end Program

/-! ## A strategy that there is not

The names of files are taken apart at separators. A name that holds none is a path of one part. -/

theorem splitOnAux_of_notMem {separator : String} (before : List Char) {rest : List Char}
    (h : String.Pos.Raw.get separator 0 ∉ rest) :
    (String.ofList (before ++ rest)).splitOnAux separator 0 ⟨String.utf8Len before⟩ 0 [] =
      [String.ofList (before ++ rest)] := by
  induction rest generalizing before with
  | nil =>
    unfold String.splitOnAux
    simpa using String.extract_zero_rawEndPos (String.ofList before)
  | cons c rest ih =>
    obtain ⟨hne, hrest⟩ := List.ne_and_not_mem_of_not_mem_cons h
    have hend : ¬(⟨String.utf8Len before⟩ : String.Pos.Raw).atEnd
        (String.ofList (before ++ c :: rest)) := by
      rw [String.atEnd_of_valid]
      exact List.cons_ne_nil c rest
    unfold String.splitOnAux
    rw [if_neg hend, String.get_of_valid, if_neg (by simpa using hne.symm)]
    show String.splitOnAux _ _ _ (String.Pos.Raw.next _ ⟨String.utf8Len before⟩) 0 [] = _
    rw [String.next_of_valid]
    simpa using ih (before ++ [c]) hrest

/-- A text that holds no start of a separator is not split. -/
theorem splitOn_of_notMem {s separator : String} (h : String.Pos.Raw.get separator 0 ∉ s.toList) :
    s.splitOn separator = [s] := by
  unfold String.splitOn
  split
  · rfl
  · simpa using splitOnAux_of_notMem [] h

theorem Path.ofString_of_notMem {s : String} (h : '/' ∉ s.toList) (hempty : s ≠ "")
    (hdot : s ≠ ".") : ofString s = ⟨"", [s]⟩ := by
  have hslashes : s.toList.takeWhile (· == '/') = [] := by
    rw [List.takeWhile_eq_nil_iff]
    intro hlength hhead
    exact h (by rw [← eq_of_beq hhead]; exact List.getElem_mem hlength)
  unfold ofString
  rw [hslashes, splitOn_of_notMem h]
  simp [hempty, hdot]

namespace Program

/-- A square, as a region file describes it. -/
def squareDocument : Document :=
  .mapping [("rectangles", .list [.list [.int 0, .int 0, .int 10, .int 10]])]

/-- The entries of a configuration whose strategy there is not. Log lines are the messages. -/
def barrierEntries : List (String × Document) :=
  [("constraint", .mapping [("backend", .text "barrier")]),
    ("logging", .mapping [("format", .text "")])]

/-- What is configured. -/
def barrierConfig : Config :=
  ⟨{ Config.default.constraint with backend := .text "barrier" },
    { Config.default.logging with format := .text "" }⟩

/-- The configuration and the square, in the working directory. -/
def barrierFiles : Files :=
  ⟨"/work", "/home", [(⟨.working, ⟨"", ["config.yml"]⟩⟩, .mapping barrierEntries),
    (⟨.working, ⟨"", ["square.yml"]⟩⟩, squareDocument)], []⟩

/-- The arguments that ask for a motion out of the square. -/
def barrierArguments : List String :=
  ["--config", "config.yml", "confine", "square.yml", "5", "5", "20", "5"]

/-- Whether arguments are read as those. -/
def asksBarrier : Except Stop (Choices × Command) → Bool
  | .ok (⟨some (.value config), none, none, none, none, flags⟩,
      .confine name ⟨.real x, .real y⟩ ⟨.real askedX, .real askedY⟩) =>
    decide (config = "config.yml" ∧ flags = {} ∧ name = "square.yml" ∧ x = 5 ∧ y = 5 ∧
      askedX = 20 ∧ askedY = 5)
  | _ => false

theorem read?_barrier : Arguments.read? barrierArguments =
    .ok ({ config := some (.value "config.yml") },
      .confine "square.yml" (Point.map .real ⟨5, 5⟩) (Point.map .real ⟨20, 5⟩)) := by
  -- equality of documents is not decidable, so what is read is decided by a test
  have hasks : asksBarrier (Arguments.read? barrierArguments) = true := by decide +kernel
  generalize Arguments.read? barrierArguments = r at hasks
  unfold asksBarrier at hasks
  split at hasks
  · obtain ⟨rfl, rfl, rfl, rfl, rfl, rfl, rfl⟩ := of_decide_eq_true hasks
    rfl
  · cases hasks

theorem loadWith?_barrier :
    Config.loadWith? barrierFiles (some (Path.ofString "config.yml")) {} = .ok barrierConfig := by
  have hread : Config.ofDocument? (.mapping barrierEntries) = .ok barrierConfig := by
    refine Config.ofDocument?_eq_ok_iff.mpr
      ⟨_, _, rfl, rfl, ⟨rfl, rfl, rfl, Config.origin?_zero, ?_, ?_⟩, rfl⟩
    · decide +kernel
    · decide +kernel
  have hheld : Config.HeldAt barrierFiles (some ⟨"", ["config.yml"]⟩) barrierEntries :=
    .given (Files.read?_eq_ok (by decide) (by decide) (by decide) rfl rfl)
  rw [Path.ofString_of_notMem (by decide) (by decide) (by decide)]
  exact Config.loadWith?_eq_ok_iff.mpr
    ⟨barrierEntries, barrierConfig, hheld, hread, rfl, rfl, rfl, rfl, rfl⟩

theorem setUp_barrier :
    Logger.setUp barrierFiles barrierConfig.logging = (none, .ok ⟨20, "", false⟩) := by
  have hlogging : barrierConfig.logging = ⟨.text "INFO", .null, .text ""⟩ := rfl
  have hlevel : Logger.level? (.text "INFO") = .ok 20 := rfl
  have hversion : Logger.withVersion "" = "" := by
    unfold Logger.withVersion
    rw [splitOn_of_notMem (by decide)]
    rfl
  have htemplate : Logger.template? (.text "") = .ok "" := by
    show (if Template.isValid (Logger.withVersion "") then _ else _) = _
    rw [hversion]
    rfl
  unfold Logger.setUp
  rw [hlogging]
  simp only [hlevel, htemplate]
  rfl

/-- The box of the square, as it is read from the file. -/
def squareBox : Box Figure :=
  ⟨⟨.int 0, none⟩, ⟨.int 0, none⟩, ⟨.int 10, some 0⟩, ⟨.int 10, some 1⟩, by decide, by decide⟩

theorem bandBoxes?_squareBox : bandBoxes? [squareBox] = .ok [squareBox] := by
  have hedges : horizontalEdges [squareBox] = [squareBox.top, squareBox.bottom] := by
    show List.mergeSort [squareBox.top, squareBox.bottom] _ = _
    exact List.mergeSort_of_pairwise (by decide)
  have hcovered :
      coveredAt [squareBox] squareBox.top = [⟨squareBox.left, squareBox.right⟩] := by
    show Span.union [⟨squareBox.left, squareBox.right⟩] = _
    unfold Span.union
    rw [Sorting.sort_singleton]
    rfl
  have hbands : bandsOf [squareBox] =
      [⟨squareBox.top, squareBox.bottom, [⟨squareBox.left, squareBox.right⟩]⟩] := by
    unfold bandsOf byTop
    rw [Sorting.sort_singleton, hedges]
    simp only [slabs, hcovered]
    rfl
  unfold bandBoxes?
  rw [hbands]
  rfl

/-- The square. -/
def square : Region Document :=
  ⟨[⟨.int 0, .int 0, .int 10, .int 10, by decide, by decide⟩]⟩

theorem load?_square :
    RegionFile.load? barrierFiles (Path.ofString "square.yml") = .ok square := by
  have hdocument : barrierFiles.read? ⟨"", ["square.yml"]⟩ = .ok squareDocument :=
    Files.read?_eq_ok (by decide) (by decide) (by decide) rfl rfl
  have hread : RegionFile.read? barrierFiles ⟨"", ["square.yml"]⟩ = .ok (.rectangles
      [⟨⟨.int 0, none⟩, ⟨.int 0, none⟩, ⟨.int 10, some 0⟩, ⟨.int 10, some 1⟩⟩]) := by
    unfold RegionFile.read? Config.readMapping?
    rw [hdocument]
    rfl
  have hregion : Region.ofUnordered? [squareBox] = .ok ⟨[squareBox]⟩ := by
    unfold Region.ofUnordered?
    rw [bandBoxes?_squareBox]
  rw [Path.ofString_of_notMem (by decide) (by decide) (by decide)]
  unfold RegionFile.load?
  rw [hread]
  show Figure.plain <$> (Region.ofUnordered? [squareBox]).mapError RegionFileError.region = _
  rw [hregion]
  rfl

/-- Its borders. -/
def squareOutline : Outline Document :=
  [.horizontal (.int 0) (.int 10) (.int 0) .up, .vertical (.int 0) (.int 0) (.int 10) .left,
    .vertical (.int 10) (.int 0) (.int 10) .right, .horizontal (.int 0) (.int 10) (.int 10) .down]

theorem stops_square : squareOutline.Stops barrierConfig.constraint (Point.map .real ⟨5, 5⟩)
    (Point.map .real ⟨20, 5⟩) := by
  let ends := squareOutline.confine barrierConfig.constraint.place (Point.map .real ⟨5, 5⟩)
    (Point.map .real ⟨20, 5⟩) (.real barrierConfig.constraint.margin)
    (.real barrierConfig.constraint.step)
  have hstops : (ends.toOption.any fun confined =>
      confined.stoppedBy.all fun b => (Listing.border b).isOk) = true := by
    decide +kernel
  change ∃ confined, ends = .ok confined ∧ _
  cases hends : ends with
  | error e => rw [hends] at hstops; cases hstops
  | ok confined =>
    rw [hends] at hstops
    refine ⟨confined, rfl, fun b hb => ?_⟩
    have hlisted := List.all_eq_true.mp hstops b hb
    cases hline : Listing.border b with
    | error e => rw [hline] at hlisted; cases hlisted
    | ok line => exact ⟨line, rfl⟩

/-- A motion out of the square is confined, though no constraint has the strategy. -/
theorem not_agrees_barrier : ¬(run barrierFiles none { stamp := "" } barrierArguments).Agrees
    barrierFiles barrierConfig.constraint "square.yml" (Point.map .real ⟨5, 5⟩)
    (Point.map .real ⟨20, 5⟩) := by
  intro hagrees
  have houtline : Outline.ofRegion? square = .ok squareOutline := rfl
  obtain ⟨name, hname, hnative⟩ :=
    ((agrees_iff none _ read?_barrier loadWith?_barrier setUp_barrier).mp hagrees square
      squareOutline load?_square houtline).mpr stops_square
  cases hname
  revert hnative
  decide

end Program

end Confinement
