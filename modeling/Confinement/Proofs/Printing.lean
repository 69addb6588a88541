import Confinement.Command.Run
import Confinement.Proofs.Exact

/-!
# What a command prints

Work is judged by its outcome and by the lines it prints, whatever has been done before
(`Work.Prints`). Lines of work that goes on from an answer come behind those before it
(`Work.Prints.bind`), and after a failure there are no more (`Work.Prints.bind_error`).

So reading a region and extracting its outline print nothing, and a motion that is confined is told
by its position and the borders that stop it (`Listing.confined`). The program that is asked to
confine one succeeds with these lines or not at all (`Program.exit_confine_iff`). Whatever strategy
is configured, it has no part in this.
-/

namespace Confinement

namespace Work

variable {ε α β : Type} {w : Work α} {f : α → Work β} {lines more : List String}

/-! ## Outcomes and lines -/

/-- Whether some work has an outcome and prints lines on the way, whatever was done before. -/
def Prints (w : Work α) (outcome : Except Fault α) (lines : List String) : Prop :=
  ∀ earlier, (w.run.run earlier).1 = outcome ∧
    Report.printed (w.run.run earlier).2 = Report.printed earlier ++ lines

theorem printed_append (events later : List Event) :
    Report.printed (events ++ later) = Report.printed events ++ Report.printed later :=
  List.filterMap_append

theorem prints_pure (a : α) : Prints (pure a) (.ok a) [] :=
  fun _ => ⟨rfl, (List.append_nil _).symm⟩

theorem prints_emit (e : Event) : Prints (emit e) (.ok ()) (Report.printed [e]) :=
  fun earlier => ⟨rfl, printed_append earlier [e]⟩

theorem prints_print (line : String) : Prints (print line) (.ok ()) [line] :=
  prints_emit _

theorem prints_log (level : Int) (site : LogSite) (message : String) :
    Prints (log level site message) (.ok ()) [] :=
  prints_emit _

theorem prints_ofExcept (fault : ε → Fault) (x : Except ε α) :
    Prints (ofExcept fault x) (x.mapError fault) [] := by
  cases x with
  | error e => exact fun _ => ⟨rfl, (List.append_nil _).symm⟩
  | ok a => exact fun _ => ⟨rfl, (List.append_nil _).symm⟩

theorem run_bind (w : Work α) (f : α → Work β) (earlier : List Event) :
    (w >>= f).run.run earlier =
      match w.run.run earlier with
      | (.ok a, later) => (f a).run.run later
      | (.error e, later) => (.error e, later) := by
  show (ExceptT.bindCont f (w.run.run earlier).1).run (w.run.run earlier).2 = _
  generalize w.run.run earlier = r
  obtain ⟨_ | _, later⟩ := r <;> rfl

/-- What goes on after an answer prints its lines behind those before. -/
theorem Prints.bind {a : α} {outcome : Except Fault β} (hw : Prints w (.ok a) lines)
    (hf : Prints (f a) outcome more) : Prints (w >>= f) outcome (lines ++ more) := by
  intro earlier
  obtain ⟨hanswer, hprinted⟩ := hw earlier
  rw [run_bind]
  generalize w.run.run earlier = r at hanswer hprinted
  obtain ⟨_, later⟩ := r
  cases hanswer
  obtain ⟨houtcome, hmore⟩ := hf later
  exact ⟨houtcome, by rw [hmore, hprinted, List.append_assoc]⟩

/-- Work that prints nothing leaves all lines to what goes on after it. -/
theorem Prints.bind_silent {a : α} {outcome : Except Fault β} (hw : Prints w (.ok a) [])
    (hf : Prints (f a) outcome lines) : Prints (w >>= f) outcome lines :=
  hw.bind hf

/-- Nothing goes on after a failure. -/
theorem Prints.bind_error {e : Fault} (hw : Prints w (.error e) lines) :
    Prints (w >>= f) (.error e) lines := by
  intro earlier
  obtain ⟨hfault, hprinted⟩ := hw earlier
  rw [run_bind]
  generalize w.run.run earlier = r at hfault hprinted
  obtain ⟨_, later⟩ := r
  cases hfault
  exact ⟨rfl, hprinted⟩

/-- Work that prints nothing at any step has the outcome of its steps one after another. -/
theorem Prints.bind_answer {x : Except Fault α} {g : α → Except Fault β} (hw : Prints w x [])
    (hf : ∀ a, Prints (f a) (g a) []) : Prints (w >>= f) (x >>= g) [] := by
  cases x with
  | error e => exact hw.bind_error
  | ok a => exact hw.bind_silent (hf a)

/-- Work that starts with an answer goes on from it. -/
theorem Prints.ofExcept_bind {fault : ε → Fault} {x : Except ε α} {a : α} (hx : x = .ok a)
    {outcome : Except Fault β} (hf : Prints (f a) outcome lines) :
    Prints (ofExcept fault x >>= f) outcome lines := by
  subst hx
  exact (prints_ofExcept fault (.ok a)).bind_silent hf

/-- Work that starts with a failure ends with it. -/
theorem prints_ofExcept_bind_error {fault : ε → Fault} {x : Except ε α} {e : ε}
    (hx : x = .error e) : Prints (ofExcept fault x >>= f) (.error (fault e)) [] := by
  subst hx
  exact (prints_ofExcept fault (.error e)).bind_error

end Work

/-! ## Regions and outlines -/

namespace Command

open Work

/-- Reading a region file prints nothing. -/
theorem prints_loadRegion (files : Files) (name : String) :
    Prints (loadRegion files name)
      ((RegionFile.load? files (Path.ofString name)).mapError .region) [] := by
  unfold loadRegion RegionFile.load?
  cases hread : RegionFile.read? files (Path.ofString name) with
  | error e => exact prints_ofExcept_bind_error rfl
  | ok source =>
    refine Prints.ofExcept_bind rfl ?_
    show Prints _ (source.region?.mapError Fault.region) []
    cases hregion : source.region? with
    | error e => exact prints_ofExcept_bind_error rfl
    | ok region =>
      refine Prints.ofExcept_bind rfl ?_
      cases source with
      | boxes boxes => exact (prints_log _ _ _).bind_silent (prints_pure region)
      | rectangles rectangles => exact prints_pure region

/-- Extracting an outline prints nothing. -/
theorem prints_extract (region : Region Document) :
    Prints (extract region) ((Outline.ofRegion? region).mapError .outline) [] := by
  unfold extract
  cases houtline : Outline.ofRegion? region with
  | error e => exact prints_ofExcept_bind_error rfl
  | ok outline =>
    refine Prints.ofExcept_bind rfl (Prints.bind_silent (a := ()) ?_ (prints_pure outline))
    unfold logOutline
    split
    · exact prints_log _ _ _
    · exact prints_pure ()

/-! ## Borders -/

/-- All borders are printed, each with something in front, if all can be listed. -/
theorem prints_forM_printBorder (before : String) {borders : List (Border Document)}
    {lines : List String} (h : borders.mapM Listing.border = .ok lines) :
    Prints (borders.forM (printBorder before)) (.ok ()) (lines.map (before ++ ·)) := by
  rw [mapM_eq_ok_iff] at h
  induction h with
  | nil => exact prints_pure ()
  | @cons b line rest lines hb _ ih =>
    have hfirst : Prints (printBorder before b) (.ok ()) [before ++ line] :=
      Prints.ofExcept_bind hb (prints_print _)
    exact hfirst.bind ih

/-- Printing borders fails at the first that cannot be listed, with those before it printed. -/
theorem exists_prints_forM_printBorder (before : String) {borders : List (Border Document)}
    {e : Document.AccessError} (h : borders.mapM Listing.border = .error e) :
    ∃ lines, Prints (borders.forM (printBorder before)) (.error (.listing e)) lines := by
  induction borders with
  | nil => cases h
  | cons b rest ih =>
    rw [List.mapM_cons] at h
    cases hb : Listing.border b with
    | error e' =>
      rw [hb] at h
      cases h
      exact ⟨[], (prints_ofExcept_bind_error hb).bind_error⟩
    | ok line =>
      cases hrest : rest.mapM Listing.border with
      | ok lines => rw [hb, hrest] at h; cases h
      | error e' =>
        rw [hb, hrest] at h
        cases h
        obtain ⟨lines, hlines⟩ := ih hrest
        have hfirst : Prints (printBorder before b) (.ok ()) [before ++ line] :=
          Prints.ofExcept_bind hb (prints_print _)
        exact ⟨[before ++ line] ++ lines, hfirst.bind hlines⟩

/-- The end of a motion and the borders that stop it, one in a line. -/
def listConfined (confined : Confined Document) : Work Unit := do
  print (← ofExcept .listing (Listing.point confined.position))
  confined.stoppedBy.forM (printBorder "  clamped by ")

end Command

/-! ## Motions -/

/-- The lines that tell where a motion ends and what stops it. -/
def Listing.confined (c : Confined Document) : Except Document.AccessError (List String) := do
  let position ← point c.position
  let borders ← c.stoppedBy.mapM border
  return position :: borders.map ("  clamped by " ++ ·)

theorem Listing.confined_eq_ok_iff {c : Confined Document} {lines : List String} :
    Listing.confined c = .ok lines ↔ ∃ position borders, point c.position = .ok position ∧
      c.stoppedBy.mapM border = .ok borders ∧
      lines = position :: borders.map ("  clamped by " ++ ·) := by
  unfold confined
  simp only [bind_eq_ok_iff, pure, Except.pure, Except.ok.injEq, @eq_comm _ lines]
  constructor
  · rintro ⟨position, hposition, borders, hborders, h⟩
    exact ⟨position, borders, hposition, hborders, h⟩
  · rintro ⟨position, borders, hposition, hborders, h⟩
    exact ⟨position, hposition, borders, hborders, h⟩

/-- Where a motion ends in the region of a file, with the origin, the margin and the step of the
settings. Their strategy is not looked at. -/
def ConstraintSettings.confine? (s : ConstraintSettings) (files : Files) (name : String)
    (before asked : Point Document) : Except Fault (Confined Document) := do
  let region ← (RegionFile.load? files (Path.ofString name)).mapError .region
  let outline ← (Outline.ofRegion? region).mapError .outline
  (outline.confine s.place before asked (.real s.margin) (.real s.step)).mapError .arithmetic

theorem ConstraintSettings.confine?_eq_ok_iff {s : ConstraintSettings} {files : Files}
    {name : String} {before asked : Point Document} {confined : Confined Document} :
    s.confine? files name before asked = .ok confined ↔
      ∃ region outline, RegionFile.load? files (Path.ofString name) = .ok region ∧
        Outline.ofRegion? region = .ok outline ∧
        outline.confine s.place before asked (.real s.margin) (.real s.step) = .ok confined := by
  unfold confine?
  simp only [bind_eq_ok_iff, mapError_eq_ok_iff]
  constructor
  · rintro ⟨region, hregion, outline, houtline, h⟩
    exact ⟨region, outline, hregion, houtline, h⟩
  · rintro ⟨region, outline, hregion, houtline, h⟩
    exact ⟨region, hregion, outline, houtline, h⟩

namespace Command

open Work

theorem prints_listConfined {confined : Confined Document} {lines : List String}
    (h : Listing.confined confined = .ok lines) :
    Prints (listConfined confined) (.ok ()) lines := by
  obtain ⟨position, borders, hposition, hborders, rfl⟩ := Listing.confined_eq_ok_iff.mp h
  exact Prints.ofExcept_bind hposition
    ((prints_print position).bind (prints_forM_printBorder _ hborders))

theorem exists_prints_listConfined {confined : Confined Document} {e : Document.AccessError}
    (h : Listing.confined confined = .error e) :
    ∃ lines, Prints (listConfined confined) (.error (.listing e)) lines := by
  unfold Listing.confined at h
  unfold listConfined
  cases hposition : Listing.point confined.position with
  | error e' =>
    rw [hposition] at h
    cases h
    exact ⟨[], prints_ofExcept_bind_error rfl⟩
  | ok position =>
    cases hborders : confined.stoppedBy.mapM Listing.border with
    | ok borders => rw [hposition, hborders] at h; cases h
    | error e' =>
      rw [hposition, hborders] at h
      cases h
      -- the position is printed before a border is looked at
      obtain ⟨lines, hlines⟩ := exists_prints_forM_printBorder "  clamped by " hborders
      exact ⟨_, Prints.ofExcept_bind rfl ((prints_print position).bind hlines)⟩

variable {files : Files} {s : ConstraintSettings} {name : String} {before asked : Point Document}

/-- A motion in the region of a file, confined. -/
def traceConfined (files : Files) (s : ConstraintSettings) (name : String)
    (before asked : Point Document) : Work (Confined Document) := do
  let region ← loadRegion files name
  let outline ← extract region
  ofExcept .arithmetic (outline.confine s.place before asked (.real s.margin) (.real s.step))

/-- Logs that a motion has been stopped, if it has, and lists it. -/
def reportConfined (before asked : Point Document) (confined : Confined Document) : Work Unit := do
  let count := confined.stoppedBy.length
  if count ≠ 0 then
    log Level.debug .motion
      s!"Motion {before.text} -> {asked.text} clamped by {count} border(s)"
  listConfined confined

theorem runConfine_eq : runConfine files s name before asked =
    traceConfined files s name before asked >>= reportConfined before asked := by
  unfold traceConfined
  simp only [bind_assoc]
  rfl

/-- Confining a motion prints nothing. -/
theorem prints_traceConfined : Prints (traceConfined files s name before asked)
    (s.confine? files name before asked) [] :=
  (prints_loadRegion files name).bind_answer fun region =>
    (prints_extract region).bind_answer fun _ => prints_ofExcept _ _

theorem prints_reportConfined {confined : Confined Document} {outcome : Except Fault Unit}
    {lines : List String} (h : Prints (listConfined confined) outcome lines) :
    Prints (reportConfined before asked confined) outcome lines := by
  show Prints (if confined.stoppedBy.length ≠ 0 then log _ _ _ >>= fun _ => listConfined confined
    else listConfined confined) outcome lines
  split
  · exact (prints_log _ _ _).bind_silent h
  · exact h

/-- What the command prints is the listing of the confined motion, if there is one. -/
theorem prints_runConfine {confined : Confined Document} {outcome : Except Fault Unit}
    {lines : List String} (h : s.confine? files name before asked = .ok confined)
    (hlist : Prints (listConfined confined) outcome lines) :
    Prints (runConfine files s name before asked) outcome lines := by
  have htrace := @prints_traceConfined files s name before asked
  rw [h] at htrace
  rw [runConfine_eq]
  exact htrace.bind_silent (prints_reportConfined hlist)

/-- Without one the command fails for the same reason, and prints nothing. -/
theorem prints_runConfine_error {e : Fault} (h : s.confine? files name before asked = .error e) :
    Prints (runConfine files s name before asked) (.error e) [] := by
  have htrace := @prints_traceConfined files s name before asked
  rw [h] at htrace
  rw [runConfine_eq]
  exact htrace.bind_error

end Command

/-! ## The program -/

namespace Program

variable {files : Files} {c : Config} {command : Command} {file : Option Path} {logger : Logger}
  (pointer : Option (Point Int)) (moment : LogMoment)

/-- A run succeeds if and only if its command does, and its output is what that one prints. -/
theorem runConfigured_of_prints (hlog : Logger.setUp files c.logging = (file, .ok logger))
    {outcome : Except Fault Unit} {lines : List String}
    (h : Work.Prints (command.run (file.elim files files.touch) pointer c.constraint) outcome
      lines) :
    ((runConfigured files pointer moment c command).exit = 0 ↔ outcome = .ok ()) ∧
      (runConfigured files pointer moment c command).output = lines := by
  obtain ⟨houtcome, hprinted⟩ := h []
  unfold runConfigured
  rw [hlog]
  dsimp only
  generalize (command.run (file.elim files files.touch) pointer c.constraint).run.run [] = r
    at houtcome hprinted
  obtain ⟨result, events⟩ := r
  refine ⟨?_, hprinted⟩
  rw [← houtcome]
  cases result with
  | error e => simp
  | ok u => simp

/-- The program that is asked to confine a motion succeeds with some lines if and only if the motion
has an end and these are the lines that tell it. The strategy that is configured does not matter. -/
theorem exit_confine_iff {arguments : List String} {choices : Choices} {name : String}
    {before asked : Point Document}
    (hread : Arguments.read? arguments = .ok (choices, .confine name before asked))
    (hload : Config.loadWith? files choices.path? choices.overrides = .ok c)
    (hlog : Logger.setUp files c.logging = (file, .ok logger)) (lines : List String) :
    (run files pointer moment arguments).exit = 0 ∧
        (run files pointer moment arguments).output = lines ↔
      ∃ confined,
        c.constraint.confine? (file.elim files files.touch) name before asked = .ok confined ∧
          Listing.confined confined = .ok lines := by
  have hrun : run files pointer moment arguments =
      runConfigured files pointer moment c (.confine name before asked) := by
    simp only [run, hread, hload]
  have hprints {outcome : Except Fault Unit} {lines : List String}
      (h : Work.Prints (Command.run (file.elim files files.touch) pointer c.constraint
        (.confine name before asked)) outcome lines) :=
    runConfigured_of_prints pointer moment hlog h
  rw [hrun]
  cases hconfined : c.constraint.confine? (file.elim files files.touch) name before asked with
  | error e =>
    rw [(hprints (Command.prints_runConfine_error hconfined)).1]
    simp
  | ok confined =>
    cases hlines : Listing.confined confined with
    | error e =>
      obtain ⟨printed, hlist⟩ := Command.exists_prints_listConfined hlines
      rw [(hprints (Command.prints_runConfine hconfined hlist)).1]
      simp [hlines]
    | ok told =>
      obtain ⟨hexit, houtput⟩ :=
        hprints (Command.prints_runConfine hconfined (Command.prints_listConfined hlines))
      rw [hexit, houtput]
      simp [hlines]

end Program

end Confinement
