import Confinement.Proofs.Closures

/-!
# Unbroken outlines

No border of an outline goes on where another one with the same blocking ends
(`Outline.Unbroken`, `Outline.exists_unbroken`).

What the walk along the rows puts out is tidy (`Tidy`) : sides come from top to bottom, and no
horizontal border continues another. In a row that is because its boxes have gaps between them,
and along a seam because the sweep joins edges that touch (`Seam.Swept.apart_kept`). Two parts of
the walk share no line, so nothing continues across them (`Tidy.append`). Joining the sides then
leaves none that continues another (`Run.not_continues_join?`).
-/

namespace Confinement

/-- Whether no border goes on where another ends with the same blocking. -/
def Outline.Unbroken (outline : Outline Int) : Prop :=
  ∀ b ∈ outline, ∀ c ∈ outline, ¬c.Continues b

/-- Borders of which the vertical ones come from top to bottom, and no horizontal one continues
another. -/
structure Tidy (borders : List (Border Int)) : Prop where
  sorted : borders.Pairwise fun b c => b.Upright → c.Upright → b.line.start.y ≤ c.line.start.y
  apart : ∀ b ∈ borders, ∀ c ∈ borders, b.isHorizontal = true → c.isHorizontal = true →
    ¬c.Continues b

namespace Tidy

variable {borders more : List (Border Int)}

/-- Horizontal borders have no order to keep. -/
theorem of_horizontal (h : ∀ b ∈ borders, b.isHorizontal = true)
    (happart : ∀ b ∈ borders, ∀ c ∈ borders, ¬c.Continues b) : Tidy borders := by
  refine ⟨List.pairwise_of_forall_mem_list fun b hb c _ hup => ?_, fun b hb c hc _ _ =>
    happart b hb c hc⟩
  have := h b hb
  rw [hup.not_isHorizontal] at this
  cases this

/-- Vertical borders that start in one row are in order. -/
theorem of_upright {row : Int} (h : ∀ b ∈ borders, b.Upright ∧ b.line.start.y = row) :
    Tidy borders := by
  refine ⟨List.pairwise_of_forall_mem_list fun b hb c hc _ _ => ?_, fun b hb c _ hb' => ?_⟩
  · rw [(h b hb).2, (h c hc).2]
  · rw [(h b hb).1.not_isHorizontal] at hb'
    cases hb'

/-- Vertical borders may follow horizontal ones. -/
theorem append_upright (h : Tidy borders) (h' : Tidy more)
    (hborders : ∀ b ∈ borders, b.isHorizontal = true) (hmore : ∀ b ∈ more, b.Upright) :
    Tidy (borders ++ more) := by
  refine ⟨List.pairwise_append.mpr ⟨h.sorted, h'.sorted, fun b hb c _ hup => ?_⟩,
    fun b hb c hc hb' hc' => ?_⟩
  · have := hborders b hb
    rw [hup.not_isHorizontal] at this
    cases this
  · have hmem : ∀ a ∈ borders ++ more, a.isHorizontal = true → a ∈ borders := by
      intro a ha ha'
      refine (List.mem_append.mp ha).resolve_right fun ha => ?_
      rw [(hmore a ha).not_isHorizontal] at ha'
      cases ha'
    exact h.apart b (hmem b hb hb') c (hmem c hc hc') hb' hc'

/-- What starts above a line may be followed by what starts below it. -/
theorem append (h : Tidy borders) (h' : Tidy more) (line : Int)
    (habove : ∀ b ∈ borders, b.line.start.y < line) (hbelow : ∀ b ∈ more, line ≤ b.line.start.y) :
    Tidy (borders ++ more) := by
  refine ⟨List.pairwise_append.mpr ⟨h.sorted, h'.sorted, fun b hb c hc _ _ => ?_⟩,
    fun b hb c hc hb' hc' hcontinues => ?_⟩
  · exact (habove b hb).le.trans (hbelow c hc)
  · have hline : b.line.start.y = c.line.start.y :=
      (beq_iff_eq.mp hb').trans (congrArg Point.y hcontinues.1)
    rcases List.mem_append.mp hb with hb | hb <;> rcases List.mem_append.mp hc with hc | hc
    · exact h.apart b hb c hc hb' hc' hcontinues
    · have := habove b hb
      have := hbelow c hc
      omega
    · have := hbelow b hb
      have := habove c hc
      omega
    · exact h'.apart b hb c hc hb' hc' hcontinues

end Tidy

/-! ## Horizontal borders -/

namespace Border

/-- Horizontal borders lie across the y axis. -/
theorem axis_eq_y_iff {b : Border Int} : b.axis = .y ↔ b.isHorizontal = true := by
  unfold axis
  split
  · rename_i hhorizontal
    exact iff_of_true rfl hhorizontal
  · rename_i hvertical
    exact iff_of_false (by decide) hvertical

theorem isHorizontal_horizontal (left right y : Int) (d : Direction) :
    (horizontal left right y d).isHorizontal = true :=
  beq_self_eq_true y

end Border

/-! ## Rows and seams -/

namespace Row.Fits

variable {row : Row Int} {band : Band Int}

/-- Borders along the boxes of a row do not continue each other, as there are gaps between
boxes. -/
theorem tidy_map (h : Row.Fits row band) (hb : band.Sound) (line : Int) (d : Direction) :
    Tidy (row.map fun b => Border.horizontal b.left b.right line d) := by
  have hmem : ∀ b ∈ row, b.columns ∈ band.spans := fun b hb' =>
    h.columns ▸ List.mem_map_of_mem hb'
  refine Tidy.of_horizontal (fun b hb' => ?_) fun b hb' c hc hcontinues => ?_
  · obtain ⟨box, -, rfl⟩ := List.mem_map.mp hb'
    exact Border.isHorizontal_horizontal _ _ _ _
  · obtain ⟨box, hbox, rfl⟩ := List.mem_map.mp hb'
    obtain ⟨other, hother, rfl⟩ := List.mem_map.mp hc
    have htouch : box.columns.right = other.columns.left := congrArg Point.x hcontinues.1
    have hbox' := hb.separated.left_lt_right _ (hmem box hbox)
    have hother' := hb.separated.left_lt_right _ (hmem other hother)
    rcases hb.separated.eq_or_gap (hmem box hbox) (hmem other hother) with heq | hgap | hgap
    · rw [← heq] at htouch
      omega
    · omega
    · omega

theorem upright_sides (h : Row.Fits row band) :
    ∀ b ∈ row.sides, b.Upright ∧ b.line.start.y = band.top := by
  intro b hb
  refine ⟨Row.upright_sides b hb, ?_⟩
  rw [h.sides_eq] at hb
  obtain ⟨box, -, hb⟩ := List.mem_flatMap.mp hb
  simp only [List.mem_cons, List.not_mem_nil, or_false] at hb
  rcases hb with rfl | rfl
  · rfl
  · rfl

theorem horizontal_tops (h : Row.Fits row band) :
    ∀ b ∈ row.tops, b.isHorizontal = true ∧ b.line.start.y = band.top := by
  intro b hb
  rw [h.tops_eq] at hb
  obtain ⟨box, -, rfl⟩ := List.mem_map.mp hb
  exact ⟨Border.isHorizontal_horizontal _ _ _ _, rfl⟩

theorem horizontal_bottoms (h : Row.Fits row band) :
    ∀ b ∈ row.bottoms, b.isHorizontal = true ∧ b.line.start.y = band.bottom := by
  intro b hb
  rw [h.bottoms_eq] at hb
  obtain ⟨box, -, rfl⟩ := List.mem_map.mp hb
  exact ⟨Border.isHorizontal_horizontal _ _ _ _, rfl⟩

end Row.Fits

/-- Edges that a sweep keeps and that touch block opposite ways. -/
theorem Seam.Swept.apart_kept {kept front : List (Seam.Edge Int)} (h : Seam.Swept kept front)
    {k j : Seam.Edge Int} (hk : k ∈ kept) (hj : j ∈ kept) (htouch : k.right = j.left) :
    k.blocked ≠ j.blocked := by
  have hlt := (h.kept_sound k hk).left_lt_right
  have hlt' := (h.kept_sound j hj).left_lt_right
  rcases eq_or_rel_of_pairwise h.kept_order hk hj with rfl | ⟨hle, -⟩ | ⟨-, hblocked⟩
  · omega
  · omega
  · exact hblocked htouch

/-- The borders of a seam are tidy. -/
theorem Seam.Swept.tidy {kept front : List (Seam.Edge Int)} (h : Seam.Swept kept front)
    (row : Int) : Tidy (kept.map (Seam.Edge.border row)).reverse := by
  refine Tidy.of_horizontal (fun b hb => ?_) fun b hb c hc hcontinues => ?_
  · obtain ⟨k, -, rfl⟩ := List.mem_map.mp (List.mem_reverse.mp hb)
    exact Border.isHorizontal_horizontal _ _ _ _
  · obtain ⟨k, hk, rfl⟩ := List.mem_map.mp (List.mem_reverse.mp hb)
    obtain ⟨j, hj, rfl⟩ := List.mem_map.mp (List.mem_reverse.mp hc)
    exact h.apart_kept hk hj (congrArg Point.x hcontinues.1)
      (Directions.only_injective hcontinues.2)

namespace Outline

variable {above row : Row Int} {band next : Band Int}

/-- Between two rows, the upper of which ends first, lie tidy horizontal borders, on the line
where the upper row ends and on that where the lower one begins. -/
theorem tidy_between? (habove : Row.Fits above band) (hrow : Row.Fits row next)
    (hb : band.Sound) (hn : next.Sound) (hle : band.bottom ≤ next.top) :
    ∃ borders, between? above row = .ok borders ∧ Tidy borders ∧
      ∀ b ∈ borders, b.isHorizontal = true ∧
        (b.line.start.y = band.bottom ∨ b.line.start.y = next.top) := by
  by_cases htouch : next.top = band.bottom
  · obtain ⟨kept, hbetween, hkept, -⟩ := exists_between?_of_touch habove hrow hb hn htouch
    refine ⟨_, hbetween, hkept.tidy band.bottom, fun b hb => ?_⟩
    obtain ⟨k, -, rfl⟩ := List.mem_map.mp (List.mem_reverse.mp hb)
    exact ⟨Border.isHorizontal_horizontal _ _ _ _, Or.inl rfl⟩
  · have hbottoms := habove.horizontal_bottoms
    have htops := hrow.horizontal_tops
    refine ⟨_, between?_of_gap habove hrow hb hn htouch, ?_, fun b hb => ?_⟩
    · have hupper := habove.tidy_map hb band.bottom .down
      have hlower := hrow.tidy_map hn next.top .up
      rw [← habove.bottoms_eq] at hupper
      rw [← hrow.tops_eq] at hlower
      refine hupper.append hlower next.top (fun b hb => ?_) fun b hb => ?_
      · rw [(hbottoms b hb).2]
        omega
      · exact (htops b hb).2.ge
    · rcases List.mem_append.mp hb with hb | hb
      · exact ⟨(hbottoms b hb).1, Or.inl (hbottoms b hb).2⟩
      · exact ⟨(htops b hb).1, Or.inr (htops b hb).2⟩

/-- Under a row lie tidy borders, none of which starts above its bottom. -/
theorem tidy_under? {rows : List (Row Int)} {bands : List (Band Int)}
    (habove : Row.Fits above band) (hrows : List.Forall₂ Row.Fits rows bands)
    (h : Band.Layered (band :: bands)) :
    ∃ borders, under? above rows = .ok borders ∧ Tidy borders ∧
      ∀ b ∈ borders, band.bottom ≤ b.line.start.y := by
  induction hrows generalizing above band with
  | nil =>
    have htidy := habove.tidy_map h.head band.bottom .down
    rw [← habove.bottoms_eq] at htidy
    exact ⟨above.bottoms, under?_nil above, htidy,
      fun b hb => (habove.horizontal_bottoms b hb).2.ge⟩
  | @cons row next rows bands hrow _ ih =>
    have hle := h.bottom_le List.mem_cons_self
    have hnext := h.tail.head.top_lt_bottom
    have hsides := hrow.upright_sides
    obtain ⟨between, hbetween, htidy, hlines⟩ :=
      tidy_between? habove hrow h.head h.tail.head hle
    obtain ⟨below, hbelow, htidy', hlines'⟩ := ih hrow h.tail
    refine ⟨_, under?_cons hbetween hbelow, ?_, fun b hb => ?_⟩
    · refine (htidy.append_upright (Tidy.of_upright hsides) (fun b hb => (hlines b hb).1)
        fun b hb => (hsides b hb).1).append htidy' next.bottom (fun b hb => ?_) hlines'
      rcases List.mem_append.mp hb with hb | hb
      · have := (hlines b hb).2
        omega
      · rw [(hsides b hb).2]
        exact hnext
    · rcases List.mem_append.mp hb with hb | hb
      · rcases List.mem_append.mp hb with hb | hb
        · have := (hlines b hb).2
          omega
        · rw [(hsides b hb).2]
          exact hle
      · have := hlines' b hb
        omega

/-- Rows have tidy borders. -/
theorem tidy_ofRows? {rows : List (Row Int)} {bands : List (Band Int)}
    (hrows : List.Forall₂ Row.Fits rows bands) (h : Band.Layered bands) :
    ∃ borders, ofRows? rows = .ok borders ∧ Tidy borders := by
  cases hrows with
  | nil => exact ⟨[], rfl, by simp, by simp⟩
  | @cons row band rows bands hrow hrows =>
    obtain ⟨below, hbelow, htidy, hlines⟩ := tidy_under? hrow hrows h
    have htops := hrow.horizontal_tops
    have hsides := hrow.upright_sides
    have hfirst := hrow.tidy_map h.head band.top .up
    rw [← hrow.tops_eq] at hfirst
    refine ⟨_, ofRows?_cons hbelow, (hfirst.append_upright (Tidy.of_upright hsides)
      (fun b hb => (htops b hb).1) fun b hb => (hsides b hb).1).append htidy band.bottom
      (fun b hb => ?_) hlines⟩
    have hline : b.line.start.y = band.top := (List.mem_append.mp hb).elim
      (fun hb => (htops b hb).2) fun hb => (hsides b hb).2
    rw [hline]
    exact h.head.top_lt_bottom

/-! ## Outlines -/

/-- A border of an exact outline blocks one direction, which goes across it. -/
theorem Exact.exists_only {outline : Outline Int} {r : Region Int} (h : Exact outline r)
    {b : Border Int} (hb : b ∈ outline) : ∃ d, b.blocks = .only d ∧ b.axis = d.axis := by
  rcases h.proper b hb with ⟨hy, hx⟩ | ⟨hx, hy⟩
  · have halong : b.AlongTop b.line.start.x b.line.start.y := ⟨rfl, hy.symm, le_rfl, hx⟩
    rcases h.edgeTop hb halong with ⟨hup, -⟩ | ⟨hdown, -⟩
    · exact ⟨.up, hup, halong.axis_eq⟩
    · exact ⟨.down, hdown, halong.axis_eq⟩
  · have halong : b.AlongLeft b.line.start.x b.line.start.y := ⟨rfl, hx.symm, le_rfl, hy⟩
    rcases h.edgeLeft hb halong with ⟨hleft, -⟩ | ⟨hright, -⟩
    · exact ⟨.left, hleft, halong.axis_eq⟩
    · exact ⟨.right, hright, halong.axis_eq⟩

/-- Borders of an exact outline that block the same direction lie along the same axis. -/
theorem Exact.isHorizontal_iff {outline : Outline Int} {r : Region Int} (h : Exact outline r)
    {b c : Border Int} (hb : b ∈ outline) (hc : c ∈ outline) (hblocks : b.blocks = c.blocks) :
    b.isHorizontal = true ↔ c.isHorizontal = true := by
  obtain ⟨d, hd, haxis⟩ := h.exists_only hb
  obtain ⟨e, he, haxis'⟩ := h.exists_only hc
  have hsame : d = e := Directions.only_injective (hd.symm.trans (hblocks.trans he))
  rw [← Border.axis_eq_y_iff, ← Border.axis_eq_y_iff, haxis, haxis', hsame]

/-- A region in banded form has an exact outline of which no border continues another. -/
theorem exists_unbroken {r : Region Int} (h : ∃ rows bands, r.Banded rows bands) :
    ∃ outline, ofRegion? r = .ok outline ∧ Exact outline r ∧ Unbroken outline := by
  obtain ⟨outline, houtline, hexact⟩ := exists_ofRegion? h
  obtain ⟨rows, bands, h⟩ := h
  obtain ⟨borders, hborders, hproper, -, hleft⟩ := exists_ofRows? h.fits h.stacked.toLayered
  obtain ⟨borders', hborders', htidy⟩ := tidy_ofRows? h.fits h.stacked.toLayered
  cases hborders.symm.trans hborders'
  obtain ⟨joined, hjoin, -⟩ := Run.exists_join? hproper
  have hsame : ofRegion? r = .ok joined := by
    simp only [ofRegion?, h.rowsOf_eq, hborders]
    show (Run.join? borders).mapError OutlineError.run = .ok joined
    rw [hjoin]
    rfl
  cases houtline.symm.trans hsame
  have hhorizontals := Run.horizontals_join? hproper hjoin
  have hmem : ∀ b ∈ outline, b.isHorizontal = true → b ∈ borders := fun b hb hb' =>
    List.mem_of_mem_filter (hhorizontals ▸ List.mem_filter.mpr ⟨hb, hb'⟩)
  have honce : ∀ x y blocks, countLeft borders x y blocks ≤ 1 := fun x y blocks => by
    rw [hleft]
    split <;> decide
  refine ⟨outline, houtline, hexact, fun b hb c hc hcontinues => ?_⟩
  have hiff := hexact.isHorizontal_iff hb hc hcontinues.2
  by_cases hb' : b.isHorizontal = true
  · have hc' := hiff.mp hb'
    exact htidy.apart b (hmem b hb hb') c (hmem c hc hc') hb' hc' hcontinues
  · have hc' := mt hiff.mpr hb'
    exact Run.not_continues_join? hproper htidy.sorted honce hjoin b hb c hc
      ((hexact.proper b hb).upright hb') ((hexact.proper c hc).upright hc') hcontinues

end Outline

end Confinement
