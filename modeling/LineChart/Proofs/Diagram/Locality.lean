import Mathlib.Data.List.Forall2
import LineChart.Diagram.Layout

namespace LineChart

variable {α : Type} [Scalar α] [NumberText α]

namespace Diagram

/-! ## Cells compared place by place -/

section Compare

variable {R : Cell α → Cell α → Prop}

omit [Scalar α] [NumberText α] in
theorem forall₂_nextSegment {p p' : Point α} {points points' : List (Point α)} (i : Nat)
    (hp : points.length = points'.length)
    (h : ∀ (q q' : Point α), points.head? = some q → points'.head? = some q' →
      R (segment i p q) (segment i p' q')) :
    List.Forall₂ R (points.head?.map (segment i p)).toList
      (points'.head?.map (segment i p')).toList := by
  cases points with
  | nil =>
    obtain rfl := List.length_eq_zero_iff.mp hp.symm
    exact .nil
  | cons q points =>
    obtain ⟨q', points', rfl⟩ := List.exists_cons_of_length_eq_add_one hp.symm
    exact .cons (h q q' rfl rfl) .nil

/-- The cells of two series are related if segment by segment and marker by marker they are. -/
theorem forall₂_seriesCells {points points' : List (Point α)} {series series' : List α}
    (hp : points.length = points'.length) (hs : series.length = series'.length) (first : Nat)
    (hsegment : ∀ (i : Nat) (_ : i + 1 < points.length), R
      (segment (first + i) points[i] points[i + 1]) (segment (first + i) points'[i] points'[i + 1]))
    (hmarker : ∀ (i : Nat) (_ : i < points.length) (_ : i < series.length),
      R (marker (first + i) points[i] series[i]) (marker (first + i) points'[i] series'[i])) :
    List.Forall₂ R (seriesCells first points series) (seriesCells first points' series') := by
  induction points generalizing points' series series' first with
  | nil =>
    obtain rfl := List.length_eq_zero_iff.mp hp.symm
    simp [seriesCells]
  | cons p points ih =>
    obtain ⟨p', points', rfl⟩ := List.exists_cons_of_length_eq_add_one hp.symm
    cases series with
    | nil =>
      obtain rfl := List.length_eq_zero_iff.mp hs.symm
      simp [seriesCells]
    | cons v series =>
      obtain ⟨v', series', rfl⟩ := List.exists_cons_of_length_eq_add_one hs.symm
      -- what stands behind counts on from the next index
      have hnext : ∀ i, first + 1 + i = first + (i + 1) := fun i => by omega
      have hrest := ih (Nat.succ.inj hp) (Nat.succ.inj hs) (first + 1)
        (fun i h => by
          rw [hnext]
          exact hsegment (i + 1) (Nat.succ_lt_succ h))
        (fun i h h' => by
          rw [hnext]
          exact hmarker (i + 1) (Nat.succ_lt_succ h) (Nat.succ_lt_succ h'))
      have hfirst : List.Forall₂ R (points.head?.map (segment first p)).toList
          (points'.head?.map (segment first p')).toList := by
        apply forall₂_nextSegment first (Nat.succ.inj hp)
        intro q q' hq hq'
        obtain ⟨points, rfl⟩ := List.head?_eq_some_iff.mp hq
        obtain ⟨points', rfl⟩ := List.head?_eq_some_iff.mp hq'
        exact hsegment 0 (by simp)
      rw [seriesCells, seriesCells]
      exact List.rel_append hfirst (.cons (hmarker 0 (by simp) (by simp)) hrest)

omit [NumberText α] in
theorem forall₂_categoryCells {categories categories' : List String} {plot plot' : Plot α}
    (hc : categories.length = categories'.length) (hp : plot.points.length = plot'.points.length)
    (h : ∀ (i : Nat) (_ : i < categories.length) (_ : i < plot.points.length),
      R (categoryCell plot.canvas i categories[i] plot.points[i])
        (categoryCell plot'.canvas i categories'[i] plot'.points[i])) :
    List.Forall₂ R (categoryCells categories plot) (categoryCells categories' plot') := by
  refine List.forall₂_iff_get.mpr ⟨by simp [categoryCells, hc, hp], ?_⟩
  intro i hi hi'
  simp only [categoryCells, List.length_mapIdx, List.length_zip] at hi
  simpa [categoryCells] using h i (by omega) (by omega)

/-- Cells of ticks are related if label by label and gridline by gridline they are. -/
theorem forall₂_tickCells {canvas canvas' : Canvas α} {axis axis' : ValueAxis α}
    (hlabel : ∀ t t' : Tick α, t.index = t'.index → R (tickLabel canvas t) (tickLabel canvas' t'))
    (hgrid : ∀ t t' : Tick α, t.index = t'.index → R (gridline canvas t) (gridline canvas' t')) :
    List.Forall₂ R (tickCells canvas (axis.ticks canvas))
      (tickCells canvas' (axis'.ticks canvas')) := by
  unfold tickCells ValueAxis.ticks
  rw [List.flatMap_map, List.flatMap_map]
  induction List.range (tickSteps + 1) with
  | nil => exact .nil
  | cons i is ih =>
    rw [List.flatMap_cons, List.flatMap_cons]
    refine List.rel_append ?_ ih
    split
    · exact .cons (hlabel _ _ rfl) .nil
    · exact .cons (hlabel _ _ rfl) (.cons (hgrid _ _ rfl) .nil)

end Compare

/-! ## What a change may touch -/

/-- Place by place the same cells, but for those with a touched id. -/
def AgreeExcept (touched : String → Prop) (cells cells' : List (Cell α)) : Prop :=
  List.Forall₂ (fun a b => a.id = b.id ∧ (¬touched a.id → a = b)) cells cells'

/-- The ids of the marker of the `i`-th value and of the segments that meet there. -/
def SeriesId (i : Nat) (id : String) : Prop :=
  id = s!"point-{i}" ∨ id = s!"line-{i}" ∨ ∃ j, j + 1 = i ∧ id = s!"line-{j}"

/-- The ids of the axes, the title and the category labels. -/
def IsFixed (id : String) : Prop :=
  id = "axis-y" ∨ id = "axis-x" ∨ id = "title" ∨ ∃ i : Nat, id = s!"xlabel-{i}"

end Diagram

/-- Placements that differ in heights only. -/
def Placement.SameColumns : Placement α → Placement α → Prop
  | .box x _ width height, .box x' _ width' height' => x = x' ∧ width = width' ∧ height = height'
  | .edge source target, .edge source' target' => source.x = source'.x ∧ target.x = target'.x
  | _, _ => False

/-- Cells that may differ in heights and, if they are tick labels, in their texts. -/
structure Cell.SameButHeights (a b : Cell α) : Prop where
  id : a.id = b.id
  style : a.style = b.style
  columns : a.placement.SameColumns b.placement
  fixed : Diagram.IsFixed a.id → a = b
  markerText : (∃ i : Nat, a.id = s!"point-{i}") → a.value = b.value

/-- The cells that show a chart on a canvas. -/
def Chart.cells (chart : Chart α) (canvas : Canvas α) : List (Cell α) :=
  (chart.diagram (chart.plot canvas)).cells

namespace Diagram

omit [Scalar α] [NumberText α] in
theorem AgreeExcept.refl (touched : String → Prop) (cells : List (Cell α)) :
    AgreeExcept touched cells cells := List.forall₂_same.mpr fun _ _ => ⟨rfl, fun _ => rfl⟩

omit [Scalar α] [NumberText α] in
theorem sameButHeights_refl (a : Cell α) : a.SameButHeights a := by
  refine ⟨rfl, rfl, ?_, fun _ => rfl, fun _ => rfl⟩
  cases a.placement <;> simp [Placement.SameColumns]

omit [NumberText α] in
theorem plot_x (chart : Chart α) (canvas : Canvas α) (i : Nat)
    (h : i < (chart.plot canvas).points.length) :
    (chart.plot canvas).points[i].x = canvas.padding + canvas.xOffset +
      Scalar.ofNat i * canvas.spacing chart.categories.length := by
  simp [Chart.plot]

omit [NumberText α] in
@[simp] theorem plot_length (chart : Chart α) (canvas : Canvas α) :
    (chart.plot canvas).points.length = chart.series.length := by
  simp [Chart.plot]

omit [NumberText α] in
theorem categoryCell_congr (canvas : Canvas α) (i : Nat) (label : String) {p q : Point α}
    (h : p.x = q.x) : categoryCell canvas i label p = categoryCell canvas i label q := by
  rw [categoryCell, categoryCell, h]

omit [NumberText α] in
/-- Category labels stay where they are as long as there are as many categories and values. -/
theorem categoryCells_congr (chart chart' : Chart α) (canvas : Canvas α)
    (hc : chart.categories = chart'.categories) (hs : chart.series.length = chart'.series.length) :
    categoryCells chart.categories (chart.plot canvas) =
      categoryCells chart'.categories (chart'.plot canvas) := by
  have hcells : List.Forall₂ (· = ·) (categoryCells chart.categories (chart.plot canvas))
      (categoryCells chart'.categories (chart'.plot canvas)) := by
    refine forall₂_categoryCells (by rw [hc]) (by simpa using hs) ?_
    intro i hi hp
    simp only [hc]
    apply categoryCell_congr canvas i
    rw [plot_x, plot_x, hc]
  rwa [List.forall₂_eq_eq_eq] at hcells

theorem seriesCells_set (points : List (Point α)) (series : List α) (p : Point α) (v : α)
    (i : Nat) : AgreeExcept (SeriesId i) (seriesCells 0 points series)
      (seriesCells 0 (points.set i p) (series.set i v)) := by
  refine forall₂_seriesCells (by simp) (by simp) 0 ?_ ?_
  · intro j h
    refine ⟨rfl, fun htouched => ?_⟩
    have hsource : i ≠ j := by
      rintro rfl
      exact htouched (.inr (.inl (by simp [segment])))
    have htarget : i ≠ j + 1 := by
      rintro rfl
      exact htouched (.inr (.inr ⟨j, rfl, by simp [segment]⟩))
    rw [List.getElem_set_ne hsource, List.getElem_set_ne htarget]
  · intro j h h'
    refine ⟨rfl, fun htouched => ?_⟩
    have hne : i ≠ j := by
      rintro rfl
      exact htouched (.inl (by simp [marker]))
    rw [List.getElem_set_ne hne, List.getElem_set_ne hne]

/-- Two charts on one canvas are compared part by part. -/
theorem forall₂_cells {R : Cell α → Cell α → Prop} (hrefl : ∀ a, R a a) {chart chart' : Chart α}
    {canvas : Canvas α}
    (hcategories : List.Forall₂ R (categoryCells chart.categories (chart.plot canvas))
      (categoryCells chart'.categories (chart'.plot canvas)))
    (hticks : List.Forall₂ R (tickCells canvas (chart.valueAxis.ticks canvas))
      (tickCells canvas (chart'.valueAxis.ticks canvas)))
    (hseries : List.Forall₂ R (seriesCells 0 (chart.plot canvas).points chart.series)
      (seriesCells 0 (chart'.plot canvas).points chart'.series))
    (htitle : R (titleCell canvas chart.title) (titleCell canvas chart'.title)) :
    List.Forall₂ R (chart.cells canvas) (chart'.cells canvas) := by
  have haxes : List.Forall₂ R (axisCells canvas) (axisCells canvas) :=
    List.forall₂_same.mpr fun a _ => hrefl a
  have hfront := List.rel_append (List.rel_append haxes hcategories) hticks
  exact List.rel_append (List.rel_append hfront hseries) (.cons htitle .nil)

/-- A text starts as its first part does. -/
theorem head?_toList_append {s t : String} {c : Char} (h : s.toList.head? = some c) :
    (s ++ t).toList.head? = some c := by
  rw [String.toList_append, List.head?_append, h]
  rfl

theorem isFixed_head? {id : String} (h : IsFixed id) :
    id.toList.head? = some 'a' ∨ id.toList.head? = some 't' ∨ id.toList.head? = some 'x' := by
  rcases h with rfl | rfl | rfl | ⟨i, rfl⟩
  · exact .inl rfl
  · exact .inl rfl
  · exact .inr (.inl rfl)
  · exact .inr (.inr (head?_toList_append rfl))

omit [Scalar α] [NumberText α] in
theorem sameButHeights_of_head? {a b : Cell α} {c : Char} (hid : a.id = b.id)
    (hstyle : a.style = b.style) (hcolumns : a.placement.SameColumns b.placement)
    (hhead : a.id.toList.head? = some c) (hc : c ∉ ['a', 't', 'x'])
    (hvalue : c = 'p' → a.value = b.value) : a.SameButHeights b := by
  refine ⟨hid, hstyle, hcolumns, fun h => ?_, fun ⟨i, hi⟩ => hvalue ?_⟩
  · have hfixed := isFixed_head? h
    rw [hhead] at hfixed
    exact absurd (by simpa using hfixed) hc
  · have hp : a.id.toList.head? = some 'p' := by
      rw [hi]
      exact head?_toList_append rfl
    exact Option.some.inj (hhead.symm.trans hp)

theorem sameButHeights_tickLabel (canvas : Canvas α) {t t' : Tick α} (h : t.index = t'.index) :
    (tickLabel canvas t).SameButHeights (tickLabel canvas t') := by
  have hhead : (tickLabel canvas t).id.toList.head? = some 'y' := head?_toList_append rfl
  refine sameButHeights_of_head? ?_ rfl ⟨rfl, rfl, rfl⟩ hhead (by decide) ?_
  · rw [tickLabel, tickLabel, h]
  · intro hp
    exact absurd hp (by decide)

omit [NumberText α] in
theorem sameButHeights_gridline (canvas : Canvas α) {t t' : Tick α} (h : t.index = t'.index) :
    (gridline canvas t).SameButHeights (gridline canvas t') := by
  have hhead : (gridline canvas t).id.toList.head? = some 'g' := head?_toList_append rfl
  refine sameButHeights_of_head? ?_ rfl ⟨rfl, rfl⟩ hhead (by decide) fun _ => rfl
  rw [gridline, gridline, h]

omit [Scalar α] [NumberText α] in
theorem sameButHeights_segment (i : Nat) {p p' q q' : Point α} (hp : p.x = p'.x) (hq : q.x = q'.x) :
    (segment i p q).SameButHeights (segment i p' q') := by
  have hhead : (segment i p q).id.toList.head? = some 'l' := head?_toList_append rfl
  exact sameButHeights_of_head? rfl rfl ⟨hp, hq⟩ hhead (by decide) fun _ => rfl

theorem sameButHeights_marker (i : Nat) {p p' : Point α} (v : α) (hp : p.x = p'.x) :
    (marker i p v).SameButHeights (marker i p' v) := by
  have hhead : (marker i p v).id.toList.head? = some 'p' := head?_toList_append rfl
  refine sameButHeights_of_head? rfl rfl ⟨?_, rfl, rfl⟩ hhead (by decide) fun _ => rfl
  rw [hp]

/-- Charts that differ in their value axes only have the same cells but for heights. -/
theorem sameButHeights_cells {chart chart' : Chart α} (canvas : Canvas α)
    (ht : chart.title = chart'.title) (hc : chart.categories = chart'.categories)
    (hs : chart.series = chart'.series) :
    List.Forall₂ Cell.SameButHeights (chart.cells canvas) (chart'.cells canvas) := by
  have hrefl : ∀ cells : List (Cell α), List.Forall₂ Cell.SameButHeights cells cells :=
    fun _ => List.forall₂_same.mpr fun a _ => sameButHeights_refl a
  apply forall₂_cells sameButHeights_refl
  · rw [categoryCells_congr chart chart' canvas hc (by rw [hs])]
    exact hrefl _
  · exact forall₂_tickCells (fun _ _ => sameButHeights_tickLabel canvas)
      (fun _ _ => sameButHeights_gridline canvas)
  · refine forall₂_seriesCells (by simp [hs]) (by rw [hs]) 0 ?_ ?_
    · intro i h
      apply sameButHeights_segment
      · rw [plot_x, plot_x, hc]
      · rw [plot_x, plot_x, hc]
    · intro i h h'
      simp only [hs]
      apply sameButHeights_marker
      rw [plot_x, plot_x, hc]
  · rw [ht]
    exact sameButHeights_refl _

end Diagram

namespace Chart

open Diagram

variable (chart : Chart α) (canvas : Canvas α)

omit [NumberText α] in
theorem plot_set_series (i : Nat) (v : α) :
    ({ chart with series := chart.series.set i v }.plot canvas).points =
      (chart.plot canvas).points.set i ⟨canvas.padding + canvas.xOffset +
        Scalar.ofNat i * canvas.spacing chart.categories.length, canvas.yOf chart.valueAxis v⟩ := by
  simp [Chart.plot, List.mapIdx_set]

theorem cells_set_series (i : Nat) (v : α) :
    AgreeExcept (SeriesId i) (chart.cells canvas)
      ({ chart with series := chart.series.set i v }.cells canvas) := by
  have hcategories : AgreeExcept (SeriesId i) (categoryCells chart.categories (chart.plot canvas))
      (categoryCells chart.categories
        ({ chart with series := chart.series.set i v }.plot canvas)) := by
    have h := categoryCells_congr chart { chart with series := chart.series.set i v } canvas rfl
      (by simp)
    rw [h]
    exact AgreeExcept.refl _ _
  refine forall₂_cells (fun _ => ⟨rfl, fun _ => rfl⟩) hcategories (AgreeExcept.refl _ _) ?_
    ⟨rfl, fun _ => rfl⟩
  rw [plot_set_series]
  exact seriesCells_set _ _ _ _ i

theorem cells_set_category (i : Nat) (category : String) :
    AgreeExcept (· = s!"xlabel-{i}") (chart.cells canvas)
      ({ chart with categories := chart.categories.set i category }.cells canvas) := by
  have hpoints : ({ chart with categories := chart.categories.set i category }.plot canvas).points =
      (chart.plot canvas).points := by simp [Chart.plot]
  have hcategories : AgreeExcept (· = s!"xlabel-{i}")
      (categoryCells chart.categories (chart.plot canvas))
      (categoryCells (chart.categories.set i category)
        ({ chart with categories := chart.categories.set i category }.plot canvas)) := by
    refine forall₂_categoryCells (by simp) (by rw [hpoints]) ?_
    intro j h h'
    refine ⟨rfl, fun htouched => ?_⟩
    have hne : i ≠ j := by
      rintro rfl
      exact htouched rfl
    simp only [hpoints, List.getElem_set_ne hne]
    rfl
  refine forall₂_cells (fun _ => ⟨rfl, fun _ => rfl⟩) hcategories
    (AgreeExcept.refl (· = s!"xlabel-{i}") _) ?_ ⟨rfl, fun _ => rfl⟩
  rw [hpoints]
  exact AgreeExcept.refl (· = s!"xlabel-{i}") _

theorem cells_title (title : String) :
    AgreeExcept (· = "title") (chart.cells canvas)
      ({ chart with title := title }.cells canvas) := by
  have hrefl := AgreeExcept.refl (α := α) (· = "title")
  exact forall₂_cells (fun _ => ⟨rfl, fun _ => rfl⟩) (hrefl _) (hrefl _) (hrefl _)
    ⟨rfl, fun h => absurd rfl h⟩

theorem cells_bounds (low high : α) :
    List.Forall₂ Cell.SameButHeights (chart.cells canvas)
      ({ chart with valueAxis := ⟨chart.valueAxis.label, low, high⟩ }.cells canvas) :=
  sameButHeights_cells canvas rfl rfl rfl

end Chart

open Diagram

/-- Every part of a chart shows in cells of its own only: a value in its marker and the segments
that meet there, a category in its label, the title in its cell, the label of the value axis nowhere;
and the bounds of the value axis move cells up and down and set the texts of the ticks. -/
theorem Chart.cells_local (chart : Chart α) (canvas : Canvas α) :
    (∀ (i : Nat) (v : α), AgreeExcept (SeriesId i) (chart.cells canvas)
      ({ chart with series := chart.series.set i v }.cells canvas)) ∧
    (∀ (i : Nat) (category : String), AgreeExcept (· = s!"xlabel-{i}") (chart.cells canvas)
      ({ chart with categories := chart.categories.set i category }.cells canvas)) ∧
    (∀ title : String, AgreeExcept (· = "title") (chart.cells canvas)
      ({ chart with title := title }.cells canvas)) ∧
    (∀ label : String, chart.cells canvas =
      { chart with valueAxis := { chart.valueAxis with label := label } }.cells canvas) ∧
    ∀ low high : α, List.Forall₂ Cell.SameButHeights (chart.cells canvas)
      ({ chart with valueAxis := ⟨chart.valueAxis.label, low, high⟩ }.cells canvas) :=
  ⟨chart.cells_set_series canvas, chart.cells_set_category canvas, chart.cells_title canvas,
    fun _ => rfl, chart.cells_bounds canvas⟩

end LineChart
