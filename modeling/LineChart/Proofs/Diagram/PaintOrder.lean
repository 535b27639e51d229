import Mathlib.Data.List.Flatten
import LineChart.Proofs.Diagram.Heights

namespace LineChart

namespace Diagram

open CellName (text)

/-! ## The order of names -/

theorem pair_sublist_range {i j n : Nat} (h : i < j) (hj : j < n) :
    List.Sublist [i, j] (List.range n) := by
  induction n with
  | zero => omega
  | succ n ih =>
    rw [List.range_succ]
    by_cases hn : j = n
    · subst hn
      have hi : List.Sublist [i] (List.range j) := by simpa using h
      exact hi.append (List.Sublist.refl [j])
    · exact (ih (by omega)).trans (List.sublist_append_left _ _)

theorem marker_mem_seriesNames (points i : Nat) : .marker i ∈ seriesNames points i := by
  rw [seriesNames]
  split <;> simp

theorem segment_mem_seriesNames_iff {points i j : Nat} :
    .segment j ∈ seriesNames points i ↔ j = i ∧ i + 1 < points := by
  rw [seriesNames]
  split <;> simp_all

/-- What lies behind a series: the axes, the labels and the gridlines. -/
def backgroundNames (categories points : Nat) : List CellName :=
  [.verticalAxis, .horizontalAxis] ++ (List.range (min categories points)).map .categoryLabel ++
    (List.range (tickSteps + 1)).flatMap tickNames

theorem cellNames_eq (categories points values : Nat) :
    cellNames categories points values = backgroundNames categories points ++
      ((List.range (min points values)).flatMap (seriesNames points) ++ [.title]) :=
  List.append_assoc _ _ _

theorem categoryLabel_mem_backgroundNames {categories points i : Nat}
    (h : i < min categories points) : .categoryLabel i ∈ backgroundNames categories points :=
  List.mem_append_left _ (List.mem_append_right _ (List.mem_map_of_mem (List.mem_range.mpr h)))

theorem tick_mem_backgroundNames {categories points k : Nat} (hk : k ≤ tickSteps) {n : CellName}
    (hn : n = .tickLabel k ∨ n = .gridline k ∧ k ≠ 0) : n ∈ backgroundNames categories points := by
  have hnames : n ∈ tickNames k := by
    rw [tickNames]
    rcases hn with rfl | ⟨rfl, h0⟩
    · split <;> exact List.mem_cons_self
    · simp [h0]
  exact List.mem_append_right _
    (List.mem_flatMap.mpr ⟨k, List.mem_range.mpr (Nat.lt_succ_of_le hk), hnames⟩)

section Names

variable {categories points values i : Nat}

/-- A segment is drawn if it has a value at its start and a point at its end. -/
theorem segment_mem_cellNames_iff :
    .segment i ∈ cellNames categories points values ↔ i + 1 < points ∧ i < values := by
  have hticks : CellName.segment i ∉ (List.range (tickSteps + 1)).flatMap tickNames := by
    intro hm
    obtain ⟨j, -, hj⟩ := List.mem_flatMap.mp hm
    rw [tickNames] at hj
    split at hj <;> simp at hj
  have hseries : CellName.segment i ∈ (List.range (min points values)).flatMap (seriesNames points) ↔
      i + 1 < points ∧ i < values := by
    simp only [List.mem_flatMap, List.mem_range, segment_mem_seriesNames_iff]
    constructor
    · rintro ⟨j, hj, rfl, hi⟩
      omega
    · intro h
      exact ⟨i, by omega, rfl, h.1⟩
  simp [cellNames_eq, backgroundNames, hticks, hseries]

variable (hi : i < min points values)
include hi

theorem background_sublist {n : CellName} (hn : n ∈ backgroundNames categories points) :
    List.Sublist [n, .marker i] (cellNames categories points values) := by
  have hmarker : CellName.marker i ∈
      (List.range (min points values)).flatMap (seriesNames points) ++ [.title] :=
    List.mem_append_left _ (List.mem_flatMap.mpr
      ⟨i, List.mem_range.mpr hi, marker_mem_seriesNames points i⟩)
  rw [cellNames_eq]
  exact (List.singleton_sublist.mpr hn).append (List.singleton_sublist.mpr hmarker)

/-- Every segment up to the one that starts at a point is painted before the point's marker. -/
theorem segment_sublist {j : Nat} (hji : j ≤ i) (hj : j + 1 < points) :
    List.Sublist [.segment j, .marker i] (cellNames categories points values) := by
  have hseries : List.Sublist [.segment j, .marker i]
      ((List.range (min points values)).flatMap (seriesNames points)) := by
    rcases hji.eq_or_lt with rfl | hlt
    · have hone : List.Sublist [j] (List.range (min points values)) := by simpa using hi
      have hnames := hone.flatMap (seriesNames points)
      rw [List.flatMap_singleton, seriesNames, if_pos hj] at hnames
      exact hnames
    · -- the later of the two lists of names begins where the earlier one is done
      have htwo := (pair_sublist_range hlt hi).flatMap (seriesNames points)
      have hsegment : List.Sublist [.segment j] (seriesNames points j) :=
        List.singleton_sublist.mpr (segment_mem_seriesNames_iff.mpr ⟨rfl, hj⟩)
      have hmarker : List.Sublist [.marker i] (seriesNames points i) :=
        List.singleton_sublist.mpr (marker_mem_seriesNames points i)
      rw [List.flatMap_cons, List.flatMap_singleton] at htwo
      exact (hsegment.append hmarker).trans htwo
  rw [cellNames_eq]
  exact (hseries.trans (List.sublist_append_left _ _)).trans (List.sublist_append_right _ _)

end Names

/-! ## The order of cells -/

variable {α : Type}

/-- The cell with the first id is painted before the one with the second, which may cover it. -/
def Beneath (d : Diagram α) (id id' : String) : Prop :=
  List.Sublist [id, id'] (d.cells.map Cell.id)

theorem mem_of_cell? {d : Diagram α} {id : String} {cell : Cell α} (h : d.cell? id = some cell) :
    cell ∈ d.cells ∧ cell.id = id :=
  ⟨List.mem_of_find?_eq_some h, by simpa using List.find?_some h⟩

variable [Scalar α] [NumberText α]

theorem beneath_of_sublist {chart : Chart α} {plot : Plot α} {n n' : CellName}
    (h : List.Sublist [n, n'] (cellNames chart.categories.length plot.points.length
      chart.series.length)) : (chart.diagram plot).Beneath n.text n'.text := by
  rw [Beneath, cells_ids]
  exact h.map text

theorem segment_mem_seriesCells (first : Nat) {points : List (Point α)} {series : List α} {i : Nat}
    (hp : i + 1 < points.length) (hs : i < series.length) :
    segment (first + i) points[i] points[i + 1] ∈ seriesCells first points series := by
  induction points generalizing first series i with
  | nil => exact absurd hp (Nat.not_lt_zero _)
  | cons p points ih =>
    cases series with
    | nil => exact absurd hs (Nat.not_lt_zero i)
    | cons v series =>
      rw [seriesCells]
      cases i with
      | zero =>
        have hnext : 0 < points.length := Nat.lt_of_succ_lt_succ hp
        have hhead : points.head? = some points[0] :=
          List.head?_eq_getElem?.trans (List.getElem?_eq_getElem hnext)
        rw [hhead]
        exact List.mem_cons_self
      | succ i =>
        have hrest := ih (first + 1) (Nat.lt_of_succ_lt_succ hp) (Nat.lt_of_succ_lt_succ hs)
        rw [Nat.add_assoc, Nat.add_comm 1 i] at hrest
        exact List.mem_append_right _ (List.mem_cons_of_mem _ hrest)

/-- A segment that is drawn runs from its point to the next one. -/
theorem placement_of_cell? {chart : Chart α} {plot : Plot α} {i : Nat} {cell : Cell α}
    (h : (chart.diagram plot).cell? s!"line-{i}" = some cell) : i < chart.series.length ∧
      ∃ p q, plot.points[i]? = some p ∧ plot.points[i + 1]? = some q ∧
        cell.placement = .edge p q := by
  -- the id tells the cell's name, and the name how far the points and values reach
  obtain ⟨hmem, hid⟩ := mem_of_cell? h
  have hname : CellName.segment i ∈ cellNames chart.categories.length plot.points.length
      chart.series.length := by
    have hids : (CellName.segment i).text ∈ (chart.diagram plot).cells.map Cell.id :=
      List.mem_map.mpr ⟨cell, hmem, hid⟩
    rw [cells_ids] at hids
    exact (List.mem_map_of_injective CellName.text_injective).mp hids
  obtain ⟨hp, hs⟩ := segment_mem_cellNames_iff.mp hname
  have hsegment : segment i plot.points[i] plot.points[i + 1] ∈ (chart.diagram plot).cells := by
    have hseries := segment_mem_seriesCells 0 hp hs
    rw [Nat.zero_add] at hseries
    exact List.mem_append_left _ (List.mem_append_right _ hseries)
  have hcell : segment i plot.points[i] plot.points[i + 1] = cell :=
    Option.some.inj ((cell?_of_mem hsegment).symm.trans h)
  exact ⟨hs, plot.points[i], plot.points[i + 1], List.getElem?_eq_getElem _,
    List.getElem?_eq_getElem _, by rw [← hcell]; rfl⟩

theorem exists_marker (chart : Chart α) (plot : Plot α) {i : Nat} {p : Point α}
    (hp : plot.points[i]? = some p) (hs : i < chart.series.length) :
    ∃ v, chart.series[i]? = some v ∧
      (chart.diagram plot).cell? s!"point-{i}" = some (marker i p v) := by
  obtain ⟨hi, rfl⟩ := List.getElem?_eq_some_iff.mp hp
  exact ⟨chart.series[i], List.getElem?_eq_getElem hs, cell?_of_mem (marker_mem chart plot hi hs)⟩

/-- The ids of so many categories, points and values in the order of painting. -/
def paintedIds (categories points values : Nat) : List String :=
  ["axis-y", "axis-x"] ++ (List.range (min categories points)).map (fun i => s!"xlabel-{i}") ++
    ["ylabel-0"] ++ (List.range' 1 5).flatMap (fun k => [s!"ylabel-{k}", s!"grid-{k}"]) ++
    (List.range (min points values)).flatMap (fun i =>
      (if i + 1 < points then [s!"line-{i}"] else []) ++ [s!"point-{i}"]) ++ ["title"]

theorem map_text_cellNames (categories points values : Nat) :
    (cellNames categories points values).map text = paintedIds categories points values := by
  have hticks : ((List.range (tickSteps + 1)).flatMap tickNames).map text =
      ["ylabel-0"] ++ (List.range' 1 5).flatMap fun k => [s!"ylabel-{k}", s!"grid-{k}"] := rfl
  have hseries : ((List.range (min points values)).flatMap (seriesNames points)).map text =
      (List.range (min points values)).flatMap fun i =>
        (if i + 1 < points then [s!"line-{i}"] else []) ++ [s!"point-{i}"] := by
    rw [List.map_flatMap]
    congr 1
    funext i
    rw [seriesNames]
    split <;> rfl
  rw [cellNames, paintedIds]
  simp only [List.map_append, List.map_map, hticks, hseries, List.append_assoc]
  rfl

end Diagram

open Diagram in
/-- However many categories, points and values there are, the cells are painted in one order: what
touches a marker or lies behind it comes first, the segments hang together, and where every point has
a value each joins two markers. -/
theorem Chart.diagram_paintOrder {α : Type} [Scalar α] [NumberText α] (chart : Chart α)
    (plot : Plot α) :
    let d := chart.diagram plot
    let points := plot.points
    let labelled := min chart.categories.length points.length
    let marked := min points.length chart.series.length
    d.cells.map Cell.id = paintedIds chart.categories.length points.length chart.series.length ∧
    (∀ i < marked,
      (∃ p v, points[i]? = some p ∧ chart.series[i]? = some v ∧
        d.cell? s!"point-{i}" = some (marker i p v)) ∧
      (∀ j cell, d.cell? s!"line-{j}" = some cell → j = i ∨ j + 1 = i →
        d.Beneath s!"line-{j}" s!"point-{i}") ∧
      (∀ j < labelled, d.Beneath s!"xlabel-{j}" s!"point-{i}") ∧
      (∀ k ≤ 5, d.Beneath s!"ylabel-{k}" s!"point-{i}") ∧
      ∀ k, 1 ≤ k → k ≤ 5 → d.Beneath s!"grid-{k}" s!"point-{i}") ∧
    (∀ i cell, d.cell? s!"line-{i}" = some cell → ∃ p q, points[i]? = some p ∧
      points[i + 1]? = some q ∧ cell.placement = .edge p q) ∧
    (∀ i cell next, d.cell? s!"line-{i}" = some cell → d.cell? s!"line-{i + 1}" = some next →
      ∃ p q r, cell.placement = .edge p q ∧ next.placement = .edge q r) ∧
    (points.length = chart.series.length → ∀ i cell, d.cell? s!"line-{i}" = some cell →
      ∃ p q v w, cell.placement = .edge p q ∧ d.cell? s!"point-{i}" = some (marker i p v) ∧
        d.cell? s!"point-{i + 1}" = some (marker (i + 1) q w)) := by
  intro d points labelled marked
  refine ⟨?_, fun i hi => ⟨?_, ?_, ?_, ?_, ?_⟩, ?_, ?_, ?_⟩
  · exact (cells_ids chart plot).trans (map_text_cellNames _ _ _)
  · have hp : i < points.length := hi.trans_le (Nat.min_le_left _ _)
    have hs : i < chart.series.length := hi.trans_le (Nat.min_le_right _ _)
    obtain ⟨v, hv, hcell⟩ := exists_marker chart plot (List.getElem?_eq_getElem hp) hs
    exact ⟨points[i], v, List.getElem?_eq_getElem hp, hv, hcell⟩
  · intro j cell hcell hj
    -- either way the segment is not a later one than the marker
    obtain ⟨-, p, q, -, hq, -⟩ := placement_of_cell? hcell
    have hlength := (List.getElem?_eq_some_iff.mp hq).1
    have hji : j ≤ i := by omega
    exact beneath_of_sublist (segment_sublist hi hji hlength)
  · intro j hj
    exact beneath_of_sublist (background_sublist hi (categoryLabel_mem_backgroundNames hj))
  · intro k hk
    exact beneath_of_sublist (background_sublist hi (tick_mem_backgroundNames hk (.inl rfl)))
  · intro k h1 hk
    have hgrid : CellName.gridline k ∈
        backgroundNames chart.categories.length plot.points.length :=
      tick_mem_backgroundNames hk (.inr ⟨rfl, Nat.ne_of_gt h1⟩)
    exact beneath_of_sublist (background_sublist hi hgrid)
  · intro i cell hcell
    exact (placement_of_cell? hcell).2
  · intro i cell next hcell hnext
    obtain ⟨-, p, q, -, hq, hedge⟩ := placement_of_cell? hcell
    obtain ⟨-, q', r, hq', -, hedge'⟩ := placement_of_cell? hnext
    obtain rfl := Option.some.inj (hq.symm.trans hq')
    exact ⟨p, q, r, hedge, hedge'⟩
  · intro heq i cell hcell
    obtain ⟨hs, p, q, hp, hq, hedge⟩ := placement_of_cell? hcell
    have hlength : i + 1 < points.length := (List.getElem?_eq_some_iff.mp hq).1
    obtain ⟨v, -, hv⟩ := exists_marker chart plot hp hs
    obtain ⟨w, -, hw⟩ := exists_marker chart plot hq (heq ▸ hlength)
    exact ⟨p, q, v, w, hedge, hv, hw⟩

/-- Three points on a slope. -/
def Plot.slope : Plot Float :=
  ⟨.standard, [⟨Scalar.ofNat 0, Scalar.ofNat 2⟩, ⟨Scalar.ofNat 1, Scalar.ofNat 1⟩,
    ⟨Scalar.ofNat 2, Scalar.ofNat 0⟩]⟩

/-- Three values under one category. -/
def Chart.climb : Chart Float :=
  ⟨"Climb", ["start"], .percent, [Scalar.ofNat 1, Scalar.ofNat 2, Scalar.ofNat 3]⟩

open Diagram in
theorem Chart.diagram_paintOrder_slope :
    let d := climb.diagram .slope
    ∃ first second, d.cell? "line-0" = some first ∧ d.cell? "line-1" = some second ∧
      d.Beneath "line-0" "point-1" ∧ d.Beneath "line-1" "point-1" ∧
      d.Beneath "xlabel-0" "point-0" ∧ d.Beneath "ylabel-5" "point-0" ∧
      d.Beneath "grid-5" "point-0" ∧
      (∃ p q r, first.placement = .edge p q ∧ second.placement = .edge q r) ∧
      Plot.slope.points.length = climb.series.length ∧
      ∃ p q v w, second.placement = .edge p q ∧ d.cell? "point-1" = some (marker 1 p v) ∧
        d.cell? "point-2" = some (marker 2 q w) := by
  intro d
  obtain ⟨-, hmarked, -, hchain, hjoin⟩ := Chart.diagram_paintOrder climb .slope
  have hfirst : ∃ cell, d.cell? "line-0" = some cell := ⟨_, rfl⟩
  have hsecond : ∃ cell, d.cell? "line-1" = some cell := ⟨_, rfl⟩
  obtain ⟨first, hfirst⟩ := hfirst
  obtain ⟨second, hsecond⟩ := hsecond
  obtain ⟨-, -, hcategory, htick, hgrid⟩ := hmarked 0 (by decide)
  obtain ⟨-, hsegment, -⟩ := hmarked 1 (by decide)
  exact ⟨first, second, hfirst, hsecond, hsegment 0 first hfirst (.inr rfl),
    hsegment 1 second hsecond (.inl rfl), hcategory 0 (by decide), htick 5 (by decide),
    hgrid 5 (by decide) (by decide), hchain 0 first second hfirst hsecond, rfl,
    hjoin rfl 1 second hsecond⟩

end LineChart
