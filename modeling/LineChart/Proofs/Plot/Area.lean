import LineChart.Proofs.Diagram.Locality
import LineChart.Proofs.Plot.Scale
import LineChart.Proofs.Settings

namespace LineChart

namespace Canvas

variable {c : Canvas ℚ}

theorem spacing_rat (c : Canvas ℚ) (n : Nat) :
    c.spacing n = if 1 < n then c.innerWidth / ((n - 1 : ℕ) : ℚ) else c.innerWidth := rfl

theorem spacing_pos (hinner : 0 < c.innerWidth) (n : Nat) : 0 < c.spacing n := by
  rw [spacing_rat]
  split
  · have hn : (0 : ℚ) < ((n - 1 : ℕ) : ℚ) := Nat.cast_pos.mpr (by omega)
    exact div_pos hinner hn
  · exact hinner

/-- Of several categories the last stands at the end of the inner width. -/
theorem mul_spacing_last {n : Nat} (hn : 1 < n) : ((n - 1 : ℕ) : ℚ) * c.spacing n = c.innerWidth := by
  have hpos : ((n - 1 : ℕ) : ℚ) ≠ 0 := Nat.cast_ne_zero.mpr (by omega)
  rw [spacing_rat, if_pos hn]
  exact mul_div_cancel₀ _ hpos

/-- Exactly the places of categories are within the inner width. -/
theorem mul_spacing_le_iff (hinner : 0 < c.innerWidth) {n : Nat} (hn : 1 < n) (i : Nat) :
    (i : ℚ) * c.spacing n ≤ c.innerWidth ↔ i ≤ n - 1 := by
  calc (i : ℚ) * c.spacing n ≤ c.innerWidth
      ↔ (i : ℚ) * c.spacing n ≤ ((n - 1 : ℕ) : ℚ) * c.spacing n := by rw [mul_spacing_last hn]
    _ ↔ (i : ℚ) ≤ ((n - 1 : ℕ) : ℚ) := mul_le_mul_iff_of_pos_right (spacing_pos hinner n)
    _ ↔ i ≤ n - 1 := Nat.cast_le

end Canvas

namespace Chart

variable (chart : Chart ℚ) (c : Canvas ℚ)

theorem plot_x_rat {i : Nat} (hi : i < (chart.plot c).points.length) :
    (chart.plot c).points[i].x =
      c.padding + c.xOffset + i * c.spacing chart.categories.length :=
  Diagram.plot_x chart c i hi

theorem plot_y {i : Nat} (hi : i < (chart.plot c).points.length) (hs : i < chart.series.length) :
    (chart.plot c).points[i].y = c.yOf chart.valueAxis chart.series[i] := by
  simp [plot]

/-- Points follow each other at one distance. -/
theorem plot_x_succ {i : Nat} (hi : i + 1 < (chart.plot c).points.length) :
    (chart.plot c).points[i + 1].x - (chart.plot c).points[i].x =
      c.spacing chart.categories.length := by
  rw [plot_x_rat, plot_x_rat]
  push_cast
  ring

/-- A point stands within the inset of the plot exactly if it has a category. -/
theorem plot_x_le_iff (hinner : 0 < c.innerWidth) (hn : 1 < chart.categories.length) {i : Nat}
    (hi : i < (chart.plot c).points.length) :
    (chart.plot c).points[i].x ≤ c.width - c.padding - c.xOffset ↔
      i < chart.categories.length := by
  have hwidth := c.innerWidth_rat
  rw [plot_x_rat]
  calc c.padding + c.xOffset + i * c.spacing chart.categories.length ≤
        c.width - c.padding - c.xOffset
      ↔ i * c.spacing chart.categories.length ≤ c.innerWidth := by
        constructor <;> intro h <;> linarith
    _ ↔ i ≤ chart.categories.length - 1 := Canvas.mul_spacing_le_iff hinner hn i
    _ ↔ i < chart.categories.length := by omega

theorem plot_x_mem (hinner : 0 < c.innerWidth)
    (hlength : chart.series.length ≤ max chart.categories.length 1) {i : Nat}
    (hi : i < (chart.plot c).points.length) :
    c.padding + c.xOffset ≤ (chart.plot c).points[i].x ∧
      (chart.plot c).points[i].x ≤ c.width - c.padding - c.xOffset := by
  have hi' : i < chart.series.length := by simpa using hi
  constructor
  · have hstep : 0 ≤ (i : ℚ) * c.spacing chart.categories.length :=
      mul_nonneg (Nat.cast_nonneg i) (Canvas.spacing_pos hinner _).le
    rw [plot_x_rat]
    linarith
  · by_cases hn : 1 < chart.categories.length
    · exact (chart.plot_x_le_iff c hinner hn hi).mpr (by omega)
    · -- without a second category there is one point at most
      obtain rfl : i = 0 := by omega
      have hwidth := c.innerWidth_rat
      rw [plot_x_rat]
      push_cast
      linarith

end Chart

/-- Coordinates that go up from `left` in even steps without passing `right`. -/
structure EvenlyWithin (left right : ℚ) (xs : List ℚ) : Prop where
  even : ∃ step > 0, ∀ i (h : i + 1 < xs.length), xs[i + 1] - xs[i] = step
  within : ∀ x ∈ xs, left ≤ x ∧ x ≤ right
  start : ∀ x ∈ xs.head?, x = left

/-- A value is drawn at a height between `top` and `bottom`, at the bottom if it is the least of the
axis and at the top if it is the greatest. -/
structure HeightWithin (axis : ValueAxis ℚ) (top bottom v y : ℚ) : Prop where
  within : top ≤ y ∧ y ≤ bottom
  least : v = axis.min → y = bottom
  greatest : v = axis.max → y = top

namespace Chart

variable {chart : Chart ℚ} {c : Canvas ℚ}

theorem xs_evenlyWithin (hinner : 0 < c.innerWidth)
    (hlength : chart.series.length ≤ max chart.categories.length 1) :
    EvenlyWithin (c.padding + c.xOffset) (c.width - c.padding - c.xOffset)
      ((chart.plot c).points.map Point.x) where
  even := by
    refine ⟨_, Canvas.spacing_pos hinner chart.categories.length, fun i hi => ?_⟩
    have hi' : i + 1 < (chart.plot c).points.length := by simpa using hi
    simpa using chart.plot_x_succ c hi'
  within x hx := by
    obtain ⟨p, hp, rfl⟩ := List.mem_map.mp hx
    obtain ⟨i, hi, rfl⟩ := List.getElem_of_mem hp
    exact chart.plot_x_mem c hinner hlength hi
  start x hx := by
    rw [List.head?_map, List.head?_eq_getElem?] at hx
    obtain ⟨p, hp, rfl⟩ := Option.map_eq_some_iff.mp hx
    obtain ⟨hzero, rfl⟩ := List.getElem?_eq_some_iff.mp hp
    rw [plot_x_rat]
    push_cast
    ring

/-- When every category has a value, the last point stands at the right end. -/
theorem xs_getLast? (hlength : chart.series.length = chart.categories.length)
    (hn : 2 ≤ chart.categories.length) :
    ((chart.plot c).points.map Point.x).getLast? = some (c.width - c.padding - c.xOffset) := by
  have hpoints : (chart.plot c).points.length = chart.categories.length := by simpa using hlength
  have hi : chart.categories.length - 1 < (chart.plot c).points.length := by omega
  have hwidth := c.innerWidth_rat
  have hlast := Canvas.mul_spacing_last (c := c) (n := chart.categories.length) hn
  rw [List.getLast?_map, List.getLast?_eq_getElem?, hpoints, List.getElem?_eq_getElem hi,
    Option.map_some, plot_x_rat, hlast]
  congr 1
  linarith

theorem ys_heightWithin (hheight : 0 < c.plotHeight)
    (haxis : chart.valueAxis.min < chart.valueAxis.max)
    (hvalues : ∀ v ∈ chart.series, chart.valueAxis.min ≤ v ∧ v ≤ chart.valueAxis.max) :
    List.Forall₂ (HeightWithin chart.valueAxis c.padding (c.height - c.padding)) chart.series
      ((chart.plot c).points.map Point.y) := by
  refine List.forall₂_iff_get.mpr ⟨by simp, fun i hs hp => ?_⟩
  have hpoint : i < (chart.plot c).points.length := by simpa using hs
  have hy : ((chart.plot c).points.map Point.y).get ⟨i, hp⟩ =
      c.yOf chart.valueAxis (chart.series.get ⟨i, hs⟩) := by
    simpa using chart.plot_y c hpoint hs
  rw [hy]
  exact {
    within := c.yOf_mem hheight haxis (hvalues _ (List.get_mem _ _))
    least := fun h => by rw [h, c.yOf_min]
    greatest := fun h => by rw [h, c.yOf_max haxis.ne] }

/-- On every canvas that settings can have, values within the axis are drawn within the plot. The
points of the categories spread evenly over its inset width, and only further ones stand to the right
of it. -/
theorem points_in_plot_area {choices : List (Choice ℚ)} {settings : Settings ℚ}
    (h : Settings.ofChoices choices = .ok settings) (chart : Chart ℚ) :
    let c := settings.canvas
    let left := c.padding + c.xOffset
    let right := c.width - c.padding - c.xOffset
    let points := (chart.plot c).points
    let n := chart.categories.length
    let m := chart.series.length
    points.length = m ∧
      (m ≤ max n 1 → EvenlyWithin left right (points.map Point.x) ∧
        (m = n → 2 ≤ n → (points.map Point.x).getLast? = some right)) ∧
      (chart.valueAxis.min < chart.valueAxis.max →
        (∀ v ∈ chart.series, chart.valueAxis.min ≤ v ∧ v ≤ chart.valueAxis.max) →
        List.Forall₂ (HeightWithin chart.valueAxis c.padding (c.height - c.padding)) chart.series
          (points.map Point.y)) ∧
      (2 ≤ n → ∀ i (hi : i < points.length), right < points[i].x ↔ n ≤ i) := by
  intro c left right points n m
  obtain ⟨-, -, hheight, hinner⟩ :=
    c.fault?_eq_none_iff.mp (Settings.ofChoices_eq_ok_iff.mp h).2
  refine ⟨by simp [points, m], fun hm => ⟨xs_evenlyWithin hinner hm, xs_getLast?⟩,
    ys_heightWithin hheight, fun hn i hi => ?_⟩
  calc right < points[i].x
      ↔ ¬points[i].x ≤ right := not_le.symm
    _ ↔ ¬i < n := not_congr (chart.plot_x_le_iff c hinner hn hi)
    _ ↔ n ≤ i := not_lt

/-- Three values over three categories, the first the least of the axis and the last the greatest. -/
theorem points_in_plot_area_full :
    let canvas : Canvas ℚ := ⟨100, 50, 10, 5⟩
    let settings : Settings ℚ := { canvas := canvas }
    let chart : Chart ℚ := ⟨"", ["a", "b", "c"], ⟨"", -1, 3⟩, [-1, 1 / 2, 3]⟩
    let points := (chart.plot canvas).points
    Settings.ofChoices [.canvas canvas] = .ok settings ∧
      (points.map Point.x).getLast? = some (100 - 10 - 5) ∧
      ∃ y, points.map Point.y = [50 - 10, y, 10] ∧ 10 ≤ y ∧ y ≤ 50 - 10 := by
  intro canvas settings chart points
  have hfault : canvas.fault? = none := by
    rw [Canvas.fault?_eq_none_iff, Canvas.plotHeight_rat, Canvas.innerWidth_rat]
    norm_num [canvas]
  have hsettings : Settings.ofChoices [.canvas canvas] = .ok settings :=
    Settings.ofChoices_eq_ok_iff.mpr ⟨rfl, hfault⟩
  obtain ⟨-, hspread, hheights, -⟩ := points_in_plot_area hsettings chart
  have haxis : chart.valueAxis.min < chart.valueAxis.max := by norm_num [chart]
  have hvalues : ∀ v ∈ chart.series, chart.valueAxis.min ≤ v ∧ v ≤ chart.valueAxis.max := by
    norm_num [chart]
  have hys := hheights haxis hvalues
  simp only [chart, List.forall₂_cons_left_iff, List.forall₂_nil_left_iff] at hys
  obtain ⟨_, _, hfirst, ⟨y, _, hmiddle, ⟨_, _, hlast, rfl, rfl⟩, rfl⟩, hpoints⟩ := hys
  refine ⟨hsettings, (hspread (by decide)).2 rfl (by decide), y, ?_, hmiddle.within⟩
  calc points.map Point.y = _ := hpoints
    _ = [50 - 10, y, 10] := by rw [hfirst.least rfl, hlast.greatest rfl]

end Chart

end LineChart
