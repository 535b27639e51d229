import LineChart.Proofs.Diagram.Heights
import LineChart.Proofs.Plot.Ticks
import LineChart.Proofs.Settings

/-! Where the ticks and gridlines of an axis stand against the plot. -/

namespace LineChart

/-- The area of a canvas that the axes span. -/
def Canvas.plotArea (c : Canvas ℚ) : Set (Point ℚ) :=
  {p | (c.padding ≤ p.x ∧ p.x ≤ c.width - c.padding) ∧
    c.padding ≤ p.y ∧ p.y ≤ c.height - c.padding}

/-- Between the paddings of sound settings there is room. -/
theorem Canvas.padding_le_right {c : Canvas ℚ} (h : c.fault? = none) :
    c.padding ≤ c.width - c.padding := by
  obtain ⟨-, ⟨-, hoffset⟩, -, hinner⟩ := c.fault?_eq_none_iff.mp h
  rw [c.innerWidth_rat] at hinner
  linarith

theorem Canvas.fault?_standard_rat : (Canvas.standard : Canvas ℚ).fault? = none := by
  rw [fault?_eq_none_iff, plotHeight_rat, innerWidth_rat]
  norm_num [standard, Scalar.ofNat]

namespace Diagram

/-- The edges among the cells of the ticks are the gridlines, from side to side of the plot. -/
theorem exists_tick_of_edge [NumberText ℚ] {c : Canvas ℚ} {ticks : List (Tick ℚ)} {cell : Cell ℚ}
    (hcell : cell ∈ tickCells c ticks) {source target : Point ℚ}
    (h : cell.placement = .edge source target) :
    ∃ t ∈ ticks, cell.id = s!"grid-{t.index}" ∧ source = ⟨c.padding, t.y⟩ ∧
      target = ⟨c.width - c.padding, t.y⟩ := by
  have hgridline : ∀ t : Tick ℚ, (gridline c t).placement =
      .edge ⟨c.padding, t.y⟩ ⟨c.width - c.padding, t.y⟩ := fun _ => rfl
  obtain ⟨t, ht, hcell⟩ := List.mem_flatMap.mp hcell
  have hmem : cell = tickLabel c t ∨ cell = gridline c t := by
    split at hcell
    · exact .inl (List.mem_singleton.mp hcell)
    · exact List.mem_pair.mp hcell
  rcases hmem with rfl | rfl
  · -- a label is a box
    cases h
  · rw [hgridline, Placement.edge.injEq] at h
    exact ⟨t, ht, rfl, h.1.symm, h.2.symm⟩

end Diagram

namespace ValueAxis

open Diagram in
/-- A tick stands within the plot exactly if the whole number that it shows is a value of the axis,
and never further out than half a unit; all ticks do exactly if neither bound is rounded out of the
axis. A gridline goes from side to side of the plot at the height of its tick. -/
theorem ticks_in_plot_area [NumberText ℚ] {choices : List (Choice ℚ)} {settings : Settings ℚ}
    (h : Settings.ofChoices choices = .ok settings) {axis : ValueAxis ℚ}
    (haxis : axis.min < axis.max) :
    let c := settings.canvas
    let ticks := axis.ticks c
    let halfUnit := 1 / 2 * (c.plotHeight / (axis.max - axis.min))
    (∀ t ∈ ticks,
      ((c.padding ≤ t.y ∧ t.y ≤ c.height - c.padding) ↔
        axis.min ≤ t.value ∧ t.value ≤ axis.max) ∧
      c.padding - halfUnit ≤ t.y ∧ t.y ≤ c.height - c.padding + halfUnit) ∧
    ((∀ t ∈ ticks, c.padding ≤ t.y ∧ t.y ≤ c.height - c.padding) ↔
      (Int.fract axis.min = 0 ∨ 1 / 2 ≤ Int.fract axis.min) ∧ Int.fract axis.max < 1 / 2) ∧
    ∀ cell ∈ tickCells c ticks, ∀ source target, cell.placement = .edge source target →
      ∃ t ∈ ticks, cell.id = s!"grid-{t.index}" ∧ source = ⟨c.padding, t.y⟩ ∧
        target = ⟨c.width - c.padding, t.y⟩ ∧
        ((source ∈ c.plotArea ∧ target ∈ c.plotArea) ↔
          axis.min ≤ t.value ∧ t.value ≤ axis.max) := by
  intro c ticks halfUnit
  have hfault : c.fault? = none := (Settings.ofChoices_eq_ok_iff.mp h).2
  obtain ⟨-, -, hheight, -⟩ := c.fault?_eq_none_iff.mp hfault
  have hinside : ∀ t ∈ ticks, (c.padding ≤ t.y ∧ t.y ≤ c.height - c.padding) ↔
      axis.min ≤ t.value ∧ t.value ≤ axis.max :=
    forall_mem_ticks_iff.mpr fun i _ => tickHeight_mem_iff hheight haxis i
  refine ⟨fun t ht => ⟨hinside t ht, ?_⟩, ?_, fun cell hcell source target hedge => ?_⟩
  · obtain ⟨i, hi, rfl⟩ := mem_ticks_iff.mp ht
    exact c.yOf_within hheight haxis (shown_within haxis.le hi)
  · rw [forall_mem_ticks_iff, ← shown_mem_iff haxis.le]
    exact forall₂_congr fun i _ => tickHeight_mem_iff hheight haxis i
  · obtain ⟨t, ht, hid, rfl, rfl⟩ := exists_tick_of_edge hcell hedge
    have hsides := Canvas.padding_le_right hfault
    refine ⟨t, ht, hid, rfl, rfl, ?_⟩
    rw [← hinside t ht]
    simp [Canvas.plotArea, hsides]

/-- Neither bound of this axis is whole, and neither is rounded out of it. -/
theorem ticks_in_plot_area_between :
    letI : NumberText ℚ := ⟨toString⟩
    let axis : ValueAxis ℚ := ⟨"", 1 / 2, 7 / 3⟩
    let settings : Settings ℚ := .standard
    let c := settings.canvas
    Settings.ofChoices [] = .ok settings ∧ axis.min < axis.max ∧
      (∀ t ∈ axis.ticks c, c.padding ≤ t.y ∧ t.y ≤ c.height - c.padding) ∧
      ∀ cell ∈ Diagram.tickCells c (axis.ticks c), ∀ source target,
        cell.placement = .edge source target → source ∈ c.plotArea ∧ target ∈ c.plotArea := by
  let _ : NumberText ℚ := ⟨toString⟩
  intro axis settings c
  have hsettings : Settings.ofChoices [] = .ok settings :=
    Settings.ofChoices_eq_ok_iff.mpr ⟨rfl, Canvas.fault?_standard_rat⟩
  have haxis : axis.min < axis.max := by norm_num [axis]
  obtain ⟨hinside, hall, hedge⟩ := ticks_in_plot_area hsettings haxis
  have hbounds : (Int.fract axis.min = 0 ∨ 1 / 2 ≤ Int.fract axis.min) ∧
      Int.fract axis.max < 1 / 2 := by
    norm_num [axis, Int.fract]
  have hticks := hall.mpr hbounds
  refine ⟨hsettings, haxis, hticks, fun cell hcell source target h => ?_⟩
  obtain ⟨t, ht, -, -, -, hplot⟩ := hedge cell hcell source target h
  exact hplot.mpr ((hinside t ht).1.mp (hticks t ht))

/-- The upper bound of a fractional axis is rounded up, and its tick and gridline are drawn above
the plot, even above the canvas. -/
theorem tick_above_canvas :
    letI : NumberText ℚ := ⟨toString⟩
    let axis : ValueAxis ℚ := ⟨"", 1 / 2, 3 / 2⟩
    let settings : Settings ℚ := .standard
    let c := settings.canvas
    let tick : Tick ℚ := ⟨5, 2, -80⟩
    Settings.ofChoices [] = .ok settings ∧ axis.min < axis.max ∧ tick ∈ axis.ticks c ∧
      ¬c.padding ≤ tick.y ∧ Diagram.gridline c tick ∈ Diagram.tickCells c (axis.ticks c) := by
  let _ : NumberText ℚ := ⟨toString⟩
  intro axis settings c tick
  have haxis : axis.min < axis.max := by norm_num [axis]
  have hshown : axis.shown tickSteps = 2 := by
    rw [shown_eq_round, division_last, round_eq_iff, Set.mem_Ico]
    norm_num [axis]
  have hheight : axis.tickHeight c tickSteps = -80 := by
    rw [tickHeight, hshown, Canvas.yOf_rat, Canvas.plotHeight_rat]
    norm_num [axis, c, settings, Settings.standard, Canvas.standard, Scalar.ofNat]
  have htick : tick ∈ axis.ticks c := by
    refine mem_ticks_iff.mpr ⟨tickSteps, le_rfl, ?_⟩
    rw [hshown, hheight]
    rfl
  refine ⟨Settings.ofChoices_eq_ok_iff.mpr ⟨rfl, Canvas.fault?_standard_rat⟩, haxis, htick, ?_,
    Diagram.gridline_mem htick (by decide)⟩
  norm_num [c, settings, tick, Settings.standard, Canvas.standard, Scalar.ofNat]

end ValueAxis

end LineChart
