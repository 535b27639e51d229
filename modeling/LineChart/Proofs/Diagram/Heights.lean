import LineChart.Proofs.Diagram.CellList
import LineChart.Proofs.Plot.Scale

namespace LineChart

/-! ## Cells by their ids -/

namespace Diagram

variable {α : Type}

/-- The cell with an id. -/
def cell? (d : Diagram α) (id : String) : Option (Cell α) := d.cells.find? (·.id = id)

variable [Scalar α] [NumberText α]

theorem cell?_of_mem {chart : Chart α} {plot : Plot α} {cell : Cell α}
    (h : cell ∈ (chart.diagram plot).cells) : (chart.diagram plot).cell? cell.id = some cell :=
  find?_of_nodup_map (nodup_cells_ids chart plot) h rfl

theorem marker_mem_seriesCells (first : Nat) {points : List (Point α)} {series : List α} {i : Nat}
    (hp : i < points.length) (hs : i < series.length) :
    marker (first + i) points[i] series[i] ∈ seriesCells first points series := by
  -- the cells are numbered on from `first`, so the induction is for any number to begin with
  induction points generalizing first series i with
  | nil => exact absurd hp (Nat.not_lt_zero i)
  | cons p points ih =>
    cases series with
    | nil => exact absurd hs (Nat.not_lt_zero i)
    | cons v series =>
      rw [seriesCells]
      apply List.mem_append_right
      cases i with
      | zero => exact List.mem_cons_self
      | succ i =>
        have hrest := ih (first + 1) (Nat.lt_of_succ_lt_succ hp) (Nat.lt_of_succ_lt_succ hs)
        rw [Nat.add_assoc, Nat.add_comm 1 i] at hrest
        exact List.mem_cons_of_mem _ hrest

theorem marker_mem (chart : Chart α) (plot : Plot α) {i : Nat} (hp : i < plot.points.length)
    (hs : i < chart.series.length) :
    marker i plot.points[i] chart.series[i] ∈ (chart.diagram plot).cells := by
  have hmem := marker_mem_seriesCells 0 hp hs
  rw [Nat.zero_add] at hmem
  exact List.mem_append_left _ (List.mem_append_right _ hmem)

theorem tickCells_subset (chart : Chart α) (plot : Plot α) :
    tickCells plot.canvas (chart.valueAxis.ticks plot.canvas) ⊆ (chart.diagram plot).cells :=
  fun _ h => List.mem_append_left _ (List.mem_append_left _ (List.mem_append_right _ h))

/-- The `k`-th tick of an axis. -/
def tickAt (axis : ValueAxis α) (c : Canvas α) (k : Nat) : Tick α :=
  ⟨k, axis.tickValue k, c.yOf axis (axis.tickValue k)⟩

omit [NumberText α] in
theorem tickAt_mem (axis : ValueAxis α) (c : Canvas α) {k : Nat} (hk : k < tickSteps + 1) :
    tickAt axis c k ∈ axis.ticks c :=
  List.mem_map.mpr ⟨k, List.mem_range.mpr hk, rfl⟩

theorem tickLabel_mem {c : Canvas α} {ticks : List (Tick α)} {t : Tick α} (h : t ∈ ticks) :
    tickLabel c t ∈ tickCells c ticks := by
  refine List.mem_flatMap.mpr ⟨t, h, ?_⟩
  split <;> exact List.mem_cons_self

theorem gridline_mem {c : Canvas α} {ticks : List (Tick α)} {t : Tick α} (h : t ∈ ticks)
    (hi : t.index ≠ 0) : gridline c t ∈ tickCells c ticks := by
  refine List.mem_flatMap.mpr ⟨t, h, ?_⟩
  rw [if_neg hi]
  exact List.mem_cons_of_mem _ List.mem_cons_self

end Diagram

/-! ## Heights on the screen -/

/-- The height of the middle of a box or an edge. -/
def Placement.middle : Placement ℚ → ℚ
  | .box _ y _ height => y + height / 2
  | .edge source target => (source.y + target.y) / 2

section

variable [NumberText ℚ]

open Diagram

theorem middle_marker (i : Nat) (p : Point ℚ) (v : ℚ) :
    (marker i p v).placement.middle = p.y := by
  have hmiddle : (marker i p v).placement.middle = p.y - (4 : ℕ) + (8 : ℕ) / 2 := rfl
  rw [hmiddle]
  push_cast
  ring

theorem middle_tickLabel (c : Canvas ℚ) (t : Tick ℚ) :
    (tickLabel c t).placement.middle = t.y := by
  have hmiddle : (tickLabel c t).placement.middle = t.y - (10 : ℕ) + (20 : ℕ) / 2 := rfl
  rw [hmiddle]
  push_cast
  ring

end

/-- Values can be told from the heights they are drawn at, when of two heights the one that `lower`
puts first belongs to the lesser value. -/
structure HeightsTell {m n : Nat} (lower : ℚ → ℚ → Prop) (value : Fin m → ℚ) (point : Fin m → ℚ)
    (shown : Fin n → ℤ) (tick : Fin n → ℚ) : Prop where
  apart : ∀ i j, value i < value j ↔ lower (point i) (point j)
  less : ∀ i k, value i < shown k ↔ lower (point i) (tick k)
  equal : ∀ i k, value i = shown k ↔ point i = tick k
  greater : ∀ i k, (shown k : ℚ) < value i ↔ lower (tick k) (point i)

theorem heightsTell_of_strictAnti {m n : Nat} {f : ℚ → ℚ} (hf : StrictAnti f) (value : Fin m → ℚ)
    (shown : Fin n → ℤ) :
    HeightsTell (· > ·) value (fun i => f (value i)) shown (fun k => f (shown k)) where
  apart _ _ := hf.lt_iff_gt.symm
  less _ _ := hf.lt_iff_gt.symm
  equal _ _ := hf.injective.eq_iff.symm
  greater _ _ := hf.lt_iff_gt.symm

theorem heightsTell_of_strictMono {m n : Nat} {f : ℚ → ℚ} (hf : StrictMono f) (value : Fin m → ℚ)
    (shown : Fin n → ℤ) :
    HeightsTell (· < ·) value (fun i => f (value i)) shown (fun k => f (shown k)) where
  apart _ _ := hf.lt_iff_lt.symm
  less _ _ := hf.lt_iff_lt.symm
  equal _ _ := hf.injective.eq_iff.symm
  greater _ _ := hf.lt_iff_lt.symm

open Diagram in
/-- Markers stand against each other and against ticks and gridlines as their values stand against
each other and against the whole numbers shown: lesser values lower on an axis that runs up, and
higher on one that runs down. -/
theorem Chart.heights_tell_values [NumberText ℚ] (chart : Chart ℚ) {canvas : Canvas ℚ}
    (hcanvas : 0 < canvas.plotHeight) :
    let d := chart.diagram (chart.plot canvas)
    ∃ (point : Fin chart.series.length → ℚ) (shown : Fin (tickSteps + 1) → ℤ)
      (tick : Fin (tickSteps + 1) → ℚ),
      (∀ i : Fin chart.series.length, ∃ cell, d.cell? s!"point-{i.val}" = some cell ∧
        cell.placement.middle = point i) ∧
      (∀ k : Fin (tickSteps + 1), ∃ cell, d.cell? s!"ylabel-{k.val}" = some cell ∧
        cell.value = NumberText.text (shown k : ℚ) ∧ cell.placement.middle = tick k) ∧
      (∀ k : Fin (tickSteps + 1), 0 < k → ∃ cell source target,
        d.cell? s!"grid-{k.val}" = some cell ∧ cell.placement = .edge source target ∧
        source.y = tick k ∧ target.y = tick k) ∧
      (chart.valueAxis.min < chart.valueAxis.max →
        HeightsTell (· > ·) chart.series.get point shown tick) ∧
      (chart.valueAxis.max < chart.valueAxis.min →
        HeightsTell (· < ·) chart.series.get point shown tick) := by
  intro d
  let f := canvas.yOf chart.valueAxis
  refine ⟨fun i => f (chart.series.get i), fun k => chart.valueAxis.shown k,
    fun k => f (chart.valueAxis.shown k), fun i => ?_, fun k => ?_, fun k hk => ?_, fun h => ?_,
    fun h => ?_⟩
  · have hp : i < (chart.plot canvas).points.length := by simp [Chart.plot]
    refine ⟨_, cell?_of_mem (marker_mem chart _ hp i.isLt), ?_⟩
    rw [middle_marker]
    simp [Chart.plot, f]
  · have hmem := tickCells_subset chart (chart.plot canvas)
      (tickLabel_mem (tickAt_mem chart.valueAxis canvas k.isLt))
    refine ⟨_, cell?_of_mem hmem, ?_, ?_⟩
    · exact congrArg NumberText.text (chart.valueAxis.tickValue_rat k)
    · rw [middle_tickLabel, tickAt, chart.valueAxis.tickValue_rat]
  · have hmem := tickCells_subset chart (chart.plot canvas)
      (gridline_mem (tickAt_mem chart.valueAxis canvas k.isLt) (Nat.ne_of_gt hk))
    have hy : (tickAt chart.valueAxis canvas k).y = f (chart.valueAxis.shown k) := by
      rw [tickAt, chart.valueAxis.tickValue_rat]
    exact ⟨_, _, _, cell?_of_mem hmem, rfl, hy, hy⟩
  · exact heightsTell_of_strictAnti (Canvas.yOf_strictAnti hcanvas h) _ _
  · exact heightsTell_of_strictMono (Canvas.yOf_strictMono hcanvas h) _ _

/-- On an axis that runs down from a half to less than a step the greater value stands lower. -/
theorem heights_tell_values_inverted :
    letI : NumberText ℚ := ⟨toString⟩
    let chart : Chart ℚ := ⟨"", ["a"], ⟨"", 1 / 2, -1⟩, [1 / 3, 2]⟩
    let d := chart.diagram (chart.plot .standard)
    0 < (Canvas.standard : Canvas ℚ).plotHeight ∧
      ∃ a b : Cell ℚ, d.cell? "point-0" = some a ∧ d.cell? "point-1" = some b ∧
        a.placement.middle < b.placement.middle := by
  let _ : NumberText ℚ := ⟨toString⟩
  intro chart d
  have hcanvas : 0 < (Canvas.standard : Canvas ℚ).plotHeight := by
    norm_num [Canvas.plotHeight_rat, Canvas.standard, Scalar.ofNat]
  obtain ⟨point, shown, tick, hpoint, -, -, -, hdown⟩ := chart.heights_tell_values hcanvas
  obtain ⟨a, ha, hay⟩ := hpoint 0
  obtain ⟨b, hb, hby⟩ := hpoint 1
  have hvalue : (1 / 3 : ℚ) < 2 := by norm_num
  have hfirst : s!"point-{(0 : Fin 2).val}" = "point-0" := by decide
  have hsecond : s!"point-{(1 : Fin 2).val}" = "point-1" := by decide
  refine ⟨hcanvas, a, b, hfirst ▸ ha, hsecond ▸ hb, ?_⟩
  rw [hay, hby]
  exact ((hdown (by norm_num [chart])).apart 0 1).mp hvalue

end LineChart
