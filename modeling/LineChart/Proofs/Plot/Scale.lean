import Mathlib.Algebra.Order.Floor.Ring
import Mathlib.Data.Rat.Floor
import Mathlib.Tactic.Linarith
import Mathlib.Tactic.Ring
import LineChart.Plot.Basic
import LineChart.Plot.Tick

/-! Layout over the rationals, where every operation is exact. -/

namespace LineChart

theorem roundHalfUp_rat (x : ℚ) : roundHalfUp x = (⌊x + 1 / 2⌋ : ℤ) := by
  have hround : roundHalfUp x = if 1 / 2 ≤ x - ⌊x⌋ then (⌊x⌋ : ℚ) + 1 else ⌊x⌋ := rfl
  have hlow := Int.floor_le x
  have hhigh := Int.lt_floor_add_one x
  rw [hround]
  split
  · have hup : ⌊x + 1 / 2⌋ = ⌊x⌋ + 1 := by
      rw [Int.floor_eq_iff]
      push_cast
      constructor <;> linarith
    rw [hup]
    push_cast
    rfl
  · have hdown : ⌊x + 1 / 2⌋ = ⌊x⌋ := by
      rw [Int.floor_eq_iff]
      constructor <;> linarith
    rw [hdown]

/-- The whole number that the `k`-th tick shows. -/
def ValueAxis.shown (axis : ValueAxis ℚ) (k : Nat) : ℤ :=
  ⌊axis.min + axis.span * (k / tickSteps) + 1 / 2⌋

theorem ValueAxis.tickValue_rat (axis : ValueAxis ℚ) (k : Nat) :
    axis.tickValue k = axis.shown k := roundHalfUp_rat _

namespace Canvas

variable {c : Canvas ℚ} {axis : ValueAxis ℚ}

theorem plotHeight_rat (c : Canvas ℚ) : c.plotHeight = c.height - 2 * c.padding := rfl

theorem innerWidth_rat (c : Canvas ℚ) :
    c.innerWidth = c.width - 2 * c.padding - 2 * c.xOffset := rfl

theorem yOf_rat (c : Canvas ℚ) (axis : ValueAxis ℚ) (v : ℚ) :
    c.yOf axis v =
      c.height - c.padding - (v - axis.min) / (axis.max - axis.min) * c.plotHeight := rfl

/-- Equal differences of values are drawn as equal differences of heights. -/
theorem yOf_sub_yOf (c : Canvas ℚ) (axis : ValueAxis ℚ) (v w : ℚ) :
    c.yOf axis v - c.yOf axis w = (w - v) * (c.plotHeight / (axis.max - axis.min)) := by
  rw [yOf_rat, yOf_rat]
  ring

/-- A greater value stands higher on the screen. -/
theorem yOf_strictAnti (hc : 0 < c.plotHeight) (h : axis.min < axis.max) :
    StrictAnti (c.yOf axis) := by
  intro v w hvw
  have hslope : 0 < c.plotHeight / (axis.max - axis.min) := div_pos hc (sub_pos.mpr h)
  have hsub := c.yOf_sub_yOf axis v w
  have hpos := mul_pos (sub_pos.mpr hvw) hslope
  linarith

/-- On an axis that runs down a greater value stands lower. -/
theorem yOf_strictMono (hc : 0 < c.plotHeight) (h : axis.max < axis.min) :
    StrictMono (c.yOf axis) := by
  intro v w hvw
  have hslope : c.plotHeight / (axis.max - axis.min) < 0 :=
    div_neg_of_pos_of_neg hc (sub_neg.mpr h)
  have hsub := c.yOf_sub_yOf axis v w
  have hneg := mul_neg_of_pos_of_neg (sub_pos.mpr hvw) hslope
  linarith

theorem yOf_min (c : Canvas ℚ) (axis : ValueAxis ℚ) :
    c.yOf axis axis.min = c.height - c.padding := by
  rw [yOf_rat]
  ring

theorem yOf_max (c : Canvas ℚ) (h : axis.min ≠ axis.max) : c.yOf axis axis.max = c.padding := by
  have hspan : axis.max - axis.min ≠ 0 := sub_ne_zero.mpr h.symm
  rw [yOf_rat, plotHeight_rat, div_self hspan]
  ring

/-- On an axis that runs up, what is no more than the greatest value is drawn below the upper
padding. -/
theorem padding_le_yOf_iff (c : Canvas ℚ) (hc : 0 < c.plotHeight) (h : axis.min < axis.max)
    {v : ℚ} : c.padding ≤ c.yOf axis v ↔ v ≤ axis.max := by
  rw [← c.yOf_max h.ne]
  exact (yOf_strictAnti hc h).le_iff_ge

theorem yOf_le_baseline_iff (c : Canvas ℚ) (hc : 0 < c.plotHeight) (h : axis.min < axis.max)
    {v : ℚ} : c.yOf axis v ≤ c.height - c.padding ↔ axis.min ≤ v := by
  rw [← c.yOf_min axis]
  exact (yOf_strictAnti hc h).le_iff_ge

/-- On an axis that runs up a value of the axis is drawn within the padding. -/
theorem yOf_mem (c : Canvas ℚ) (hc : 0 < c.plotHeight) (h : axis.min < axis.max) {v : ℚ}
    (hv : axis.min ≤ v ∧ v ≤ axis.max) :
    c.padding ≤ c.yOf axis v ∧ c.yOf axis v ≤ c.height - c.padding :=
  ⟨(c.padding_le_yOf_iff hc h).mpr hv.2, (c.yOf_le_baseline_iff hc h).mpr hv.1⟩

/-- A value that is beyond the axis by `d` at most is drawn beyond the padding by as much. -/
theorem yOf_within (c : Canvas ℚ) (hc : 0 < c.plotHeight) (h : axis.min < axis.max) {v d : ℚ}
    (hv : axis.min - d ≤ v ∧ v ≤ axis.max + d) :
    c.padding - d * (c.plotHeight / (axis.max - axis.min)) ≤ c.yOf axis v ∧
      c.yOf axis v ≤ c.height - c.padding + d * (c.plotHeight / (axis.max - axis.min)) := by
  have hslope : 0 ≤ c.plotHeight / (axis.max - axis.min) := (div_pos hc (sub_pos.mpr h)).le
  constructor
  · have hsub := c.yOf_sub_yOf axis axis.max v
    have hover := mul_le_mul_of_nonneg_right (sub_le_iff_le_add'.mpr hv.2) hslope
    rw [c.yOf_max h.ne] at hsub
    linarith
  · have hsub := c.yOf_sub_yOf axis v axis.min
    have hunder := mul_le_mul_of_nonneg_right (sub_le_comm.mp hv.1) hslope
    rw [c.yOf_min] at hsub
    linarith

end Canvas

end LineChart
