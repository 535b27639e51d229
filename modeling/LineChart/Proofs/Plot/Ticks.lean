import Mathlib.Algebra.Order.Round
import Mathlib.Data.Int.ConditionallyCompleteOrder
import Mathlib.Order.Fin.Basic
import LineChart.Proofs.Plot.Scale

/-! The ticks of a value axis over the rationals: what they show and where they stand. -/

namespace LineChart

/-- `n` is the whole number nearest to `x`, and the upper one of two at the same distance. -/
structure IsNearestUp (x : ℚ) (n : ℤ) : Prop where
  nearest : ∀ m : ℤ, |x - n| ≤ |x - m|
  upper : ∀ m : ℤ, |x - m| = |x - n| → m ≤ n

theorem IsNearestUp.unique {x : ℚ} {m n : ℤ} (hm : IsNearestUp x m) (hn : IsNearestUp x n) :
    m = n := by
  have hdist : |x - m| = |x - n| := le_antisymm (hm.nearest n) (hn.nearest m)
  exact le_antisymm (hn.upper m hdist) (hm.upper n hdist.symm)

theorem isNearestUp_round (x : ℚ) : IsNearestUp x (round x) where
  nearest m := round_le x m
  upper m h := by
    -- a whole number above `round x` is more than a half away
    by_contra! hm
    have hlow := sub_half_lt_round x
    have hup : (round x : ℚ) + 1 ≤ m := by exact_mod_cast hm
    have hfar : 1 / 2 < |x - m| := by
      rw [abs_sub_comm]
      apply lt_of_lt_of_le _ (le_abs_self _)
      linarith
    have hnear := abs_sub_round x
    linarith

theorem isNearestUp_iff {x : ℚ} {n : ℤ} :
    IsNearestUp x n ↔ (n : ℚ) - 1 / 2 ≤ x ∧ x < n + 1 / 2 := by
  have hround : IsNearestUp x n ↔ round x = n := by
    constructor
    · intro h
      exact (isNearestUp_round x).unique h
    · rintro rfl
      exact isNearestUp_round x
  rw [hround, round_eq_iff, Set.mem_Ico]

theorem round_mono {x y : ℚ} (h : x ≤ y) : round x ≤ round y := by
  rw [round_eq, round_eq]
  apply Int.floor_mono
  linarith

theorem round_of_fract_lt {x : ℚ} (h : Int.fract x < 1 / 2) : round x = ⌊x⌋ := by
  have hfract := Int.self_sub_floor x
  have hnonneg := Int.fract_nonneg x
  rw [round_eq_iff, Set.mem_Ico]
  constructor <;> linarith

theorem round_of_le_fract {x : ℚ} (h : 1 / 2 ≤ Int.fract x) : round x = ⌊x⌋ + 1 := by
  have hfract := Int.self_sub_floor x
  have hlt := Int.fract_lt_one x
  rw [round_eq_iff, Set.mem_Ico]
  push_cast
  constructor <;> linarith

theorem round_le_self_iff (x : ℚ) : (round x : ℚ) ≤ x ↔ Int.fract x < 1 / 2 := by
  constructor
  · intro h
    by_contra! hup
    rw [round_of_le_fract hup] at h
    push_cast at h
    have hlt := Int.lt_floor_add_one x
    linarith
  · intro h
    rw [round_of_fract_lt h]
    exact Int.floor_le x

theorem self_le_round_iff (x : ℚ) :
    x ≤ round x ↔ Int.fract x = 0 ∨ 1 / 2 ≤ Int.fract x := by
  rcases lt_or_ge (Int.fract x) (1 / 2) with h | h
  · have hfract := Int.self_sub_floor x
    have hnonneg := Int.fract_nonneg x
    rw [round_of_fract_lt h, or_iff_left h.not_ge]
    constructor <;> intro hx <;> linarith
  · rw [round_of_le_fract h, or_iff_right_of_imp fun _ => h]
    push_cast
    simp only [h, iff_true]
    exact (Int.lt_floor_add_one x).le

namespace ValueAxis

/-- The `i`-th of the points that divide an axis into even steps. -/
def division (axis : ValueAxis ℚ) (i : ℕ) : ℚ :=
  axis.min + (axis.max - axis.min) * i / tickSteps

variable {axis : ValueAxis ℚ}

theorem shown_eq_round (axis : ValueAxis ℚ) (i : ℕ) : axis.shown i = round (axis.division i) := by
  rw [round_eq, division, mul_div_assoc]
  rfl

theorem tickSteps_pos : (0 : ℚ) < tickSteps := by norm_num [tickSteps]

@[simp] theorem division_zero (axis : ValueAxis ℚ) : axis.division 0 = axis.min := by
  simp [division]

@[simp] theorem division_last (axis : ValueAxis ℚ) : axis.division tickSteps = axis.max := by
  rw [division, mul_div_assoc, div_self tickSteps_pos.ne']
  ring

theorem division_sub_division (axis : ValueAxis ℚ) (i j : ℕ) :
    axis.division j - axis.division i = (axis.max - axis.min) * ((j - i) / tickSteps) := by
  unfold division
  ring

theorem stride_nonneg {i j : ℕ} (hij : i ≤ j) : 0 ≤ ((j : ℚ) - i) / tickSteps := by
  have hij' : (i : ℚ) ≤ j := Nat.cast_le.mpr hij
  exact div_nonneg (sub_nonneg.mpr hij') tickSteps_pos.le

/-- Where a step is a unit at least, so is the distance of any two divisions. -/
theorem one_le_span_mul {i j : ℕ} {span : ℚ} (hij : i < j) (h : tickSteps ≤ span) :
    1 ≤ span * ((j - i) / tickSteps) := by
  have hij' : (i : ℚ) + 1 ≤ j := by exact_mod_cast hij
  have hspan : 0 ≤ span := tickSteps_pos.le.trans h
  rw [mul_div_assoc', le_div_iff₀ tickSteps_pos, one_mul]
  calc (tickSteps : ℚ) ≤ span := h
    _ = span * 1 := (mul_one span).symm
    _ ≤ span * (j - i) := mul_le_mul_of_nonneg_left (by linarith) hspan

theorem division_mono (h : axis.min ≤ axis.max) : Monotone axis.division := by
  intro i j hij
  have hsub := axis.division_sub_division i j
  have hnonneg := mul_nonneg (sub_nonneg.mpr h) (stride_nonneg hij)
  linarith

theorem division_anti (h : axis.max ≤ axis.min) : Antitone axis.division := by
  intro i j hij
  have hsub := axis.division_sub_division i j
  have hnonpos := mul_nonpos_of_nonpos_of_nonneg (sub_nonpos.mpr h) (stride_nonneg hij)
  linarith

theorem division_mem (h : axis.min ≤ axis.max) {i : ℕ} (hi : i ≤ tickSteps) :
    axis.min ≤ axis.division i ∧ axis.division i ≤ axis.max := by
  have hlow := division_mono h (Nat.zero_le i)
  have hhigh := division_mono h hi
  rw [division_zero] at hlow
  rw [division_last] at hhigh
  exact ⟨hlow, hhigh⟩

/-! ## Whole numbers shown -/

theorem isNearestUp_shown (axis : ValueAxis ℚ) (i : ℕ) :
    IsNearestUp (axis.division i) (axis.shown i) := by
  rw [shown_eq_round]
  exact isNearestUp_round _

theorem shown_le_shown {i j : ℕ} (h : axis.division i ≤ axis.division j) :
    axis.shown i ≤ axis.shown j := by
  rw [shown_eq_round, shown_eq_round]
  exact round_mono h

/-- Divisions a whole unit apart are rounded to different numbers. -/
theorem shown_lt_shown {i j : ℕ} (h : axis.division i + 1 ≤ axis.division j) :
    axis.shown i < axis.shown j := by
  rw [shown_eq_round, shown_eq_round]
  calc round (axis.division i) < round (axis.division i) + 1 := Int.lt_succ _
    _ = round (axis.division i + 1) := (round_add_one _).symm
    _ ≤ round (axis.division j) := round_mono h

theorem shown_mono (h : axis.min ≤ axis.max) : Monotone axis.shown :=
  fun _ _ hij => shown_le_shown (division_mono h hij)

theorem shown_anti (h : axis.max ≤ axis.min) : Antitone axis.shown :=
  fun _ _ hij => shown_le_shown (division_anti h hij)

theorem shown_strictMono (h : tickSteps ≤ axis.max - axis.min) : StrictMono axis.shown := by
  intro i j hij
  apply shown_lt_shown
  have hsub := axis.division_sub_division i j
  have hstep := one_le_span_mul hij h
  linarith

theorem shown_strictAnti (h : tickSteps ≤ axis.min - axis.max) : StrictAnti axis.shown := by
  intro i j hij
  apply shown_lt_shown
  have hsub := axis.division_sub_division i j
  have hstep := one_le_span_mul hij h
  linarith

/-- Rounding leads out of the axis by half a unit at most. -/
theorem shown_within (h : axis.min ≤ axis.max) {i : ℕ} (hi : i ≤ tickSteps) :
    axis.min - 1 / 2 ≤ axis.shown i ∧ axis.shown i ≤ axis.max + 1 / 2 := by
  obtain ⟨hlow, hhigh⟩ := isNearestUp_iff.mp (axis.isNearestUp_shown i)
  obtain ⟨hmin, hmax⟩ := division_mem h hi
  constructor <;> linarith

/-- All whole numbers shown are values of the axis exactly if rounding leads out of it at neither
bound. -/
theorem shown_mem_iff (h : axis.min ≤ axis.max) :
    (∀ i ≤ tickSteps, axis.min ≤ axis.shown i ∧ axis.shown i ≤ axis.max) ↔
      (Int.fract axis.min = 0 ∨ 1 / 2 ≤ Int.fract axis.min) ∧ Int.fract axis.max < 1 / 2 := by
  have hfirst : axis.shown 0 = round axis.min := by rw [shown_eq_round, division_zero]
  have hlast : axis.shown tickSteps = round axis.max := by rw [shown_eq_round, division_last]
  rw [← self_le_round_iff, ← round_le_self_iff, ← hfirst, ← hlast]
  constructor
  · intro hall
    exact ⟨(hall 0 (Nat.zero_le _)).1, (hall tickSteps le_rfl).2⟩
  · rintro ⟨hmin, hmax⟩ i hi
    have hlow : (axis.shown 0 : ℚ) ≤ axis.shown i := by
      exact_mod_cast shown_mono h (Nat.zero_le i)
    have hhigh : (axis.shown i : ℚ) ≤ axis.shown tickSteps := by exact_mod_cast shown_mono h hi
    exact ⟨hmin.trans hlow, hhigh.trans hmax⟩

theorem shown_zero {a : ℤ} (h : axis.min = a) : axis.shown 0 = a := by
  rw [shown_eq_round, division_zero, h, round_intCast]

theorem shown_last {b : ℤ} (h : axis.max = b) : axis.shown tickSteps = b := by
  rw [shown_eq_round, division_last, h, round_intCast]

/-! ## Heights of the ticks -/

/-- The height at which the `i`-th tick is drawn. -/
def tickHeight (axis : ValueAxis ℚ) (canvas : Canvas ℚ) (i : ℕ) : ℚ :=
  canvas.yOf axis (axis.shown i)

theorem ticks_eq_ofFn (axis : ValueAxis ℚ) (canvas : Canvas ℚ) :
    axis.ticks canvas = List.ofFn fun i : Fin (tickSteps + 1) =>
      ⟨i, axis.shown i, axis.tickHeight canvas i⟩ := by
  apply List.ext_getElem
  · simp [ticks]
  · intro i hi hi'
    rw [List.getElem_ofFn]
    simp [ticks, tickHeight, tickValue_rat]

theorem mem_ticks_iff {axis : ValueAxis ℚ} {canvas : Canvas ℚ} {t : Tick ℚ} :
    t ∈ axis.ticks canvas ↔
      ∃ i ≤ tickSteps, t = ⟨i, axis.shown i, axis.tickHeight canvas i⟩ := by
  rw [ticks_eq_ofFn, List.mem_ofFn]
  constructor
  · rintro ⟨i, rfl⟩
    exact ⟨i, Fin.is_le i, rfl⟩
  · rintro ⟨i, hi, rfl⟩
    exact ⟨⟨i, Nat.lt_succ_of_le hi⟩, rfl⟩

theorem forall_mem_ticks_iff {axis : ValueAxis ℚ} {canvas : Canvas ℚ} {P : Tick ℚ → Prop} :
    (∀ t ∈ axis.ticks canvas, P t) ↔
      ∀ i ≤ tickSteps, P ⟨i, axis.shown i, axis.tickHeight canvas i⟩ := by
  constructor
  · intro h i hi
    exact h _ (mem_ticks_iff.mpr ⟨i, hi, rfl⟩)
  · intro h t ht
    obtain ⟨i, hi, rfl⟩ := mem_ticks_iff.mp ht
    exact h i hi

variable {canvas : Canvas ℚ}

/-- Whichever way the axis runs, a later tick stands no lower. -/
theorem tickHeight_anti (hcanvas : 0 < canvas.plotHeight) (haxis : axis.min ≠ axis.max) :
    Antitone (axis.tickHeight canvas) := by
  rcases lt_or_gt_of_ne haxis with h | h
  · have hshown := (Int.cast_mono (R := ℚ)).comp (shown_mono h.le)
    exact (Canvas.yOf_strictAnti hcanvas h).antitone.comp_monotone hshown
  · have hshown := (Int.cast_mono (R := ℚ)).comp_antitone (shown_anti h.le)
    exact (Canvas.yOf_strictMono hcanvas h).monotone.comp_antitone hshown

/-- On an axis of at least one unit a step no two ticks stand at one height. -/
theorem tickHeight_strictAnti (hcanvas : 0 < canvas.plotHeight)
    (h : tickSteps ≤ |axis.max - axis.min|) : StrictAnti (axis.tickHeight canvas) := by
  rcases le_abs.mp h with hup | hdown
  · have haxis : axis.min < axis.max := sub_pos.mp (tickSteps_pos.trans_le hup)
    have hshown := (Int.cast_strictMono (R := ℚ)).comp (shown_strictMono hup)
    exact (Canvas.yOf_strictAnti hcanvas haxis).comp_strictMono hshown
  · rw [neg_sub] at hdown
    have haxis : axis.max < axis.min := sub_pos.mp (tickSteps_pos.trans_le hdown)
    have hshown := (Int.cast_strictMono (R := ℚ)).comp_strictAnti (shown_strictAnti hdown)
    exact (Canvas.yOf_strictMono hcanvas haxis).comp_strictAnti hshown

theorem tickHeight_zero (canvas : Canvas ℚ) (h : ∃ a : ℤ, axis.min = a) :
    axis.tickHeight canvas 0 = canvas.height - canvas.padding := by
  obtain ⟨a, ha⟩ := h
  rw [tickHeight, shown_zero ha, ← ha, canvas.yOf_min]

theorem tickHeight_last (canvas : Canvas ℚ) (haxis : axis.min ≠ axis.max)
    (h : ∃ b : ℤ, axis.max = b) : axis.tickHeight canvas tickSteps = canvas.padding := by
  obtain ⟨b, hb⟩ := h
  rw [tickHeight, shown_last hb, ← hb, canvas.yOf_max haxis]

/-- A tick stands in the height of the plot exactly if its number is a value of the axis. -/
theorem tickHeight_mem_iff (hcanvas : 0 < canvas.plotHeight) (h : axis.min < axis.max) (i : ℕ) :
    (canvas.padding ≤ axis.tickHeight canvas i ∧
        axis.tickHeight canvas i ≤ canvas.height - canvas.padding) ↔
      axis.min ≤ axis.shown i ∧ axis.shown i ≤ axis.max := by
  rw [tickHeight, canvas.padding_le_yOf_iff hcanvas h, canvas.yOf_le_baseline_iff hcanvas h,
    and_comm]

/-- The ticks show the whole numbers nearest to the even divisions of the axis, in the order in
which the axis runs, and go up the screen, without repeating a height where a step is a unit at
least. Whole bounds are drawn on the ends of the plot. -/
theorem ticks_placed {canvas : Canvas ℚ} (axis : ValueAxis ℚ) (haxis : axis.min ≠ axis.max)
    (hcanvas : 0 < canvas.plotHeight) :
    ∃ (shown : Fin (tickSteps + 1) → ℤ) (y : Fin (tickSteps + 1) → ℚ),
      axis.ticks canvas = List.ofFn (fun i => ⟨i, shown i, y i⟩) ∧
      (∀ i : Fin (tickSteps + 1),
        IsNearestUp (axis.min + (axis.max - axis.min) * i.val / tickSteps) (shown i)) ∧
      (axis.min < axis.max → Monotone shown) ∧
      (axis.max < axis.min → Antitone shown) ∧
      Antitone y ∧
      (tickSteps ≤ |axis.max - axis.min| → StrictAnti y) ∧
      ((∃ a : ℤ, axis.min = a) → (∃ b : ℤ, axis.max = b) →
        y 0 = canvas.height - canvas.padding ∧ y (Fin.last tickSteps) = canvas.padding) := by
  have hindex : StrictMono (Fin.val : Fin (tickSteps + 1) → ℕ) := Fin.val_strictMono
  refine ⟨fun i => axis.shown i, fun i => axis.tickHeight canvas i, axis.ticks_eq_ofFn canvas,
    fun i => axis.isNearestUp_shown i, fun h => (shown_mono h.le).comp hindex.monotone,
    fun h => (shown_anti h.le).comp_monotone hindex.monotone,
    (tickHeight_anti hcanvas haxis).comp_monotone hindex.monotone,
    fun h => (tickHeight_strictAnti hcanvas h).comp_strictMono hindex,
    fun hmin hmax => ⟨tickHeight_zero canvas hmin, tickHeight_last canvas haxis hmax⟩⟩

/-- An axis that runs down, every division half-way between two whole numbers. -/
theorem ticks_placed_down :
    let axis : ValueAxis ℚ := ⟨"", 1 / 2, -9 / 2⟩
    let canvas : Canvas ℚ := .standard
    axis.min ≠ axis.max ∧ 0 < canvas.plotHeight ∧ (tickSteps : ℚ) ≤ |axis.max - axis.min| ∧
      ∃ (shown : Fin (tickSteps + 1) → ℤ) (y : Fin (tickSteps + 1) → ℚ),
        axis.ticks canvas = List.ofFn (fun i => ⟨i, shown i, y i⟩) ∧
        shown 0 = 1 ∧ shown 1 = 0 ∧ Antitone shown ∧ StrictAnti y := by
  intro axis canvas
  have haxis : axis.min ≠ axis.max := by norm_num [axis]
  have hcanvas : 0 < canvas.plotHeight := by
    norm_num [canvas, Canvas.plotHeight_rat, Canvas.standard, Scalar.ofNat]
  have hsteps : (tickSteps : ℚ) ≤ |axis.max - axis.min| := by norm_num [axis, tickSteps, abs]
  obtain ⟨shown, y, hticks, hnearest, -, hdown, -, hapart, -⟩ := ticks_placed axis haxis hcanvas
  refine ⟨haxis, hcanvas, hsteps, shown, y, hticks, ?_, ?_, hdown (by norm_num [axis]),
    hapart hsteps⟩
  · apply (hnearest 0).unique
    apply isNearestUp_iff.mpr
    norm_num [axis]
  · apply (hnearest 1).unique
    apply isNearestUp_iff.mpr
    norm_num [axis, tickSteps]

end ValueAxis

end LineChart
