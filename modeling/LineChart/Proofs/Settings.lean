import LineChart.Settings

namespace LineChart

theorem Canvas.fault?_standard : (Canvas.standard : Canvas Float).fault? = none := by decide

/-- Over exact numbers a canvas without a fault has a size, margins that are not negative, and room
between them. -/
theorem Canvas.fault?_eq_none_iff (c : Canvas Rat) :
    c.fault? = none ↔ (0 < c.width ∧ 0 < c.height) ∧ (0 ≤ c.padding ∧ 0 ≤ c.xOffset) ∧
      0 < c.plotHeight ∧ 0 < c.innerWidth := by
  have hfault : c.fault? =
      if ¬(0 < c.width ∧ 0 < c.height) then some .size
      else if ¬(0 ≤ c.padding ∧ 0 ≤ c.xOffset) then some .margins
      else if c.plotHeight ≤ 0 ∨ c.innerWidth ≤ 0 then some .drawableArea
      else none := rfl
  rw [hfault]
  by_cases hsize : 0 < c.width ∧ 0 < c.height
  · rw [if_neg (not_not_intro hsize)]
    by_cases hmargins : 0 ≤ c.padding ∧ 0 ≤ c.xOffset
    · rw [if_neg (not_not_intro hmargins)]
      by_cases harea : c.plotHeight ≤ 0 ∨ c.innerWidth ≤ 0
      · simp only [if_pos harea, reduceCtorEq, false_iff]
        rintro ⟨-, -, hheight, hwidth⟩
        rcases harea with h | h
        · exact Rat.not_lt.mpr h hheight
        · exact Rat.not_lt.mpr h hwidth
      · rw [if_neg harea]
        rw [not_or, Rat.not_le, Rat.not_le] at harea
        simp [hsize, hmargins, harea]
    · simp [hmargins]
  · simp [hsize]

variable {α : Type} [Scalar α]

theorem Settings.ofChoices_eq_ok_iff {choices : List (Choice α)} {s : Settings α} :
    Settings.ofChoices choices = .ok s ↔
      choices.foldl Settings.choose .standard = s ∧ s.canvas.fault? = none := by
  unfold Settings.ofChoices
  dsimp only
  split
  · rename_i fault hfault
    simp only [reduceCtorEq, false_iff, not_and]
    rintro rfl hnone
    rw [hfault] at hnone
    contradiction
  · rename_i hfault
    constructor
    · intro h
      obtain rfl := Except.ok.inj h
      exact ⟨rfl, hfault⟩
    · rintro ⟨rfl, -⟩
      rfl

/-- A time stamp is no fault. -/
theorem Settings.ofChoices_modified (stamp : String) :
    Settings.ofChoices [.modified stamp] =
      .ok ({ Settings.standard with modified := some stamp } : Settings Float) :=
  Settings.ofChoices_eq_ok_iff.mpr ⟨rfl, Canvas.fault?_standard⟩

end LineChart
