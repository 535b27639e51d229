namespace LineChart

variable {σ τ β : Type}

/-- What is set over and over again is what the last of those who set it say, or else what it was. -/
theorem field_foldl (step : σ → τ → σ) (field : σ → β) (set? : τ → Option β)
    (h : ∀ (s : σ) (t : τ), field (step s t) = (set? t).getD (field s)) (ts : List τ) (s : σ) :
    field (ts.foldl step s) = (ts.filterMap set?).getLast?.getD (field s) := by
  induction ts generalizing s with
  | nil => rfl
  | cons t ts ih =>
    rw [List.foldl_cons, ih, h]
    cases ht : set? t with
    | none => rw [List.filterMap_cons_none ht, Option.getD_none]
    | some value =>
      rw [List.filterMap_cons_some ht, List.getLast?_cons]
      rfl

/-- The last setting stands with the last of those who set something. -/
theorem exists_last_of_getLast?_filterMap {set? : τ → Option β} {ts : List τ} {b : β}
    (h : (ts.filterMap set?).getLast? = some b) :
    ∃ before t after, ts = before ++ t :: after ∧ set? t = some b ∧ ∀ u ∈ after, set? u = none := by
  rw [List.getLast?_filterMap, List.findSome?_eq_some_iff] at h
  obtain ⟨after, t, before, hts, ht, hafter⟩ := h
  refine ⟨before.reverse, t, after.reverse, ?_, ht, fun u hu => hafter u (List.mem_reverse.mp hu)⟩
  rw [← List.reverse_reverse ts, hts]
  simp

end LineChart
