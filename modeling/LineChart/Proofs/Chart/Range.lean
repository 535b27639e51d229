import LineChart.Proofs.Chart.Bound

namespace LineChart

open Text
open Number (Format IsPositional)

/-! ## Ranges by parts -/

/-- A range is a bound, blanks or none, an arrow, blanks or none, and a bound. -/
theorem rangeAt?_eq_some_iff {s low high : List Char} :
    rangeAt? s = some (low, high) ↔ ∃ gap after rest, s = low ++ (gap ++ ("-->".toList ++ after)) ∧
      IsBound low ∧ (∀ c ∈ gap, isBlank c) ∧ bound? (after.dropWhile isBlank) = some (high, rest) := by
  constructor
  · intro h
    simp only [rangeAt?, Option.bind_eq_bind, Option.bind_eq_some_iff, Option.pure_def,
      Option.some.injEq, Prod.mk.injEq] at h
    obtain ⟨⟨b, t⟩, hb, after, harrow, ⟨b', rest⟩, hb', rfl, rfl⟩ := h
    obtain ⟨hlow, rfl⟩ := isBound_of_bound? hb
    rw [List.isPrefixOf?_eq_some_iff_append_eq] at harrow
    refine ⟨t.takeWhile isBlank, after, rest, ?_, hlow, fun c hc => List.mem_takeWhile_imp hc, hb'⟩
    rw [harrow, List.takeWhile_append_dropWhile]
  · rintro ⟨gap, after, rest, rfl, hlow, hgap, hhigh⟩
    have hdash : Halts isBlank ("-->".toList ++ after) := halts_cons.mpr (by decide)
    have hstop : Halts continuesBound gap := fun c hc =>
      continuesBound_eq_false_of_isBlank (hgap c (List.mem_of_mem_head? hc))
    have hhalt : Halts continuesBound (gap ++ ("-->".toList ++ after)) :=
      hstop.append (halts_cons.mpr (by decide))
    rw [rangeAt?, hlow.bound?_append hhalt]
    simp only [Option.bind_eq_bind, Option.bind_some, dropWhile_append_of_halts hgap hdash]
    rw [List.isPrefixOf?_eq_some_iff_append_eq.mpr rfl]
    simp only [Option.bind_some, hhigh, Option.pure_def]

/-- No quote and no bracket stands in front of the tip of an arrow. -/
theorem IsBound.not_mem_gap {b gap : List Char} (hb : IsBound b) (hgap : ∀ c ∈ gap, isBlank c)
    {c : Char} (hc : c = '"' ∨ c = '>') : c ∉ b ++ gap := by
  intro hm
  rcases List.mem_append.mp hm with hm | hm
  · have hmem := hb.of_mem hm
    rcases hc with rfl | rfl <;> revert hmem <;> decide
  · have hblank := hgap c hm
    rcases hc with rfl | rfl <;> revert hblank <;> decide

/-! ## Texts in which no range starts -/

/-- A quote comes before any `>`, so that no arrow can be reached. -/
def QuoteFirst : List Char → Prop
  | [] => False
  | c :: s => c = '"' ∨ c ≠ '>' ∧ QuoteFirst s

theorem QuoteFirst.append {s : List Char} (hs : '>' ∉ s) (t : List Char) :
    QuoteFirst (s ++ '"' :: t) := by
  induction s with
  | nil => exact .inl rfl
  | cons c s ih =>
    rw [List.mem_cons, not_or] at hs
    exact .inr ⟨Ne.symm hs.1, ih hs.2⟩

theorem not_quoteFirst {s : List Char} (hs : '"' ∉ s) (t : List Char) :
    ¬QuoteFirst (s ++ '>' :: t) := by
  induction s with
  | nil => simp [QuoteFirst]
  | cons c s ih =>
    rw [List.mem_cons, not_or] at hs
    rintro (hc | ⟨-, h⟩)
    · exact hs.1 hc.symm
    · exact ih hs.2 h

theorem QuoteFirst.rangeAt? {s : List Char} (h : QuoteFirst s) : rangeAt? s = none := by
  cases hr : LineChart.rangeAt? s with
  | none => rfl
  | some bounds =>
    obtain ⟨gap, after, -, rfl, hlow, hgap, -⟩ := rangeAt?_eq_some_iff.mp hr
    have hquote : '"' ∉ bounds.1 ++ gap ++ "--".toList := by
      rw [List.mem_append, not_or]
      exact ⟨hlow.not_mem_gap hgap (.inl rfl), by decide⟩
    refine absurd ?_ (not_quoteFirst hquote after)
    simpa using h

/-- A range is sought behind a quote if no `>` stands before it. -/
theorem findRange?_append {s : List Char} (hs : '>' ∉ s) (t : List Char) :
    findRange? (s ++ '"' :: t) = findRange? t := by
  induction s with
  | nil =>
    have h : rangeAt? ('"' :: t) = none := QuoteFirst.rangeAt? (.inl rfl)
    rw [List.nil_append, findRange?, h]
  | cons c s ih =>
    have h := (QuoteFirst.append hs t).rangeAt?
    rw [List.mem_cons, not_or] at hs
    rw [List.cons_append] at h ⊢
    rw [findRange?, h]
    exact ih hs.2

theorem findRange?_of_rangeAt? {s : List Char} {bounds : List Char × List Char}
    (h : rangeAt? s = some bounds) : findRange? s = some bounds := by
  cases s with
  | nil => simp [rangeAt?, bound?] at h
  | cons c s => rw [findRange?, h]

/-! ## Spelled bounds -/

/-- A number without an exponent is spelled as a bound. -/
theorem isBound_chars {v : Float} (hv : IsPositional v) : IsBound (Format.diagram.chars v) := by
  obtain ⟨whole, fraction, heq, hne, hw, hf⟩ := hv.exists_chars_eq
  rw [heq]
  exact .mk _ hne (fun c hc => isDecimalDigit_of_isDigit (hw c hc))
    fun c hc => isDecimalDigit_of_isDigit (hf c hc)

/-- A spelled range is read as it stands. -/
theorem rangeAt?_chars {low high : Float} (hl : IsPositional low) (hh : IsPositional high) :
    rangeAt? (Format.diagram.chars low ++ (" --> ".toList ++ Format.diagram.chars high)) =
      some (Format.diagram.chars low, Format.diagram.chars high) := by
  have hblank : (Format.diagram.chars high).dropWhile isBlank = Format.diagram.chars high :=
    dropWhile_of_halts fun c hc => isBlank_eq_false_of_isPadding
      (Number.isPadding_eq_false_of_isNumberChar
        (Number.isNumberChar_of_mem_chars high c (List.mem_of_mem_head? hc)))
  refine rangeAt?_eq_some_iff.mpr ⟨[' '], ' ' :: Format.diagram.chars high, [], rfl,
    isBound_chars hl, List.forall_mem_singleton.mpr (by decide), ?_⟩
  rw [List.dropWhile_cons_of_pos (by decide), hblank]
  simpa using (isBound_chars hh).bound?_append (halts_nil _)

end LineChart
