import LineChart.Proofs.Chart.Range
import LineChart.Proofs.Chart.Reading
import LineChart.Proofs.Number.Literal

namespace LineChart

open Text
open Number (IsAscii IsNumeral LongestPrefix Numeral ofToken pointed signChars)

/-! ## Numbers and tokens -/

theorem Number.isNaN_ofToken_iff (token : List Char) :
    isNaN (ofToken token) ↔ Numeral.scan? (hyphenated (trimPadding token)) = none := by
  cases h : Numeral.scan? (hyphenated (trimPadding token)) with
  | none =>
    rw [ofToken_eq h]
    exact iff_of_true (by decide) rfl
  | some n =>
    rw [ofToken_eq h]
    exact iff_of_false (by simp [n.roundsTo_toFloat.isNaN_eq_false]) (Option.some_ne_none n)

/-! ## Digits of two kinds -/

/-- Of the decimal digits those in ASCII make numbers. -/
theorem isDigit_iff_of_isDecimalDigit {c : Char} (h : isDecimalDigit c) :
    c.isDigit ↔ c.toNat < 128 := by
  constructor
  · intro hd
    exact Number.isAscii_of_isDigit (List.forall_mem_singleton.mpr hd) c List.mem_cons_self
  · intro hascii
    obtain ⟨r, hr, hin⟩ := List.any_eq_true.mp h
    have hlow : ∀ r ∈ decimalDigitRanges, r = (48, 57) ∨ 128 ≤ r.1 := by decide
    simp only [Bool.and_eq_true, decide_eq_true_eq] at hin
    rcases hlow r hr with rfl | hlow
    · exact Char.isDigit_iff_toNat.mpr hin
    · omega

/-- The first digit is one of ASCII. -/
def LeadsAscii (b : List Char) : Prop := (b.find? isDecimalDigit).all Char.isDigit

instance (b : List Char) : Decidable (LeadsAscii b) :=
  inferInstanceAs (Decidable ((b.find? isDecimalDigit).all Char.isDigit = true))

theorem mem_pointed {c : Char} {fraction : List Char} (h : c ∈ fraction) :
    c ∈ pointed fraction := by
  rw [pointed, if_neg (List.ne_nil_of_mem h)]
  exact List.mem_cons_of_mem _ h

/-- A number is read from the whole token. -/
def IsReadWhole (token : List Char) : Prop :=
  LongestPrefix IsNumeral (hyphenated (trimPadding token)) token

namespace IsBound

variable {b : List Char}

theorem isPadding_eq_false (hb : IsBound b) {c : Char} (hc : c ∈ b) : isPadding c = false := by
  rcases hb.of_mem hc with hd | rfl | rfl
  · have hmark : c ≠ '\uFEFF' := ne_of_isDecimalDigit hd (by decide)
    simp [isPadding, isBlank_eq_false_of_isDecimalDigit hd, hmark]
  · decide
  · decide

/-- Nothing is trimmed from a bound, and no minus sign is left in it. -/
theorem hyphenated_trimPadding (hb : IsBound b) : hyphenated (trimPadding b) = b := by
  have htrim : trimPadding b = b := trimWhile_of_halts
    (fun c hc => hb.isPadding_eq_false (List.mem_of_mem_head? hc))
    (fun c hc => hb.isPadding_eq_false (List.mem_reverse.mp (List.mem_of_mem_head? hc)))
  rw [htrim]
  apply hyphenated_of_not_mem
  intro hc
  have hmem := hb.of_mem hc
  revert hmem
  decide

theorem isReadWhole_iff (hb : IsBound b) : IsReadWhole b ↔ IsAscii b := by
  rw [IsReadWhole, hb.hyphenated_trimPadding]
  constructor
  · intro h
    exact h.mem.isAscii
  · intro hascii
    -- nothing longer than the bound stands there, so it need only be a numeral
    refine ⟨?_, List.prefix_rfl, fun w' _ h => h.length_le⟩
    obtain @⟨negative, whole, fraction, hne, hwhole, hfraction⟩ := hb
    rw [Number.isAscii_append, Number.isAscii_append] at hascii
    have hw : ∀ c ∈ whole, c.isDigit := fun c hc =>
      (isDigit_iff_of_isDecimalDigit (hwhole c hc)).mpr (hascii.2.1 c hc)
    have hf : ∀ c ∈ fraction, c.isDigit := fun c hc =>
      (isDigit_iff_of_isDecimalDigit (hfraction c hc)).mpr (hascii.2.2 c (mem_pointed hc))
    rw [← List.append_nil (pointed fraction)]
    exact ⟨_, Number.written_of_canonical_decimal hne hw hf .absent⟩

/-- A bound whose first digit is not ASCII is no number. -/
theorem isNaN_ofToken_iff (hb : IsBound b) : Number.isNaN (ofToken b) ↔ ¬LeadsAscii b := by
  rw [Number.isNaN_ofToken_iff, hb.hyphenated_trimPadding]
  obtain @⟨negative, whole, fraction, hne, hwhole, hfraction⟩ := hb
  obtain ⟨c, digits, rfl⟩ := List.exists_cons_of_ne_nil hne
  have hc : isDecimalDigit c := hwhole c List.mem_cons_self
  -- the sign and the first digit decide, whatever follows them
  rw [List.cons_append]
  generalize digits ++ pointed fraction = t
  have hleads : LeadsAscii (signChars negative ++ c :: t) ↔ c.isDigit := by
    have hfind : (signChars negative ++ c :: t).find? isDecimalDigit = some c := by
      cases negative with
      | false => exact List.find?_cons_of_pos hc
      | true => exact (List.find?_cons_of_neg (by decide)).trans (List.find?_cons_of_pos hc)
    rw [LeadsAscii, hfind, Option.all_some]
  have hsign : Halts Number.isSign (c :: t) := by
    have hminus : c ≠ '-' := ne_of_isDecimalDigit hc (by decide)
    have hplus : c ≠ '+' := ne_of_isDecimalDigit hc (by decide)
    exact halts_cons.mpr (by simp [Number.isSign, hminus, hplus])
  have hword : ¬"Infinity".toList <+: c :: t := fun h =>
    ne_of_isDecimalDigit hc (by decide) (List.cons_prefix_cons.mp h).1.symm
  have hpoint : c ≠ '.' := ne_of_isDecimalDigit hc (by decide)
  rw [hleads, Numeral.scan?_eq, Number.signOf_append negative hsign, Option.map_eq_none_iff,
    Number.Magnitude.scan?_of_no_word hword]
  by_cases hd : c.isDigit
  · simp [hd]
  · have hhalt : Halts (· == '.') (c :: t) := halts_cons.mpr (by simpa using hpoint)
    simp [hd, Number.fractionOf_of_halts hhalt]

end IsBound

/-! ## Bounds of a text -/

/-- The bounds of the last range that a text has for its value axis. -/
def lastRange (text : String) : Option (List Char × List Char) :=
  ((directives "y-axis" text).filterMap fun rest => findRange? (hyphenated (trim rest))).getLast?

theorem Chart.range_ofText (text : String) :
    ((ofText text).valueAxis.min, (ofText text).valueAxis.max) =
      ((lastRange text).map fun (low, high) => (ofToken low, ofToken high)).getD
        (ValueAxis.percent.min, ValueAxis.percent.max) := by
  rw [range_eq_lastSetting, lastRange, ← List.getLast?_map, List.map_filterMap]
  rfl

theorem isBound_of_findRange? {s low high : List Char} (h : findRange? s = some (low, high)) :
    IsBound low ∧ IsBound high := by
  induction s with
  | nil => exact absurd h (by simp [findRange?])
  | cons c s ih =>
    rw [findRange?] at h
    split at h
    · next bounds hr =>
      obtain rfl := Option.some.inj h
      obtain ⟨gap, after, rest, -, hlow, -, hhigh⟩ := rangeAt?_eq_some_iff.mp hr
      exact ⟨hlow, (isBound_of_bound? hhigh).1⟩
    · exact ih h

theorem exists_findRange?_of_lastRange {text : String} {bounds : List Char × List Char}
    (h : lastRange text = some bounds) : ∃ rest, findRange? rest = some bounds := by
  obtain ⟨rest, -, hrest⟩ := List.mem_filterMap.mp (List.mem_of_getLast? h)
  exact ⟨_, hrest⟩

/-- A range is read whole if and only if its digits are ASCII; a bound of a chart is no number if and
only if the one it is read from begins with another digit. -/
theorem Chart.bounds_read_iff (text : String) :
    (∀ rest low high b, findRange? (hyphenated rest) = some (low, high) → b = low ∨ b = high →
      (IsReadWhole b ↔ IsAscii b) ∧ (Number.isNaN (ofToken b) ↔ ¬LeadsAscii b)) ∧
    (Number.isNaN (ofText text).valueAxis.min ↔
      ∃ low high, lastRange text = some (low, high) ∧ ¬LeadsAscii low) ∧
    (Number.isNaN (ofText text).valueAxis.max ↔
      ∃ low high, lastRange text = some (low, high) ∧ ¬LeadsAscii high) := by
  constructor
  · intro rest low high b h hb
    have hbound : IsBound b := by
      rcases hb with rfl | rfl
      · exact (isBound_of_findRange? h).1
      · exact (isBound_of_findRange? h).2
    exact ⟨hbound.isReadWhole_iff, hbound.isNaN_ofToken_iff⟩
  · have hrange := range_ofText text
    cases hlast : lastRange text with
    | none =>
      rw [hlast] at hrange
      obtain ⟨hmin, hmax⟩ := Prod.mk.inj hrange
      rw [hmin, hmax]
      exact ⟨iff_of_false (by decide) (by simp), iff_of_false (by decide) (by simp)⟩
    | some bounds =>
      obtain ⟨low, high⟩ := bounds
      rw [hlast] at hrange
      obtain ⟨hmin, hmax⟩ := Prod.mk.inj hrange
      obtain ⟨rest, hrest⟩ := exists_findRange?_of_lastRange hlast
      obtain ⟨hlow, hhigh⟩ := isBound_of_findRange? hrest
      rw [hmin, hmax, hlow.isNaN_ofToken_iff, hhigh.isNaN_ofToken_iff]
      simp

/-- A digit beyond ASCII ends the number that the lower bound is read as and leaves none for the
upper one. -/
theorem Chart.bounds_read_iff_mixed :
    let text := "y-axis 1 --> 2\ny-axis 1\u0663 --> \u0665"
    let low := "1\u0663".toList
    let high := "\u0665".toList
    findRange? (hyphenated (low ++ (" --> ".toList ++ high))) = some (low, high) ∧
      (¬IsReadWhole low ∧ Number.isNaN (ofToken low) = false) ∧
      (¬IsReadWhole high ∧ Number.isNaN (ofToken high)) ∧
      lastRange text = some (low, high) ∧ Number.isNaN (ofText text).valueAxis.min = false ∧
      Number.isNaN (ofText text).valueAxis.max := by
  intro text low high
  have hfind : findRange? (hyphenated (low ++ (" --> ".toList ++ high))) = some (low, high) := by
    decide
  have hlast : lastRange text = some (low, high) := by decide
  have hleads : LeadsAscii low ∧ ¬LeadsAscii high := by decide
  obtain ⟨hread, hmin, hmax⟩ := Chart.bounds_read_iff text
  obtain ⟨hlow, hlowNaN⟩ := hread _ low high low hfind (.inl rfl)
  obtain ⟨hhigh, hhighNaN⟩ := hread _ low high high hfind (.inr rfl)
  refine ⟨hfind, ⟨?_, ?_⟩, ⟨?_, ?_⟩, hlast, ?_, ?_⟩
  · exact mt hlow.mp (by decide)
  · exact Bool.eq_false_iff.mpr (mt hlowNaN.mp (not_not.mpr hleads.1))
  · exact mt hhigh.mp (by decide)
  · exact hhighNaN.mpr hleads.2
  · apply Bool.eq_false_iff.mpr
    intro h
    obtain ⟨low', high', heq, hne⟩ := hmin.mp h
    rw [hlast] at heq
    obtain ⟨rfl, rfl⟩ := Prod.mk.inj (Option.some.inj heq)
    exact hne hleads.1
  · exact hmax.mpr ⟨low, high, hlast, hleads.2⟩

/-- A range in other digits is taken for a range and leaves no numbers. -/
theorem Chart.bounds_unread :
    findRange? (hyphenated "\u0663 --> \u0665".toList) =
      some ("\u0663".toList, "\u0665".toList) ∧
    Number.isNaN (ofText "y-axis \u0663 --> \u0665").valueAxis.min ∧
    Number.isNaN (ofText "y-axis \u0663 --> \u0665").valueAxis.max := by
  decide

end LineChart
