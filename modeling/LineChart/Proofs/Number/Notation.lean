import LineChart.Number.Notation
import LineChart.Proofs.Number.Minimal
import LineChart.Proofs.Number.Order
import LineChart.Proofs.Number.Spelling

namespace LineChart.Number

/-! ## The layout of a decimal -/

/-- The digits of `0.d₁d₂… * 10 ^ n` with `n` near their number `k`, or with an exponent. -/
def Decimal.layout (d : Decimal) : List Char :=
  let k := d.digits.length
  let n := d.point
  if k ≤ n ∧ n ≤ 21 then d.digits ++ List.replicate (n - k).toNat '0'
  else if 0 < n ∧ n < k then d.digits.take n.toNat ++ '.' :: d.digits.drop n.toNat
  else if -6 < n ∧ n ≤ 0 then '0' :: '.' :: (List.replicate (-n).toNat '0' ++ d.digits)
  else d.digits.take 1 ++ (pointed (d.digits.drop 1) ++
    'e' :: (if n - 1 < 0 then '-' else '+') :: Nat.toDigits 10 (n - 1).natAbs)

theorem positional_eq_layout {d : Decimal} (hd : d.Normal) (hlo : -5 ≤ d.point)
    (hhi : d.point ≤ 21) : Format.diagram.positional d = d.layout := by
  have hpos := hd.length_pos
  simp only [Format.positional, Decimal.layout]
  by_cases h0 : d.point ≤ 0
  · rw [if_pos h0, if_neg (by omega), if_neg (by omega), if_pos ⟨by omega, h0⟩]
    rfl
  by_cases hwithin : d.point < d.digits.length
  · rw [if_neg h0, if_pos hwithin, if_neg (by omega), if_pos ⟨by omega, hwithin⟩]
  · rw [if_neg h0, if_neg hwithin, if_pos ⟨by omega, hhi⟩]
    simp only [Format.diagram, List.append_nil]
    congr 2
    omega

theorem scientific_eq_layout {d : Decimal} (hd : d.Normal) (hlen : d.digits.length ≤ 21)
    (h : ¬(-5 ≤ d.point ∧ d.point ≤ 21)) : Format.diagram.scientific d = d.layout := by
  have hpos := hd.length_pos
  have h1 : ¬(d.digits.length ≤ d.point ∧ d.point ≤ 21) := by omega
  have h2 : ¬(0 < d.point ∧ d.point < d.digits.length) := by omega
  have h3 : ¬(-6 < d.point ∧ d.point ≤ 0) := by omega
  simp only [Format.scientific, Decimal.layout, if_neg h1, if_neg h2, if_neg h3]
  by_cases hneg : d.point - 1 < 0 <;> simp [hneg, Format.diagram, pointed]

/-- A magnitude is laid out by the number of its digits and the place of its point. -/
theorem magnitude_eq_layout {r : Nat} (h0 : r ≠ 0) (hr : r < infinityRank) :
    Format.diagram.magnitude r = (shortest r).layout := by
  have hshortest := isShortest_shortest h0 hr
  have hlen := hshortest.length_le h0 hr
  simp only [Format.magnitude, if_neg h0]
  split
  · next h => exact positional_eq_layout hshortest.normal h.1 h.2
  · next h => exact scientific_eq_layout hshortest.normal (by omega) h

/-! ## The choice by size -/

/-- The point of the shortest digits stands from `-5` to `21` exactly for the magnitudes from `1e-6`
up to `1e21`. -/
theorem point_between_iff {r : Nat} (h0 : r ≠ 0) (hr : r < infinityRank) :
    (-5 ≤ (shortest r).point ∧ (shortest r).point ≤ 21) ↔
      rankOfDecimal 1 (-6) ≤ r ∧ r < rankOfDecimal 1 21 := by
  have hd := normal_shortest h0 hr
  have hrank := rank_shortest hr
  refine ⟨fun ⟨hlo, hhi⟩ => ⟨?_, ?_⟩, fun ⟨hlo, hhi⟩ =>
    ⟨leastPoint_le hr hlo, point_le_greatestPoint h0 hhi⟩⟩
  · rw [← hrank]
    exact hd.le_rank (by omega)
  · have hle : r ≤ rankOfDecimal 1 21 := hrank ▸ hd.rank_le hhi
    refine lt_of_le_of_ne hle ?_
    rintro rfl
    exact absurd hhi (by decide +kernel)

theorem markExponent_append {mantissa power : List Char} (hm : 'e' ∉ mantissa) :
    markExponent (mantissa ++ 'e' :: power) =
      mantissa ++ 'e' :: ((if power.head? = some '-' then [] else ['+']) ++ power) := by
  have hall : ∀ c ∈ mantissa, c != 'e' := fun c hc => by
    rw [bne_iff_ne]
    rintro rfl
    exact hm hc
  have hhalts : Halts (· != 'e') ('e' :: power) := by simp
  rw [markExponent, dropWhile_append_of_halts hall hhalts, takeWhile_append_of_halts hall hhalts]
  simp only
  split <;> simp

theorem not_mem_mantissa {d : Decimal} (hd : d.Normal) (negative : Bool) :
    'e' ∉ signChars negative ++ (d.digits.take 1 ++ pointed (d.digits.drop 1)) := by
  have hdigits : 'e' ∉ d.digits := fun h => absurd (hd.isDigit _ h) (by decide)
  have hsign : 'e' ∉ signChars negative := by cases negative <;> decide
  have hfraction : 'e' ∉ pointed (d.digits.drop 1) := by
    unfold pointed
    split
    · simp
    · simpa using fun h => hdigits (List.mem_of_mem_tail h)
  simp only [List.mem_append, not_or]
  exact ⟨hsign, fun h => hdigits (List.mem_of_mem_take h), hfraction⟩

theorem head?_toDigits_ne_minus (n : Nat) : (Nat.toDigits 10 n).head? ≠ some '-' := fun h =>
  absurd (Nat.isDigit_of_mem_toDigits (by decide) (by decide) (List.mem_of_mem_head? h)) (by decide)

theorem markExponent_scientificChars {v : Float} (h0 : rank v ≠ 0) (hr : rank v < infinityRank) :
    markExponent (scientificChars v) =
      signChars (isNegative v) ++ Format.diagram.scientific (shortest (rank v)) := by
  have hm := not_mem_mantissa (normal_shortest h0 hr) (isNegative v)
  rw [scientificChars]
  simp only [Format.scientific]
  generalize shortest (rank v) = d at *
  have hsplit : ∀ power, (if isNegative v then ['-'] else []) ++ (d.digits.take 1 ++
      (if d.digits.drop 1 = [] then [] else '.' :: d.digits.drop 1) ++ 'e' :: power) =
      (signChars (isNegative v) ++ (d.digits.take 1 ++ pointed (d.digits.drop 1))) ++
        'e' :: power := fun power => by
    simp only [signChars, pointed, List.append_assoc]
  rw [List.append_assoc, List.cons_append, hsplit, markExponent_append hm]
  by_cases hneg : d.point - 1 < 0
  · simp [hneg, pointed]
  · have hhead : (if d.point - 1 < 0 then ['-'] else []) ++
        Nat.toDigits 10 (d.point - 1).natAbs = Nat.toDigits 10 (d.point - 1).natAbs := by
      rw [if_neg hneg, List.nil_append]
    rw [hhead, if_neg (head?_toDigits_ne_minus _), if_neg hneg]
    simp [pointed, Format.diagram]

/-- The magnitudes from `1e-6` up to `1e21` are written without an exponent. -/
theorem magnitude_by_size {v : Float} (h0 : rank v ≠ 0) (hr : rank v < infinityRank) :
    Format.diagram.magnitude (rank v) = if 1e-6 ≤ v.abs ∧ v.abs < 1e21
      then Format.diagram.positional (shortest (rank v))
      else Format.diagram.scientific (shortest (rank v)) := by
  have hleast : (1e-6 : Float) = ofRank false (rankOfDecimal 1 (-6)) := by decide +kernel
  have hgreatest : (1e21 : Float) = ofRank false (rankOfDecimal 1 21) := by decide +kernel
  have hsize := abs_between_iff (v := v) (by simp [isNaN_eq_false hr.le])
    (rankOfDecimal_le_infinity 1 (-6)) (rankOfDecimal_le_infinity 1 21)
  rw [← hleast, ← hgreatest, ← point_between_iff h0 hr] at hsize
  simp only [Format.magnitude, if_neg h0, hsize]
  rfl

/-- The notation by size is the notation by the point. -/
theorem charsBySize_eq (v : Float) : charsBySize v = Format.diagram.chars v := by
  unfold charsBySize
  rcases rank_cases v with hn | hi | hr
  · rw [if_pos hn, chars_of_isNaN hn]
  · have hinf : isInfinite v := by simpa [isInfinite] using hi
    rw [if_neg (by simp [isNaN_eq_false hi.le]), if_pos hinf, chars_of_infinite hi, showsMinus, hi]
    simp only [zero_lt_iff_of_infinite hi]
    cases isNegative v <;> rfl
  · have hinf : ¬isInfinite v := by simpa [isInfinite] using hr.ne
    rw [if_neg (by simp [isNaN_eq_false hr.le]), if_neg hinf]
    rcases eq_or_ne (rank v) 0 with h0 | h0
    · rw [if_pos ((beq_zero_iff v).mpr h0), chars_of_zero h0]
    · rw [if_neg (mt (beq_zero_iff v).mp h0), chars_of_nonzero h0 hr, magnitude_by_size h0 hr]
      split
      · rfl
      · exact markExponent_scientificChars h0 hr

/-! ## The text of a number -/

/-- The text that a JavaScript runtime gives a number. -/
inductive NumberText (v : Float) : List Char → Prop
  | nan (h : isNaN v) : NumberText v "NaN".toList
  | zero (h0 : rank v = 0) : NumberText v ['0']
  | infinity (hr : rank v = infinityRank) (hs : isNegative v = false) :
      NumberText v "Infinity".toList
  | negativeInfinity (hr : rank v = infinityRank) (hs : isNegative v = true) :
      NumberText v "-Infinity".toList
  | finite {d : Decimal} (h0 : rank v ≠ 0) (hr : rank v < infinityRank)
      (hd : IsShortest (rank v) d) : NumberText v (signChars (isNegative v) ++ d.layout)

/-- A number is written as a JavaScript runtime writes it, whichever way its notation is chosen. -/
theorem numberText_chars (v : Float) :
    NumberText v (Format.diagram.chars v) ∧ charsBySize v = Format.diagram.chars v := by
  refine ⟨?_, charsBySize_eq v⟩
  rcases rank_cases v with hn | hi | hr
  · rw [chars_of_isNaN hn]
    exact .nan hn
  · rw [chars_of_infinite hi, showsMinus, hi]
    cases hs : isNegative v
    · exact .infinity hi hs
    · exact .negativeInfinity hi hs
  · rcases eq_or_ne (rank v) 0 with h0 | h0
    · rw [chars_of_zero h0]
      exact .zero h0
    · rw [chars_of_nonzero h0 hr, magnitude_eq_layout h0 hr]
      exact .finite h0 hr (isShortest_shortest h0 hr)

end LineChart.Number
