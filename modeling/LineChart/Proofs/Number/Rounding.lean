import Mathlib.Algebra.Order.AbsoluteValue.Basic
import Mathlib.Tactic.Linarith
import LineChart.Proofs.Number.Nearest

namespace LineChart.Number

/-! ## The magnitudes in order -/

/-- With `k` whole binades below it, a significand `m` counts units of `2 ^ (k - 1074)`. A full one
may be written as the first of the next binade. -/
theorem rankValue_binade {k m : Nat} (hlo : k = 0 ∨ leadingBit ≤ m) (hhi : m ≤ 2 * leadingBit) :
    rankValue (k * leadingBit + m) = m * 2 ^ ((k : Int) - 1074) := by
  by_cases hm : m < leadingBit
  · obtain rfl : k = 0 := by omega
    rw [rankValue, significand, exponent, Nat.zero_mul, Nat.zero_add, if_pos hm, if_pos hm]
    norm_num
  obtain ⟨n, rfl⟩ : ∃ n, m = leadingBit + n := ⟨m - leadingBit, by omega⟩
  have hlow : ¬k * leadingBit + (leadingBit + n) < leadingBit := by omega
  rw [rankValue, significand, exponent, if_neg hlow, if_neg hlow]
  rcases (show n ≤ leadingBit by omega).lt_or_eq with hn | rfl
  · have hsum : k * leadingBit + (leadingBit + n) = n + leadingBit * (k + 1) := by ring
    rw [hsum, Nat.add_mul_mod_self_left, Nat.add_mul_div_left _ _ (by decide), Nat.mod_eq_of_lt hn,
      Nat.div_eq_of_lt hn]
    congr 2
    push_cast
    ring
  · have hsum : k * leadingBit + (leadingBit + leadingBit) = leadingBit * (k + 2) := by ring
    rw [hsum, Nat.mul_mod_right, Nat.mul_div_cancel_left _ (by decide),
      show ((k + 2 : Nat) : Int) - 1075 = (k - 1074 : Int) + 1 by push_cast; ring,
      zpow_add_one₀ two_ne_zero]
    push_cast
    ring

/-- Every rank has its place in a binade. -/
theorem exists_binade (r : Nat) :
    ∃ k m, r = k * leadingBit + m ∧ (k = 0 ∨ leadingBit ≤ m) ∧ m < 2 * leadingBit := by
  by_cases hr : r < leadingBit
  · exact ⟨0, r, by omega, .inl rfl, by omega⟩
  · have hrem : r % leadingBit < leadingBit := Nat.mod_lt _ (by decide)
    exact ⟨r / leadingBit - 1, leadingBit + r % leadingBit, (rank_split (by omega)).symm,
      .inr (by omega), by omega⟩

theorem strictMono_rankValue : StrictMono rankValue := by
  apply strictMono_nat_of_lt_succ
  intro r
  obtain ⟨k, m, rfl, hlo, hhi⟩ := exists_binade r
  rw [Nat.add_assoc, rankValue_binade hlo hhi.le, rankValue_binade (by omega) (by omega)]
  exact mul_lt_mul_of_pos_right (by exact_mod_cast m.lt_succ_self) (by positivity)

/-- Which of two numbers is nearer is decided halfway between them. -/
theorem nearer_upper_iff {a b x : ℚ} (h : a < b) : |x - b| ≤ |x - a| ↔ (a + b) / 2 ≤ x := by
  rw [← sq_le_sq]
  constructor <;> intro h' <;> nlinarith

theorem nearer_lower_iff {a b x : ℚ} (h : a < b) : |x - a| ≤ |x - b| ↔ x ≤ (a + b) / 2 := by
  rw [← sq_le_sq]
  constructor <;> intro h' <;> nlinarith

/-! ## The nearest magnitude -/

/-- Of all magnitudes, infinity standing for `2 ^ 1024`, the one of rank `r` is nearest to `x`; of
two equally near it is the one whose significand is even. -/
structure IsNearest (x : ℚ) (r : Nat) : Prop where
  le_infinity : r ≤ infinityRank
  closest : ∀ r' ≤ infinityRank, |x - rankValue r| ≤ |x - rankValue r'|
  even_of_tie : ∀ r' ≤ infinityRank, r' ≠ r → |x - rankValue r| = |x - rankValue r'| → Even r

/-- Halfway from a magnitude to the next. -/
def midpoint (r : Nat) : ℚ := (rankValue r + rankValue (r + 1)) / 2

theorem rankValue_lt_midpoint (r : Nat) : rankValue r < midpoint r := by
  have := strictMono_rankValue r.lt_succ_self
  unfold midpoint
  linarith

theorem midpoint_lt_rankValue (r : Nat) : midpoint r < rankValue (r + 1) := by
  have := strictMono_rankValue r.lt_succ_self
  unfold midpoint
  linarith

/-- The midpoints next to a rank decide whether it is the nearest. -/
theorem isNearest_of_midpoints {x : ℚ} {r : Nat} (hr : r ≤ infinityRank)
    (hlower : ∀ p, p + 1 = r → midpoint p ≤ x ∧ (x = midpoint p → Even r))
    (hupper : r < infinityRank → x ≤ midpoint r ∧ (x = midpoint r → Even r)) : IsNearest x r := by
  -- the middle between the rank and another is beyond the midpoint next to it
  have hbelow : ∀ r' < r, (rankValue r' + rankValue r) / 2 ≤ x ∧
      ((rankValue r' + rankValue r) / 2 = x → Even r) := by
    intro r' hr'
    obtain ⟨p, rfl⟩ : ∃ p, r = p + 1 := ⟨r - 1, by omega⟩
    have hmono := strictMono_rankValue.monotone (show r' ≤ p by omega)
    obtain ⟨hle, heven⟩ := hlower p rfl
    unfold midpoint at hle heven
    exact ⟨by linarith, fun h => heven (by linarith)⟩
  have habove : ∀ r', r < r' → r' ≤ infinityRank → x ≤ (rankValue r + rankValue r') / 2 ∧
      (x = (rankValue r + rankValue r') / 2 → Even r) := by
    intro r' hr' hle'
    have hmono := strictMono_rankValue.monotone (show r + 1 ≤ r' by omega)
    obtain ⟨hle, heven⟩ := hupper (by omega)
    unfold midpoint at hle heven
    exact ⟨by linarith, fun h => heven (by linarith)⟩
  refine ⟨hr, fun r' hr' => ?_, fun r' hr' hne htie => ?_⟩
  · rcases lt_trichotomy r' r with h | rfl | h
    · exact (nearer_upper_iff (strictMono_rankValue h)).mpr (hbelow r' h).1
    · exact le_rfl
    · exact (nearer_lower_iff (strictMono_rankValue h)).mpr (habove r' h hr').1
  · rcases hne.lt_or_gt with h | h
    · have hv := strictMono_rankValue h
      refine (hbelow r' h).2 (((nearer_upper_iff hv).mp htie.le).antisymm ?_)
      exact (nearer_lower_iff hv).mp htie.ge
    · have hv := strictMono_rankValue h
      refine (habove r' h hr').2 (((nearer_lower_iff hv).mp htie.le).antisymm ?_)
      exact (nearer_upper_iff hv).mp htie.ge

/-- There is one nearest magnitude. -/
theorem IsNearest.unique {x : ℚ} {r r' : Nat} (h : IsNearest x r) (h' : IsNearest x r') :
    r = r' := by
  wlog hlt : r < r' generalizing r r' with key
  · rcases Nat.lt_or_eq_of_le (Nat.le_of_not_lt hlt) with hgt | heq
    · exact (key h' h hgt).symm
    · exact heq.symm
  exfalso
  have htie := (h.closest r' h'.le_infinity).antisymm (h'.closest r h.le_infinity)
  have heven := h.even_of_tie r' h'.le_infinity hlt.ne' htie
  have heven' := h'.even_of_tie r h.le_infinity hlt.ne htie.symm
  -- between two even ranks there is an odd one, and it is nearer
  have hnext : r + 1 < r' := by
    obtain ⟨i, hi⟩ := heven
    obtain ⟨j, hj⟩ := heven'
    omega
  have hv := strictMono_rankValue r.lt_succ_self
  have hv' := strictMono_rankValue hnext
  have hx := (nearer_upper_iff (strictMono_rankValue hlt)).mp htie.ge
  have hx' := (nearer_lower_iff (hv)).mp (h.closest (r + 1) (hnext.le.trans h'.le_infinity))
  linarith

/-! ## Ratios and decimals are rounded to the nearest -/

/-- The rounded quotient is off by a half at most, and by a half only if it is even. -/
theorem divNearest_spec (num : Nat) {den : Nat} (hd : 0 < den) :
    2 * num ≤ (2 * divNearest num den + 1) * den ∧ 2 * divNearest num den * den ≤ 2 * num + den ∧
      (2 * num = (2 * divNearest num den + 1) * den ∨
        2 * divNearest num den * den = 2 * num + den → Even (divNearest num den)) := by
  have hnum := Nat.div_add_mod num den
  have hrem := Nat.mod_lt num hd
  simp only [divNearest]
  generalize num / den = low at *
  generalize num % den = rem at *
  have h1 : (2 * low + 1) * den = 2 * (den * low) + den := by ring
  have h2 : 2 * low * den = 2 * (den * low) := by ring
  have h3 : (2 * (low + 1) + 1) * den = 2 * (den * low) + 3 * den := by ring
  have h4 : 2 * (low + 1) * den = 2 * (den * low) + 2 * den := by ring
  split
  · rw [h1, h2, Nat.even_iff]
    omega
  · rw [h3, h4, Nat.even_iff]
    omega

/-- The same in units of `2 ^ q`. -/
theorem units_spec (num : Nat) {den : Nat} (hd : 0 < den) (q : Int) :
    (num / den : ℚ) ≤ (units num den q + 1 / 2) * 2 ^ q ∧
      (units num den q - 1 / 2) * 2 ^ q ≤ (num / den : ℚ) ∧
      ((num / den : ℚ) = (units num den q + 1 / 2) * 2 ^ q ∨
        (num / den : ℚ) = (units num den q - 1 / 2) * 2 ^ q → Even (units num den q)) := by
  have hp : 0 < den * Nat.pow 2 q.toNat := Nat.mul_pos hd (Nat.pow_pos two_pos)
  obtain ⟨hle, hge, htie⟩ := divNearest_spec (num * Nat.pow 2 (-q).toNat) hp
  have hratio := units_ratio num den q
  have hpow : (0 : ℚ) < 2 ^ q := by positivity
  rw [← units] at hle hge htie
  generalize units num den q = m at *
  generalize num * Nat.pow 2 (-q).toNat = num' at *
  generalize den * Nat.pow 2 q.toNat = den' at *
  have hp' : (0 : ℚ) < den' := by exact_mod_cast hp
  -- in units the ratio is `num' / den'`, which `m` is the rounded quotient of
  have hx : (num / den : ℚ) = num' / den' * 2 ^ q := by
    rw [hratio]
    field_simp
  have hle' : (num' : ℚ) ≤ (m + 1 / 2) * den' := by
    have : ((2 * num' : Nat) : ℚ) ≤ ((2 * m + 1) * den' : Nat) := by exact_mod_cast hle
    push_cast at this
    linarith
  have hge' : (m - 1 / 2) * den' ≤ (num' : ℚ) := by
    have : ((2 * m * den' : Nat) : ℚ) ≤ (2 * num' + den' : Nat) := by exact_mod_cast hge
    push_cast at this
    linarith
  rw [hx]
  refine ⟨mul_le_mul_of_nonneg_right ((div_le_iff₀ hp').mpr hle') hpow.le,
    mul_le_mul_of_nonneg_right ((le_div_iff₀ hp').mpr hge') hpow.le, fun h => htie ?_⟩
  rw [mul_left_inj' hpow.ne', mul_left_inj' hpow.ne', div_eq_iff hp'.ne', div_eq_iff hp'.ne'] at h
  rcases h with h | h
  · left
    have : ((2 * num' : Nat) : ℚ) = ((2 * m + 1) * den' : Nat) := by push_cast; linarith
    exact_mod_cast this
  · right
    have : ((2 * m * den' : Nat) : ℚ) = (2 * num' + den' : Nat) := by push_cast; linarith
    exact_mod_cast this

theorem midpoint_binade {k m : Nat} (hlo : k = 0 ∨ leadingBit ≤ m) (hhi : m < 2 * leadingBit) :
    midpoint (k * leadingBit + m) = (m + 1 / 2) * 2 ^ ((k : Int) - 1074) := by
  rw [midpoint, Nat.add_assoc, rankValue_binade hlo hhi.le, rankValue_binade (by omega) (by omega)]
  push_cast
  ring

theorem even_binade {k m : Nat} (hm : Even m) : Even (k * leadingBit + m) :=
  ((show Even leadingBit by decide).mul_left k).add hm

/-- Of the significands with `k` whole binades below them `m` is nearest to `x`, which lies in the
binade, or below its end in the lowest. -/
structure RoundsInBinade (x : ℚ) (k m : Nat) : Prop where
  leading : k = 0 ∨ leadingBit ≤ m
  le_full : m ≤ 2 * leadingBit
  le_upper : x ≤ (m + 1 / 2) * 2 ^ ((k : Int) - 1074)
  lower_le : (m - 1 / 2) * 2 ^ ((k : Int) - 1074) ≤ x
  even_of_tie : x = (m + 1 / 2) * 2 ^ ((k : Int) - 1074) ∨
    x = (m - 1 / 2) * 2 ^ ((k : Int) - 1074) → Even m
  lt_end : x < (2 * leadingBit : Nat) * 2 ^ ((k : Int) - 1074)
  start_le : k ≠ 0 → leadingBit * 2 ^ ((k : Int) - 1074) ≤ x

theorem exists_rankOfRatio_eq {num den : Nat} (hn : num ≠ 0) (hd : 0 < den) :
    ∃ k m, RoundsInBinade (num / den) k m ∧
      rankOfRatio num den = min (k * leadingBit + m) infinityRank := by
  obtain ⟨k, hk⟩ : ∃ k : Nat, unitExponent num den = k - 1074 :=
    ⟨(unitExponent num den + 1074).toNat, by
      have : -1074 ≤ unitExponent num den := le_max_left _ _
      omega⟩
  have hwhole : ((k : Int) - 1074 + 1074).toNat = k := by omega
  obtain ⟨hle, hge, htie⟩ := units_spec num hd (unitExponent num den)
  have hlt := ratio_lt_unitExponent hn hd
  have hstart := unitExponent_le_ratio hn hd
  have hfull := units_unitExponent_le hn hd
  have hlead := leadingBit_le_units hn hd
  have hrank := rankOfRatio_eq hn den
  rw [hk] at hle hge htie hlt hstart hfull hlead hrank
  rw [hwhole] at hrank
  refine ⟨k, units num den (k - 1074), ⟨?_, hfull, hle, hge, htie, hlt, fun h => hstart ?_⟩, hrank⟩
  · by_cases h : k = 0
    · exact .inl h
    · exact .inr (hlead (by omega))
  · omega

namespace RoundsInBinade

variable {x : ℚ} {k m : Nat}

theorem midpoint_le (h : RoundsInBinade x k m) {p : Nat} (hp : p + 1 = k * leadingBit + m) :
    midpoint p ≤ x ∧ (x = midpoint p → Even (k * leadingBit + m)) := by
  by_cases hfirst : k ≠ 0 ∧ m = leadingBit
  · -- the first of its binade: `x` is not below it
    obtain ⟨hk, rfl⟩ := hfirst
    have hlt := midpoint_lt_rankValue p
    rw [hp, rankValue_binade (.inr le_rfl) h.le_full] at hlt
    exact ⟨hlt.le.trans (h.start_le hk), fun hx => absurd hx (hlt.trans_le (h.start_le hk)).ne'⟩
  · have hlead := h.leading
    have hfull := h.le_full
    obtain ⟨n, rfl⟩ : ∃ n, m = n + 1 := by
      refine ⟨m - 1, ?_⟩
      rcases Nat.eq_zero_or_pos k with rfl | hk
      · omega
      · have : 0 < leadingBit := by decide
        omega
    obtain rfl : p = k * leadingBit + n := by omega
    have hhalf : ((n + 1 : Nat) : ℚ) - 1 / 2 = n + 1 / 2 := by
      push_cast
      ring
    have hge := h.lower_le
    have htie := h.even_of_tie
    rw [hhalf] at hge htie
    rw [midpoint_binade (by omega) (by omega)]
    exact ⟨hge, fun hx => even_binade (htie (.inr hx))⟩

theorem le_midpoint (h : RoundsInBinade x k m) :
    x ≤ midpoint (k * leadingBit + m) ∧
      (x = midpoint (k * leadingBit + m) → Even (k * leadingBit + m)) := by
  rcases h.le_full.lt_or_eq with hm | rfl
  · rw [midpoint_binade h.leading hm]
    exact ⟨h.le_upper, fun hx => even_binade (h.even_of_tie (.inl hx))⟩
  · -- the first of the next binade: `x` is below it
    have hlt := rankValue_lt_midpoint (k * leadingBit + 2 * leadingBit)
    rw [rankValue_binade h.leading le_rfl] at hlt
    have hx := h.lt_end.trans hlt
    exact ⟨hx.le, fun heq => absurd heq hx.ne⟩

end RoundsInBinade

theorem midpoint_strictMono : StrictMono midpoint :=
  strictMono_nat_of_lt_succ fun r =>
    (midpoint_lt_rankValue r).trans (rankValue_lt_midpoint (r + 1))

theorem rankValue_zero : rankValue 0 = 0 := by
  simp [rankValue, significand, leadingBit]

theorem isNearest_zero : IsNearest 0 0 := by
  have hlt := rankValue_lt_midpoint 0
  rw [rankValue_zero] at hlt
  exact isNearest_of_midpoints (Nat.zero_le _) (fun p hp => absurd hp (by simp))
    fun _ => ⟨hlt.le, fun _ => Even.zero⟩

theorem isNearest_rankOfRatio (num : Nat) {den : Nat} (hd : 0 < den) :
    IsNearest (num / den) (rankOfRatio num den) := by
  rcases eq_or_ne num 0 with rfl | hn
  · simpa [rankOfRatio] using isNearest_zero
  obtain ⟨k, m, h, hrank⟩ := exists_rankOfRatio_eq hn hd
  rw [hrank]
  rcases le_or_gt (k * leadingBit + m) infinityRank with hr | hr
  · rw [min_eq_left hr]
    exact isNearest_of_midpoints hr (fun p => h.midpoint_le) fun _ => h.le_midpoint
  · -- beyond infinity, which is then nearer than all below it
    rw [min_eq_right hr.le]
    refine isNearest_of_midpoints le_rfl (fun p hp => ?_) fun hlt => absurd hlt (lt_irrefl _)
    have hlt := (midpoint_strictMono (show p < k * leadingBit + m - 1 by omega)).trans_le
      (h.midpoint_le (p := k * leadingBit + m - 1) (by omega)).1
    exact ⟨hlt.le, fun hx => absurd hx hlt.ne'⟩

/-- A decimal is read as the nearest magnitude. -/
theorem isNearest_rankOfDecimal (c : Nat) (e : Int) : IsNearest (c * 10 ^ e) (rankOfDecimal c e) := by
  rw [rankOfDecimal_eq, ← decimal_ratio]
  exact isNearest_rankOfRatio _ (pow_ten_pos _)

/-! ## Overflow -/

/-- From here on infinity is nearest: halfway from the greatest finite magnitude to `2 ^ 1024`. -/
def overflow : ℚ := 2 ^ 1024 - 2 ^ 970

theorem midpoint_overflow : midpoint (infinityRank - 1) = overflow := by
  have hbinade : infinityRank - 1 = 2045 * leadingBit + (2 * leadingBit - 1) := by decide
  have hpow : ((2045 : Nat) : Int) - 1074 = (971 : Nat) := rfl
  have htop : (2 : ℚ) ^ 1024 = 2 ^ 54 * 2 ^ 970 := by rw [← pow_add]
  have hlow : (2 : ℚ) ^ 971 = 2 * 2 ^ 970 := by rw [← pow_succ']
  rw [hbinade, midpoint_binade (by decide) (by decide), overflow, hpow, zpow_natCast, htop, hlow]
  generalize (2 : ℚ) ^ 970 = unit
  norm_num [leadingBit]
  ring

theorem IsNearest.eq_infinity_iff {x : ℚ} {r : Nat} (h : IsNearest x r) :
    r = infinityRank ↔ overflow ≤ x := by
  have hbelow : infinityRank - 1 < infinityRank := by decide
  have hmid : (rankValue (infinityRank - 1) + rankValue infinityRank) / 2 = overflow :=
    midpoint_overflow
  constructor
  · rintro rfl
    rw [← hmid]
    exact (nearer_upper_iff (strictMono_rankValue hbelow)).mp (h.closest _ hbelow.le)
  · intro hx
    by_contra hne
    have hr : r < infinityRank := h.le_infinity.lt_of_ne hne
    have hle := (nearer_lower_iff (strictMono_rankValue hr)).mp (h.closest _ le_rfl)
    rcases (Nat.le_pred_of_lt hr).lt_or_eq with hlt | rfl
    · have := strictMono_rankValue hlt
      rw [Nat.pred_eq_sub_one] at this
      linarith
    · -- on the midpoint itself the tie goes to infinity, which is even
      rw [Nat.pred_eq_sub_one] at h hr hle
      have htie := (h.closest _ le_rfl).antisymm
        ((nearer_upper_iff (strictMono_rankValue hbelow)).mpr (hmid.trans_le hx))
      exact absurd (h.even_of_tie _ le_rfl hr.ne' htie) (by decide)

end LineChart.Number
