import Mathlib.Algebra.Order.Field.Power
import Mathlib.Data.Rat.Cast.Order
import Mathlib.Tactic.FieldSimp
import Mathlib.Tactic.Linarith
import Mathlib.Tactic.NormNum
import Mathlib.Tactic.Positivity
import Mathlib.Tactic.Ring
import LineChart.Number.Nearest

namespace LineChart.Number

/-! ## Rounding a quotient -/

theorem divNearest_mul {den : Nat} (hd : 0 < den) (m : Nat) : divNearest (m * den) den = m := by
  simp [divNearest, Nat.mul_div_cancel _ hd, hd]

theorem divNearest_mono {num den num' den' : Nat} (hd : 0 < den) (hd' : 0 < den')
    (h : num * den' ≤ num' * den) : divNearest num den ≤ divNearest num' den' := by
  have hnum := Nat.div_add_mod num den
  have hnum' := Nat.div_add_mod num' den'
  have hr := Nat.mod_lt num hd
  have hr' := Nat.mod_lt num' hd'
  have hlow : num / den ≤ num' / den' := by
    rw [Nat.le_div_iff_mul_le hd']
    apply Nat.le_of_mul_le_mul_right _ hd
    calc num / den * den' * den = num / den * den * den' := by ring
      _ ≤ num * den' := Nat.mul_le_mul_right _ (Nat.div_mul_le_self num den)
      _ ≤ num' * den := h
  rcases hlow.lt_or_eq with hlt | heq
  · simp only [divNearest]
    split <;> split <;> omega
  · -- the same whole part: the remainders decide
    have hrem : num % den * den' ≤ num' % den' * den := by
      rw [← hnum, ← hnum', heq] at h
      have h1 : (den * (num' / den') + num % den) * den' =
          num' / den' * den * den' + num % den * den' := by ring
      have h2 : (den' * (num' / den') + num' % den') * den =
          num' / den' * den * den' + num' % den' * den := by ring
      omega
    have hge : den ≤ 2 * (num % den) → den' ≤ 2 * (num' % den') := fun h =>
      Nat.le_of_mul_le_mul_right (by linarith [Nat.mul_le_mul_right den' h]) hd
    have hgt : den < 2 * (num % den) → den' < 2 * (num' % den') := fun h =>
      Nat.lt_of_mul_lt_mul_right (a := den) (by linarith [Nat.mul_lt_mul_of_pos_right h hd'])
    simp only [divNearest, heq]
    split <;> split <;> omega

theorem le_divNearest {num den m : Nat} (hd : 0 < den) (h : m * den ≤ num) :
    m ≤ divNearest num den := by
  have hm : divNearest (m * 1) 1 ≤ divNearest num den :=
    divNearest_mono Nat.one_pos hd (by simpa using h)
  rwa [divNearest_mul Nat.one_pos] at hm

theorem divNearest_le {num den m : Nat} (hd : 0 < den) (h : num ≤ m * den) :
    divNearest num den ≤ m := by
  have hm : divNearest num den ≤ divNearest (m * 1) 1 :=
    divNearest_mono hd Nat.one_pos (by simpa using h)
  rwa [divNearest_mul Nat.one_pos] at hm

/-! ## Powers with an exponent of either sign -/

theorem zpow_toNat_div {b : ℚ} (hb : 0 < b) (e : Int) : b ^ e.toNat / b ^ (-e).toNat = b ^ e := by
  rw [← zpow_natCast, ← zpow_natCast, ← zpow_sub₀ hb.ne']
  congr 1
  omega

theorem zpow_le_ratio_iff {num den : Nat} (hd : 0 < den) (e : Int) :
    den * Nat.pow 2 e.toNat ≤ num * Nat.pow 2 (-e).toNat ↔ (2 : ℚ) ^ e ≤ num / den := by
  have hd' : (0 : ℚ) < den := by exact_mod_cast hd
  rw [← zpow_toNat_div two_pos, div_le_div_iff₀ (by positivity) hd', mul_comm ((2 : ℚ) ^ _)]
  exact_mod_cast Iff.rfl

/-- The lengths of two numbers tell their ratio up to a factor of two on either side. -/
theorem ratio_lt_zpow_log2 {num den : Nat} (hd : 0 < den) :
    (num / den : ℚ) < 2 ^ ((num.log2 : Int) - den.log2 + 1) := by
  have hd' : (0 : ℚ) < den := by exact_mod_cast hd
  have hnum : (num : ℚ) < ((2 ^ (num.log2 + 1) : Nat) : ℚ) := by exact_mod_cast Nat.lt_log2_self
  have hden : ((2 ^ den.log2 : Nat) : ℚ) ≤ den := by exact_mod_cast Nat.log2_self_le hd.ne'
  push_cast at hnum hden
  rw [div_lt_iff₀ hd']
  calc (num : ℚ) < 2 ^ (num.log2 + 1) := hnum
    _ = 2 ^ ((num.log2 : Int) - den.log2 + 1) * 2 ^ den.log2 := by
        rw [← zpow_natCast, ← zpow_natCast, ← zpow_add₀ two_ne_zero]
        congr 1
        push_cast
        ring
    _ ≤ _ := mul_le_mul_of_nonneg_left hden (by positivity)

theorem zpow_log2_le_ratio {num den : Nat} (hn : num ≠ 0) (hd : 0 < den) :
    (2 : ℚ) ^ ((num.log2 : Int) - den.log2 - 1) ≤ num / den := by
  have hd' : (0 : ℚ) < den := by exact_mod_cast hd
  have hnum : ((2 ^ num.log2 : Nat) : ℚ) ≤ num := by exact_mod_cast Nat.log2_self_le hn
  have hden : (den : ℚ) < ((2 ^ (den.log2 + 1) : Nat) : ℚ) := by exact_mod_cast Nat.lt_log2_self
  push_cast at hnum hden
  rw [le_div_iff₀ hd']
  calc (2 : ℚ) ^ ((num.log2 : Int) - den.log2 - 1) * den
      ≤ 2 ^ ((num.log2 : Int) - den.log2 - 1) * 2 ^ (den.log2 + 1) :=
        mul_le_mul_of_nonneg_left hden.le (by positivity)
    _ = 2 ^ num.log2 := by
        rw [← zpow_natCast, ← zpow_natCast, ← zpow_add₀ two_ne_zero]
        congr 1
        push_cast
        ring
    _ ≤ num := hnum

theorem log2Ratio_spec {num den : Nat} (hn : num ≠ 0) (hd : 0 < den) :
    (2 : ℚ) ^ log2Ratio num den ≤ num / den ∧ (num / den : ℚ) < 2 ^ (log2Ratio num den + 1) := by
  simp only [log2Ratio]
  split
  · next h => exact ⟨(zpow_le_ratio_iff hd _).mp h, ratio_lt_zpow_log2 hd⟩
  · next h =>
    -- the estimate from the lengths was one too high
    refine ⟨zpow_log2_le_ratio hn hd, ?_⟩
    rw [sub_add_cancel]
    exact lt_of_not_ge fun hge => h ((zpow_le_ratio_iff hd _).mpr hge)

/-- Only one power of two is next below a positive number. -/
theorem log2Ratio_eq {num den : Nat} (hn : num ≠ 0) (hd : 0 < den) {e : Int}
    (hlo : (2 : ℚ) ^ e ≤ num / den) (hhi : (num / den : ℚ) < 2 ^ (e + 1)) :
    log2Ratio num den = e := by
  obtain ⟨h1, h2⟩ := log2Ratio_spec hn hd
  have h3 := (zpow_lt_zpow_iff_right₀ (one_lt_two : (1 : ℚ) < 2)).mp (h1.trans_lt hhi)
  have h4 := (zpow_lt_zpow_iff_right₀ (one_lt_two : (1 : ℚ) < 2)).mp (hlo.trans_lt h2)
  omega

theorem log2Ratio_mono {num den num' den' : Nat} (hn : num ≠ 0) (hn' : num' ≠ 0) (hd : 0 < den)
    (hd' : 0 < den') (h : (num / den : ℚ) ≤ num' / den') :
    log2Ratio num den ≤ log2Ratio num' den' := by
  have hlt := (log2Ratio_spec hn hd).1.trans_lt (h.trans_lt (log2Ratio_spec hn' hd').2)
  have := (zpow_lt_zpow_iff_right₀ (one_lt_two : (1 : ℚ) < 2)).mp hlt
  omega

/-! ## The rank of a ratio -/

theorem ratio_le_iff {num den num' den' : Nat} (hd : 0 < den) (hd' : 0 < den') :
    (num / den : ℚ) ≤ num' / den' ↔ num * den' ≤ num' * den := by
  have h : (0 : ℚ) < den := by exact_mod_cast hd
  have h' : (0 : ℚ) < den' := by exact_mod_cast hd'
  rw [div_le_div_iff₀ h h']
  exact_mod_cast Iff.rfl

/-- The significand that stands for `num / den` has this unit, as a power of two. -/
def unitExponent (num den : Nat) : Int := max (-1074) (log2Ratio num den - 52)

/-- How often the unit `2 ^ q` goes into `num / den`, to the nearest whole number. -/
def units (num den : Nat) (q : Int) : Nat :=
  divNearest (num * Nat.pow 2 (-q).toNat) (den * Nat.pow 2 q.toNat)

theorem rankOfRatio_eq {num : Nat} (hn : num ≠ 0) (den : Nat) :
    rankOfRatio num den =
      min ((unitExponent num den + 1074).toNat * leadingBit +
        units num den (unitExponent num den)) infinityRank := by
  rw [rankOfRatio, if_neg hn]
  rfl

theorem units_ratio (num den : Nat) (q : Int) :
    (((num * Nat.pow 2 (-q).toNat : Nat) : ℚ) / ((den * Nat.pow 2 q.toNat : Nat) : ℚ)) =
      num / den / 2 ^ q := by
  rw [← zpow_toNat_div two_pos]
  push_cast [Nat.pow_eq]
  field_simp

theorem units_mono {num den num' den' : Nat} (hd : 0 < den) (hd' : 0 < den') (q : Int)
    (h : (num / den : ℚ) ≤ num' / den') : units num den q ≤ units num' den' q := by
  have hp : 0 < Nat.pow 2 q.toNat := Nat.pow_pos two_pos
  apply divNearest_mono (Nat.mul_pos hd hp) (Nat.mul_pos hd' hp)
  rw [← ratio_le_iff (Nat.mul_pos hd hp) (Nat.mul_pos hd' hp), units_ratio, units_ratio]
  exact div_le_div_of_nonneg_right h (by positivity)

theorem units_le {num den m : Nat} (hd : 0 < den) {q : Int} (h : (num / den : ℚ) ≤ m * 2 ^ q) :
    units num den q ≤ m := by
  have hp : 0 < den * Nat.pow 2 q.toNat := Nat.mul_pos hd (Nat.pow_pos two_pos)
  apply divNearest_le hp
  have hr : ((num * Nat.pow 2 (-q).toNat : Nat) : ℚ) / (den * Nat.pow 2 q.toNat : Nat) ≤
      m / (1 : Nat) := by
    rw [units_ratio, div_le_iff₀ (by positivity)]
    simpa using h
  simpa using (ratio_le_iff hp Nat.one_pos).mp hr

theorem le_units {num den m : Nat} (hd : 0 < den) {q : Int} (h : m * 2 ^ q ≤ (num / den : ℚ)) :
    m ≤ units num den q := by
  have hp : 0 < den * Nat.pow 2 q.toNat := Nat.mul_pos hd (Nat.pow_pos two_pos)
  apply le_divNearest hp
  have hr : (m / (1 : Nat) : ℚ) ≤
      ((num * Nat.pow 2 (-q).toNat : Nat) : ℚ) / (den * Nat.pow 2 q.toNat : Nat) := by
    rw [units_ratio, le_div_iff₀ (by positivity)]
    simpa using h
  simpa using (ratio_le_iff Nat.one_pos hp).mp hr

theorem ratio_lt_unitExponent {num den : Nat} (hn : num ≠ 0) (hd : 0 < den) :
    (num / den : ℚ) < (2 * leadingBit : Nat) * 2 ^ unitExponent num den := by
  have hq : log2Ratio num den + 1 ≤ unitExponent num den + 53 := by
    unfold unitExponent
    omega
  calc (num / den : ℚ) < 2 ^ (log2Ratio num den + 1) := (log2Ratio_spec hn hd).2
    _ ≤ 2 ^ (unitExponent num den + 53) := zpow_le_zpow_right₀ one_le_two hq
    _ = ((2 * leadingBit : Nat) : ℚ) * 2 ^ unitExponent num den := by
        rw [zpow_add₀ two_ne_zero, mul_comm]
        norm_num [leadingBit]

theorem unitExponent_le_ratio {num den : Nat} (hn : num ≠ 0) (hd : 0 < den)
    (hq : -1074 < unitExponent num den) :
    (leadingBit : ℚ) * 2 ^ unitExponent num den ≤ num / den := by
  have he : log2Ratio num den = unitExponent num den + 52 := by
    unfold unitExponent at *
    omega
  calc (leadingBit : ℚ) * 2 ^ unitExponent num den = 2 ^ (unitExponent num den + 52) := by
        rw [zpow_add₀ two_ne_zero, mul_comm]
        norm_num [leadingBit]
    _ ≤ num / den := he ▸ (log2Ratio_spec hn hd).1

/-- A significand has 53 bits at most, a full one being counted to the next binade. -/
theorem units_unitExponent_le {num den : Nat} (hn : num ≠ 0) (hd : 0 < den) :
    units num den (unitExponent num den) ≤ 2 * leadingBit :=
  units_le hd (ratio_lt_unitExponent hn hd).le

/-- Above the smallest unit a significand has its leading bit. -/
theorem leadingBit_le_units {num den : Nat} (hn : num ≠ 0) (hd : 0 < den)
    (hq : -1074 < unitExponent num den) :
    leadingBit ≤ units num den (unitExponent num den) :=
  le_units hd (unitExponent_le_ratio hn hd hq)

theorem rankOfRatio_le_infinity (num den : Nat) : rankOfRatio num den ≤ infinityRank := by
  rcases eq_or_ne num 0 with rfl | hn
  · simp [rankOfRatio]
  · rw [rankOfRatio_eq hn]
    exact min_le_right _ _

/-- A greater ratio has no smaller rank. -/
theorem rankOfRatio_mono {num den num' den' : Nat} (hd : 0 < den) (hd' : 0 < den')
    (h : (num / den : ℚ) ≤ num' / den') : rankOfRatio num den ≤ rankOfRatio num' den' := by
  rcases eq_or_ne num 0 with rfl | hn
  · simp [rankOfRatio]
  have hn' : num' ≠ 0 := by
    rintro rfl
    have := (ratio_le_iff hd hd').mp h
    simp only [Nat.zero_mul, Nat.le_zero, Nat.mul_eq_zero] at this
    omega
  have hlog := log2Ratio_mono hn hn' hd hd' h
  have hq : unitExponent num den ≤ unitExponent num' den' := by
    unfold unitExponent
    omega
  have hq0 : -1074 ≤ unitExponent num den := le_max_left _ _
  rw [rankOfRatio_eq hn, rankOfRatio_eq hn']
  apply min_le_min_right
  rcases hq.lt_or_eq with hlt | heq
  · -- the smaller ratio does not get beyond the start of the greater one's binade
    have hm := units_unitExponent_le hn hd
    have hm' := leadingBit_le_units hn' hd' (hq0.trans_lt hlt)
    have hstep : (unitExponent num den + 1074).toNat + 1 ≤
        (unitExponent num' den' + 1074).toNat := by
      omega
    have := Nat.mul_le_mul_right leadingBit hstep
    rw [Nat.add_mul] at this
    omega
  · rw [heq]
    exact Nat.add_le_add_left (units_mono hd hd' _ h) _

/-! ## Exact numbers -/

/-- The magnitude of finite rank `r`. -/
def rankValue (r : Nat) : ℚ := significand r * 2 ^ exponent r

theorem units_eq {num den m : Nat} (hd : 0 < den) {q : Int} (h : (num / den : ℚ) = m * 2 ^ q) :
    units num den q = m :=
  (units_le hd h.le).antisymm (le_units hd h.ge)

theorem unitExponent_of_small {num den r : Nat} (hn : num ≠ 0) (hd : 0 < den)
    (hr : r < leadingBit) (h : (num / den : ℚ) = r * 2 ^ (-1074 : Int)) :
    unitExponent num den = -1074 := by
  have hlt : (2 : ℚ) ^ log2Ratio num den < 2 ^ (-1022 : Int) := by
    calc (2 : ℚ) ^ log2Ratio num den ≤ r * 2 ^ (-1074 : Int) := h ▸ (log2Ratio_spec hn hd).1
      _ < 2 ^ 52 * 2 ^ (-1074 : Int) := by
          apply mul_lt_mul_of_pos_right _ (by positivity)
          exact_mod_cast hr
      _ = 2 ^ (-1022 : Int) := by
          rw [← zpow_natCast, ← zpow_add₀ two_ne_zero]
          rfl
  have := (zpow_lt_zpow_iff_right₀ (one_lt_two : (1 : ℚ) < 2)).mp hlt
  unfold unitExponent
  omega

theorem unitExponent_of_full {num den m : Nat} {q : Int} (hn : num ≠ 0) (hd : 0 < den)
    (hq : -1074 ≤ q) (hlo : leadingBit ≤ m) (hhi : m < 2 * leadingBit)
    (h : (num / den : ℚ) = m * 2 ^ q) : unitExponent num den = q := by
  have hlog : log2Ratio num den = 52 + q := by
    apply log2Ratio_eq hn hd
    · rw [h, zpow_add₀ two_ne_zero]
      exact mul_le_mul_of_nonneg_right (by exact_mod_cast hlo) (by positivity)
    · rw [h, show 52 + q + 1 = 53 + q by ring, zpow_add₀ two_ne_zero]
      exact mul_lt_mul_of_pos_right (by exact_mod_cast hhi) (by positivity)
  unfold unitExponent
  omega

theorem rankValue_eq_zero {r : Nat} (h : rankValue r = 0) : r = 0 := by
  have hs : significand r = 0 := by
    exact_mod_cast (mul_eq_zero.mp h).resolve_right (by positivity)
  unfold significand at hs
  split at hs
  · exact hs
  · simp [leadingBit] at hs

/-- A rank is made up of the whole binades below it and its place in its own binade. -/
theorem rank_split {r : Nat} (h : leadingBit ≤ r) :
    (r / leadingBit - 1) * leadingBit + (leadingBit + r % leadingBit) = r := by
  have hk : 1 ≤ r / leadingBit := (Nat.one_le_div_iff (by decide)).mpr h
  have hmul : (r / leadingBit - 1) * leadingBit + leadingBit = r / leadingBit * leadingBit := by
    rw [← Nat.succ_mul, Nat.succ_eq_add_one, Nat.sub_add_cancel hk]
  have := Nat.div_add_mod' r leadingBit
  omega

/-- What is a binary64 number already is not rounded. -/
theorem rankOfRatio_rankValue {num den r : Nat} (hd : 0 < den) (hr : r < infinityRank)
    (h : (num / den : ℚ) = rankValue r) : rankOfRatio num den = r := by
  rcases eq_or_ne num 0 with rfl | hn
  · have hz : r = 0 := by
      apply rankValue_eq_zero
      rw [← h]
      simp
    simp [rankOfRatio, hz]
  rw [rankOfRatio_eq hn]
  by_cases hlow : r < leadingBit
  · -- below the leading bit the unit is the least there is
    have hv : (num / den : ℚ) = r * 2 ^ (-1074 : Int) := by
      rw [h, rankValue, significand, exponent, if_pos hlow, if_pos hlow]
    rw [unitExponent_of_small hn hd hlow hv, units_eq hd hv]
    simp [hr.le]
  · have hfull : leadingBit ≤ r := Nat.le_of_not_lt hlow
    have hk : 1 ≤ r / leadingBit := (Nat.one_le_div_iff (by decide)).mpr hfull
    have hrem : r % leadingBit < leadingBit := Nat.mod_lt _ (by decide)
    have hv : (num / den : ℚ) =
        (leadingBit + r % leadingBit : Nat) * 2 ^ ((r / leadingBit : Nat) - 1075 : Int) := by
      rw [h, rankValue, significand, exponent, if_neg hlow, if_neg hlow]
    have hwhole : ((r / leadingBit : Nat) - 1075 + 1074 : Int).toNat = r / leadingBit - 1 := by
      omega
    rw [unitExponent_of_full hn hd (by omega) (by omega) (by omega) hv, units_eq hd hv, hwhole,
      rank_split hfull]
    exact min_eq_left hr.le

/-! ## Decimals -/

theorem decimal_ratio (c : Nat) (e : Int) :
    (((c * Nat.pow 10 e.toNat : Nat) : ℚ) / ((Nat.pow 10 (-e).toNat : Nat) : ℚ)) = c * 10 ^ e := by
  rw [← zpow_toNat_div (by norm_num : (0 : ℚ) < 10)]
  push_cast [Nat.pow_eq]
  ring

theorem pow_ten_pos (n : Nat) : 0 < Nat.pow 10 n := Nat.pow_pos (by decide)

theorem rankOfRatio_of_huge {c : Nat} {e : Int} (hc : c ≠ 0) (he : 309 < e) :
    rankOfRatio (c * Nat.pow 10 e.toNat) (Nat.pow 10 (-e).toNat) = infinityRank := by
  apply (rankOfRatio_le_infinity _ _).antisymm
  obtain ⟨n, hn, htop⟩ : ∃ n ≤ 310, infinityRank = rankOfRatio (Nat.pow 10 n) 1 :=
    ⟨310, le_rfl, by decide +kernel⟩
  rw [htop]
  apply rankOfRatio_mono Nat.one_pos (pow_ten_pos _)
  rw [ratio_le_iff Nat.one_pos (pow_ten_pos _), show (-e).toNat = 0 by omega]
  calc Nat.pow 10 n * Nat.pow 10 0 = 1 * Nat.pow 10 n := Nat.mul_comm _ _
    _ ≤ c * Nat.pow 10 e.toNat :=
      Nat.mul_le_mul (Nat.pos_of_ne_zero hc) (Nat.pow_le_pow_right (by decide) (by omega))
    _ = c * Nat.pow 10 e.toNat * 1 := (Nat.mul_one _).symm

theorem rankOfRatio_of_tiny {c : Nat} {e : Int} (he : e < -(400 + c.log2 : Nat)) :
    rankOfRatio (c * Nat.pow 10 e.toNat) (Nat.pow 10 (-e).toNat) = 0 := by
  apply Nat.le_antisymm _ (Nat.zero_le _)
  obtain ⟨n, hn, hbottom⟩ : ∃ n ≤ 400, 0 = rankOfRatio 1 (Nat.pow 10 n) :=
    ⟨400, le_rfl, by decide +kernel⟩
  rw [hbottom]
  apply rankOfRatio_mono (pow_ten_pos _) (pow_ten_pos _)
  rw [ratio_le_iff (pow_ten_pos _) (pow_ten_pos _), show e.toNat = 0 by omega]
  have hc : c ≤ Nat.pow 10 (c.log2 + 1) :=
    Nat.lt_log2_self.le.trans (Nat.pow_le_pow_left (by decide) _)
  calc c * Nat.pow 10 0 * Nat.pow 10 n = c * Nat.pow 10 n := by simp
    _ ≤ Nat.pow 10 (c.log2 + 1) * Nat.pow 10 n := Nat.mul_le_mul_right _ hc
    _ = Nat.pow 10 (c.log2 + 1 + n) := (Nat.pow_add _ _ _).symm
    _ ≤ Nat.pow 10 (-e).toNat := Nat.pow_le_pow_right (by decide) (by omega)
    _ = 1 * Nat.pow 10 (-e).toNat := (Nat.one_mul _).symm

/-- The first tests of `rankOfDecimal` only save work. -/
theorem rankOfDecimal_eq (c : Nat) (e : Int) :
    rankOfDecimal c e = rankOfRatio (c * Nat.pow 10 e.toNat) (Nat.pow 10 (-e).toNat) := by
  unfold rankOfDecimal
  split
  · next hc => simp [hc, rankOfRatio]
  · next hc =>
    split
    · next he => exact (rankOfRatio_of_huge hc he).symm
    · split
      · next he => exact (rankOfRatio_of_tiny he).symm
      · rfl

theorem rankOfDecimal_mono {c c' : Nat} {e e' : Int} (h : (c : ℚ) * 10 ^ e ≤ c' * 10 ^ e') :
    rankOfDecimal c e ≤ rankOfDecimal c' e' := by
  rw [rankOfDecimal_eq, rankOfDecimal_eq]
  apply rankOfRatio_mono (pow_ten_pos _) (pow_ten_pos _)
  rwa [decimal_ratio, decimal_ratio]

theorem rankOfDecimal_congr {c c' : Nat} {e e' : Int} (h : (c : ℚ) * 10 ^ e = c' * 10 ^ e') :
    rankOfDecimal c e = rankOfDecimal c' e' :=
  (rankOfDecimal_mono h.le).antisymm (rankOfDecimal_mono h.ge)

theorem rankOfDecimal_le_infinity (c : Nat) (e : Int) : rankOfDecimal c e ≤ infinityRank := by
  rw [rankOfDecimal_eq]
  exact rankOfRatio_le_infinity _ _

/-- Zeros at the end of the digits only move the exponent. -/
theorem mul_pow_mul_zpow (c k : Nat) (e : Int) :
    ((c * 10 ^ k : Nat) : ℚ) * 10 ^ e = c * 10 ^ (e + k) := by
  rw [zpow_add₀ (by norm_num), zpow_natCast]
  push_cast
  ring

theorem rankOfDecimal_mul_pow (c k : Nat) (e : Int) :
    rankOfDecimal (c * 10 ^ k) e = rankOfDecimal c (e + k) :=
  rankOfDecimal_congr (mul_pow_mul_zpow c k e)

theorem exactDecimal_value (r : Nat) :
    ((exactDecimal r).1 : ℚ) * 10 ^ (exactDecimal r).2 = rankValue r := by
  unfold exactDecimal rankValue
  simp only
  split
  · next hq =>
    have hpow : (2 : ℚ) ^ exponent r = 2 ^ (exponent r).toNat := by
      rw [← zpow_natCast, Int.toNat_of_nonneg hq]
    simp [hpow]
  · next hq =>
    obtain ⟨n, hn⟩ : ∃ n : Nat, exponent r = -n := ⟨(-exponent r).toNat, by omega⟩
    simp only [hn, neg_neg, Int.toNat_natCast, Nat.pow_eq]
    push_cast
    rw [zpow_neg, zpow_neg, zpow_natCast, zpow_natCast, show (10 : ℚ) = 2 * 5 by norm_num, mul_pow]
    field_simp

/-- The exact decimal of a magnitude reads back as its rank. -/
theorem rankOfDecimal_exactDecimal {r : Nat} (hr : r < infinityRank) :
    rankOfDecimal (exactDecimal r).1 (exactDecimal r).2 = r := by
  rw [rankOfDecimal_eq]
  apply rankOfRatio_rankValue (pow_ten_pos _) hr
  rw [decimal_ratio, exactDecimal_value]

end LineChart.Number
