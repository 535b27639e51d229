import Mathlib.Data.Int.Log
import Mathlib.Data.Rat.Floor
import LineChart.Proofs.Number.Rounding
import LineChart.Proofs.Number.Shortest

namespace LineChart.Number

/-! ## The points of a grid next to a number -/

theorem rankOfDecimal_mono_left {n n' : Nat} (h : n ≤ n') (e : Int) :
    rankOfDecimal n e ≤ rankOfDecimal n' e :=
  rankOfDecimal_mono (mul_le_mul_of_nonneg_right (by exact_mod_cast h) (by positivity))

/-- What lies between two decimals that read back reads back too. -/
theorem rankOfDecimal_of_between {r m n n' : Nat} {e : Int} (hn : rankOfDecimal n e = r)
    (hn' : rankOfDecimal n' e = r) (h : n ≤ m) (h' : m ≤ n') : rankOfDecimal m e = r :=
  le_antisymm (hn' ▸ rankOfDecimal_mono_left h' e) (hn ▸ rankOfDecimal_mono_left h e)

/-- How far the multiple `d * 10 ^ cut` is from `c`. -/
def gridDistance (c cut d : Nat) : Nat := (d * 10 ^ cut - c) + (c - d * 10 ^ cut)

section Neighbours

variable {r c cut d d' : Nat} {e : Int}

/-- If a point of the grid reads back, so does the neighbour on its side, which is no farther. -/
theorem exists_nearer_neighbour (hc : rankOfDecimal c e = r)
    (hd' : rankOfDecimal d' (e + cut) = r) :
    ∃ d, (d = c / 10 ^ cut ∨ d = c / 10 ^ cut + 1) ∧ rankOfDecimal d (e + cut) = r ∧
      gridDistance c cut d ≤ gridDistance c cut d' := by
  have hlow := Nat.div_mul_le_self c (10 ^ cut)
  have hhigh := Nat.lt_div_mul_add (a := c) (Nat.pow_pos (n := cut) (show 0 < 10 by decide))
  simp only [← rankOfDecimal_mul_pow] at hd' ⊢
  unfold gridDistance
  rcases Nat.lt_or_ge (c / 10 ^ cut) d' with hlt | hge
  · have hle := Nat.mul_le_mul_right (10 ^ cut) (Nat.succ_le_of_lt hlt)
    rw [Nat.succ_mul] at hle
    refine ⟨c / 10 ^ cut + 1, .inr rfl, ?_, ?_⟩
    · exact rankOfDecimal_of_between hc hd' (by rw [Nat.succ_mul]; omega)
        (by rw [Nat.succ_mul]; omega)
    · rw [Nat.succ_mul]
      omega
  · have hle := Nat.mul_le_mul_right (10 ^ cut) hge
    exact ⟨c / 10 ^ cut, .inl rfl, rankOfDecimal_of_between hd' hc hle hlow, by omega⟩

/-- The neighbours are tried in the order of their distance. -/
theorem exists_neighbour?_order (r c cut : Nat) (e : Int) : ∃ a b,
    neighbour? r c e cut = [a, b].find? (fun d => rankOfDecimal d (e + cut) == r) ∧
    (∀ d, d = c / 10 ^ cut ∨ d = c / 10 ^ cut + 1 → d = a ∨ d = b) ∧
    gridDistance c cut a ≤ gridDistance c cut b := by
  have hlow := Nat.div_add_mod' c (10 ^ cut)
  have hrem := Nat.mod_lt c (Nat.pow_pos (n := cut) (show 0 < 10 by decide))
  unfold gridDistance
  by_cases h : 2 * (c % 10 ^ cut) < 10 ^ cut
  · refine ⟨c / 10 ^ cut, c / 10 ^ cut + 1, ?_, fun d hd => hd, ?_⟩
    · exact congrArg _ (if_pos h)
    · rw [Nat.succ_mul]
      omega
  · refine ⟨c / 10 ^ cut + 1, c / 10 ^ cut, ?_, fun d hd => hd.symm, ?_⟩
    · exact congrArg _ (if_neg h)
    · rw [Nat.succ_mul]
      omega

/-- Of the neighbours that read back the nearer is found; so it is nearest of all such points. -/
theorem exists_neighbour?_eq (hc : rankOfDecimal c e = r)
    (hd' : rankOfDecimal d' (e + cut) = r) :
    ∃ d, neighbour? r c e cut = some d ∧ gridDistance c cut d ≤ gridDistance c cut d' := by
  obtain ⟨d, hd, hread, hle⟩ := exists_nearer_neighbour hc hd'
  obtain ⟨a, b, horder, hmem, hab⟩ := exists_neighbour?_order r c cut e
  rw [horder]
  by_cases ha : rankOfDecimal a (e + cut) = r
  · refine ⟨a, by simp [ha], le_trans ?_ hle⟩
    rcases hmem d hd with rfl | rfl
    · exact le_rfl
    · exact hab
  · -- the nearer of the two does not read back, so that the other is found
    have hdb : d = b := (hmem d hd).resolve_left (by rintro rfl; exact ha hread)
    subst hdb
    exact ⟨d, by simp [ha, hread], hle⟩

theorem le_of_neighbour?_eq {d : Nat} (h : neighbour? r c e cut = some d) :
    d ≤ c / 10 ^ cut + 1 := by
  have hmem := List.mem_of_find?_eq_some h
  split at hmem <;> simp only [List.mem_cons, List.not_mem_nil, or_false, Nat.pow_eq] at hmem <;>
    omega

/-- The search ends on the coarsest grid that has a point which reads back, at the nearest of
them. -/
theorem coarsest_spec (hc : rankOfDecimal c e = r) (cut : Nat) : ∃ cut' ≤ cut, ∃ d,
    coarsest r c e cut = (d, e + cut') ∧ d ≤ c / 10 ^ cut' + 1 ∧
    (∀ d', rankOfDecimal d' (e + cut') = r → gridDistance c cut' d ≤ gridDistance c cut' d') ∧
    ∀ finer, cut' < finer → finer ≤ cut → ∀ d', rankOfDecimal d' (e + finer) ≠ r := by
  induction cut with
  | zero =>
    refine ⟨0, le_rfl, c, by simp [coarsest], by simp, fun d' _ => by simp [gridDistance], ?_⟩
    intro finer h h'
    omega
  | succ cut ih =>
    rw [coarsest]
    cases hn : neighbour? r c e (cut + 1) with
    | some d =>
      refine ⟨cut + 1, le_rfl, d, rfl, le_of_neighbour?_eq hn, fun d' hd' => ?_, ?_⟩
      · obtain ⟨d'', heq, hle⟩ := exists_neighbour?_eq hc hd'
        rwa [Option.some.inj (hn.symm.trans heq)]
      · intro finer h h'
        omega
    | none =>
      obtain ⟨cut', hcut', d, heq, hle, hnearest, hnone⟩ := ih
      refine ⟨cut', by omega, d, heq, hle, hnearest, fun finer h h' d' hd' => ?_⟩
      rcases Nat.lt_or_eq_of_le h' with hlt | rfl
      · exact hnone finer h (by omega) d' hd'
      · obtain ⟨d'', heq', -⟩ := exists_neighbour?_eq hc hd'
        rw [hn] at heq'
        exact absurd heq' (by simp)

end Neighbours

/-! ## Decimals on a grid -/

/-- A decimal that is spelled out ends on the grid of its last digit. -/
def Decimal.unit (d : Decimal) : Int := d.point - d.digits.length

/-- The number that the decimal stands for. -/
def Decimal.value (d : Decimal) : ℚ := d.significand * 10 ^ d.unit

theorem Decimal.rank_eq (d : Decimal) : d.rank = rankOfDecimal d.significand d.unit := rfl

theorem Decimal.isNearest_rank (d : Decimal) : IsNearest d.value d.rank :=
  isNearest_rankOfDecimal _ _

/-- Reading back is rounding. -/
theorem Decimal.rank_eq_iff {d : Decimal} {r : Nat} : d.rank = r ↔ IsNearest d.value r := by
  constructor
  · rintro rfl
    exact d.isNearest_rank
  · exact d.isNearest_rank.unique

theorem Decimal.value_ofScaled (n : Nat) (e : Int) : (Decimal.ofScaled n e).value = n * 10 ^ e := by
  obtain ⟨k, -, hn, hp⟩ := Decimal.ofScaled_spec n e
  rw [Decimal.value, Decimal.unit, hp, ← mul_pow_mul_zpow, hn]

theorem Decimal.Normal.value_lt {d : Decimal} (hd : d.Normal) : d.value < 10 ^ d.point := by
  have hlt : (d.significand : ℚ) < 10 ^ (d.digits.length : Int) := by
    exact_mod_cast hd.significand_lt
  calc d.value < 10 ^ (d.digits.length : Int) * 10 ^ d.unit :=
        mul_lt_mul_of_pos_right hlt (by positivity)
    _ = 10 ^ d.point := by
        rw [← zpow_add₀ (by norm_num), Decimal.unit]
        congr 1
        ring

/-- A decimal whose last digit is no finer than a grid is a point of it. -/
theorem Decimal.exists_grid {d : Decimal} {g : Int} (h : g ≤ d.unit) :
    ∃ n : Nat, d.value = n * 10 ^ g ∧ rankOfDecimal n g = d.rank := by
  obtain ⟨k, hk⟩ : ∃ k : Nat, d.unit = g + k := ⟨(d.unit - g).toNat, by omega⟩
  refine ⟨d.significand * 10 ^ k, ?_, ?_⟩
  · rw [Decimal.value, hk, mul_pow_mul_zpow]
  · rw [rankOfDecimal_mul_pow, ← hk, Decimal.rank_eq]

theorem toDigits_pow (m : Nat) : Nat.toDigits 10 (10 ^ m) = '1' :: List.replicate m '0' := by
  induction m with
  | zero => rfl
  | succ m ih =>
    have h := Nat.toDigits_append_toDigits (b := 10) (n := 10 ^ m) (d := 0) (by decide)
      (Nat.pow_pos (by decide)) (by decide)
    rw [Nat.add_zero, ← Nat.pow_succ', ih] at h
    rw [← h, List.replicate_succ']
    rfl

/-- A power of ten is one digit long once its zeros are left out. -/
theorem digits_ofScaled_pow (m : Nat) (e : Int) : (Decimal.ofScaled (10 ^ m) e).digits = ['1'] := by
  have hdrop : (List.replicate m '0' ++ ['1']).dropWhile (· == '0') = ['1'] := by
    rw [List.dropWhile_append_of_pos fun c hc => by simp [List.eq_of_mem_replicate hc]]
    rfl
  simp [Decimal.ofScaled, toDigits_pow, hdrop]

theorem length_ofScaled_le {n m : Nat} (hn : n ≤ 10 ^ (m + 1)) (e : Int) :
    (Decimal.ofScaled n e).digits.length ≤ m + 1 := by
  rcases hn.lt_or_eq with hlt | rfl
  · obtain ⟨k, hk, -⟩ := Decimal.ofScaled_spec n e
    have := (Nat.length_toDigits_le_iff (b := 10) (by decide) (Nat.succ_pos m)).mpr hlt
    omega
  · rw [digits_ofScaled_pow]
    simp

/-! ## The fewest digits -/

/-- The search for the digits of rank `r`, which is exactly `c * 10 ^ e`: it starts on the grid of
its first digit, `top` places up, and ends `cut` places up at the point `d`. -/
structure Search (r c : Nat) (e : Int) (top cut d : Nat) : Prop where
  exact_value : rankValue r = c * 10 ^ e
  reads_back : rankOfDecimal c e = r
  pow_le : 10 ^ top ≤ c
  lt_pow : c < 10 ^ (top + 1)
  cut_le : cut ≤ top
  shortest_eq : shortest r = Decimal.ofScaled d (e + cut)
  le_next : d ≤ c / 10 ^ cut + 1
  nearest : ∀ d', rankOfDecimal d' (e + cut) = r → gridDistance c cut d ≤ gridDistance c cut d'
  coarsest : ∀ g, cut < g → g ≤ top → ∀ d', rankOfDecimal d' (e + g) ≠ r

theorem exists_search {r : Nat} (h0 : r ≠ 0) (hr : r < infinityRank) :
    ∃ c e top cut d, Search r c e top cut d := by
  have hread := rankOfDecimal_exactDecimal hr
  have hvalue := exactDecimal_value r
  have hshortest : shortest r = Decimal.ofScaled
      (coarsest r (exactDecimal r).1 (exactDecimal r).2
        ((Nat.toDigits 10 (exactDecimal r).1).length - 1)).1
      (coarsest r (exactDecimal r).1 (exactDecimal r).2
        ((Nat.toDigits 10 (exactDecimal r).1).length - 1)).2 := rfl
  generalize (exactDecimal r).1 = c at *
  generalize (exactDecimal r).2 = e at *
  have hc : c ≠ 0 := by
    rintro rfl
    exact h0 (by simpa [rankOfDecimal] using hread.symm)
  obtain ⟨top, htop⟩ : ∃ top, (Nat.toDigits 10 c).length = top + 1 :=
    ⟨_, (Nat.sub_add_cancel Nat.length_toDigits_pos).symm⟩
  -- so many places up there is only the first digit left
  have hlt : c < 10 ^ (top + 1) :=
    (Nat.length_toDigits_le_iff (b := 10) (by decide) (Nat.succ_pos top)).mp htop.le
  have hle : 10 ^ top ≤ c := by
    by_contra hcon
    rcases Nat.eq_zero_or_pos top with rfl | hpos
    · exact hc (by simpa using hcon)
    · have := (Nat.length_toDigits_le_iff (b := 10) (by decide) hpos).mpr (Nat.lt_of_not_le hcon)
      omega
  obtain ⟨cut, hcut, d, heq, hnext, hnearest, hnone⟩ := coarsest_spec hread top
  rw [htop, Nat.add_sub_cancel, heq] at hshortest
  exact ⟨c, e, top, cut, d, hvalue.symm, hread, hle, hlt, hcut, hshortest, hnext, hnearest, hnone⟩

namespace Search

variable {r c top cut d : Nat} {e : Int}

theorem length_le (h : Search r c e top cut d) :
    (shortest r).digits.length ≤ top - cut + 1 := by
  rw [h.shortest_eq]
  apply length_ofScaled_le
  have hlt : c / 10 ^ cut < 10 ^ (top - cut + 1) := by
    rw [Nat.div_lt_iff_lt_mul (Nat.pow_pos (by decide)), ← Nat.pow_add]
    have := h.cut_le
    rw [show top - cut + 1 + cut = top + 1 by omega]
    exact h.lt_pow
  exact h.le_next.trans hlt

/-- A decimal that reads back and is finer than a grid, with few digits, is below the first power
of ten below the number; so this power reads back, and the search ended on its grid. -/
theorem of_finer (h : Search r c e top cut d) {D : Decimal} (hD : D.Normal) (hrank : D.rank = r)
    {g : Nat} (hfiner : D.unit < e + g) (hlen : D.digits.length + g ≤ top + 1) :
    D.value < ((1 : Nat) : ℚ) * 10 ^ (e + top) ∧ rankOfDecimal 1 (e + top) = r ∧ cut = top := by
  have hpoint : D.point ≤ e + top := by
    unfold Decimal.unit at hfiner
    omega
  have hvalue : D.value < ((1 : Nat) : ℚ) * 10 ^ (e + top) := by
    rw [Nat.cast_one, one_mul]
    exact hD.value_lt.trans_le (zpow_le_zpow_right₀ (by norm_num) hpoint)
  have hread : rankOfDecimal 1 (e + top) = r := by
    apply le_antisymm
    · rw [← rankOfDecimal_mul_pow, one_mul, ← h.reads_back]
      exact rankOfDecimal_mono_left h.pow_le e
    · rw [← hrank, Decimal.rank_eq]
      exact rankOfDecimal_mono hvalue.le
  refine ⟨hvalue, hread, ?_⟩
  by_contra hne
  exact h.coarsest top (lt_of_le_of_ne h.cut_le hne) le_rfl 1 hread

/-- No decimal with fewer digits reads back. -/
theorem length_le_of_rank_eq (h : Search r c e top cut d) {D : Decimal} (hD : D.Normal)
    (hrank : D.rank = r) : (shortest r).digits.length ≤ D.digits.length := by
  by_contra hcon
  have hlen := h.length_le
  have hpos := hD.length_pos
  have hcut : cut < top := by omega
  rcases lt_or_ge D.unit (e + (cut + 1 : Nat)) with hfiner | hcoarse
  · have := (h.of_finer hD hrank hfiner (by omega)).2.2
    omega
  · obtain ⟨n, -, hn⟩ := Decimal.exists_grid hcoarse
    exact h.coarsest (cut + 1) (by omega) hcut n (hn.trans hrank)

/-- The distance on the grid is the distance of the values. -/
theorem abs_sub_eq (h : Search r c e top cut d) (n : Nat) :
    |(n : ℚ) * 10 ^ (e + cut) - rankValue r| = gridDistance c cut n * 10 ^ e := by
  have habs : |((n * 10 ^ cut : Nat) : ℚ) - c| = gridDistance c cut n := by
    unfold gridDistance
    rcases le_total (n * 10 ^ cut) c with hle | hle
    · have hle' : ((n * 10 ^ cut : Nat) : ℚ) ≤ c := by exact_mod_cast hle
      rw [abs_sub_comm, abs_of_nonneg (sub_nonneg.mpr hle'), Nat.sub_eq_zero_of_le hle,
        Nat.zero_add, Nat.cast_sub hle]
    · have hle' : (c : ℚ) ≤ (n * 10 ^ cut : Nat) := by exact_mod_cast hle
      rw [abs_of_nonneg (sub_nonneg.mpr hle'), Nat.sub_eq_zero_of_le hle, Nat.add_zero,
        Nat.cast_sub hle]
  rw [← mul_pow_mul_zpow, h.exact_value, ← sub_mul, abs_mul, habs,
    abs_of_pos (by positivity : (0 : ℚ) < 10 ^ e)]

/-- Of the decimals with as few digits that read back none is nearer. -/
theorem abs_sub_le (h : Search r c e top cut d) {D : Decimal} (hD : D.Normal)
    (hrank : D.rank = r) (hlen : D.digits.length = (shortest r).digits.length) :
    |(shortest r).value - rankValue r| ≤ |D.value - rankValue r| := by
  have hnearest : ∀ n : Nat, rankOfDecimal n (e + cut) = r →
      |(shortest r).value - rankValue r| ≤ |(n : ℚ) * 10 ^ (e + cut) - rankValue r| := by
    intro n hn
    rw [h.shortest_eq, Decimal.value_ofScaled, h.abs_sub_eq, h.abs_sub_eq]
    exact mul_le_mul_of_nonneg_right (by exact_mod_cast h.nearest n hn) (by positivity)
  rcases lt_or_ge D.unit (e + cut) with hfiner | hcoarse
  · -- then the first power of ten below the number reads back, and lies between the two
    have hle := h.length_le
    have hcut := h.cut_le
    obtain ⟨hvalue, hread, rfl⟩ := h.of_finer hD hrank hfiner (by omega)
    have hpow : ((1 : Nat) : ℚ) * 10 ^ (e + cut) ≤ rankValue r := by
      rw [h.exact_value, ← mul_pow_mul_zpow, one_mul]
      exact mul_le_mul_of_nonneg_right (by exact_mod_cast h.pow_le) (by positivity)
    refine (hnearest 1 hread).trans ?_
    rw [abs_sub_comm, abs_sub_comm D.value, abs_of_nonneg (sub_nonneg.mpr hpow),
      abs_of_nonneg (by linarith)]
    linarith
  · obtain ⟨n, hn, hnrank⟩ := Decimal.exists_grid hcoarse
    rw [hn]
    exact hnearest n (hnrank.trans hrank)

end Search

/-- The decimal rounds to the magnitude of rank `r`, none with fewer digits does, and none with as
many digits that does is nearer to it. -/
structure IsShortest (r : Nat) (d : Decimal) : Prop where
  normal : d.Normal
  rounds : IsNearest d.value r
  fewest : ∀ d' : Decimal, d'.Normal → IsNearest d'.value r → d.digits.length ≤ d'.digits.length
  nearest : ∀ d' : Decimal, d'.Normal → IsNearest d'.value r →
    d'.digits.length = d.digits.length → |d.value - rankValue r| ≤ |d'.value - rankValue r|

theorem isShortest_shortest {r : Nat} (h0 : r ≠ 0) (hr : r < infinityRank) :
    IsShortest r (shortest r) := by
  obtain ⟨c, e, top, cut, d, h⟩ := exists_search h0 hr
  exact ⟨normal_shortest h0 hr, Decimal.rank_eq_iff.mp (rank_shortest hr),
    fun D hD hrank => h.length_le_of_rank_eq hD (Decimal.rank_eq_iff.mpr hrank),
    fun D hD hrank => h.abs_sub_le hD (Decimal.rank_eq_iff.mpr hrank)⟩

/-! ## Seventeen digits suffice -/

/-- A magnitude is at most `2 ^ 53` steps from zero, as wide as the step up to it. -/
theorem rankValue_succ_le (r : Nat) :
    rankValue (r + 1) ≤ 2 ^ 53 * (rankValue (r + 1) - rankValue r) := by
  obtain ⟨k, m, rfl, hlo, hhi⟩ := exists_binade r
  rw [Nat.add_assoc, rankValue_binade hlo hhi.le, rankValue_binade (by omega) (by omega)]
  have hm : ((m + 1 : Nat) : ℚ) ≤ 2 ^ 53 := by
    have : m + 1 ≤ 2 ^ 53 := hhi
    exact_mod_cast this
  have hstep : (0 : ℚ) < 2 ^ ((k : Int) - 1074) := by positivity
  push_cast at hm ⊢
  nlinarith

/-- What is nearer than half the least step is rounded to a magnitude. -/
theorem isNearest_of_close {r : Nat} (hr : r < infinityRank) {x : ℚ}
    (hx : 2 ^ 54 * |x - rankValue r| < rankValue r) : IsNearest x r := by
  have habs := abs_le.mp (le_refl |x - rankValue r|)
  refine isNearest_of_midpoints hr.le (fun p hp => ?_) fun _ => ?_
  · subst hp
    have hstep := rankValue_succ_le p
    have hlt : midpoint p < x := by
      unfold midpoint
      linarith
    exact ⟨hlt.le, fun h => absurd h hlt.ne'⟩
  · have hstep := rankValue_succ_le r
    have hmono := strictMono_rankValue r.lt_succ_self
    have hlt : x < midpoint r := by
      unfold midpoint
      linarith
    exact ⟨hlt.le, fun h => absurd h hlt.ne⟩

/-- Rounding to seventeen digits keeps the magnitude. -/
theorem exists_seventeen {r : Nat} (h0 : r ≠ 0) (hr : r < infinityRank) :
    ∃ d : Decimal, d.Normal ∧ IsNearest d.value r ∧ d.digits.length ≤ 17 := by
  have hpos : 0 < rankValue r := by
    rw [← rankValue_zero]
    exact strictMono_rankValue (Nat.pos_of_ne_zero h0)
  obtain ⟨e, hlo, hhi⟩ : ∃ e : Int, 10 ^ 16 * 10 ^ e ≤ rankValue r ∧
      rankValue r < 10 ^ 17 * (10 : ℚ) ^ e := by
    refine ⟨Int.log 10 (rankValue r) - 16, ?_, ?_⟩
    · have hlog := Int.zpow_log_le_self (b := 10) (by decide) hpos
      rwa [← zpow_natCast, ← zpow_add₀ (by norm_num), show ((16 : Nat) : Int) +
        (Int.log 10 (rankValue r) - 16) = Int.log 10 (rankValue r) by push_cast; ring]
    · have hlog := Int.lt_zpow_succ_log_self (b := 10) (by decide) (rankValue r)
      rwa [← zpow_natCast, ← zpow_add₀ (by norm_num), show ((17 : Nat) : Int) +
        (Int.log 10 (rankValue r) - 16) = Int.log 10 (rankValue r) + 1 by push_cast; ring]
  have hunit : (0 : ℚ) < 10 ^ e := by positivity
  obtain ⟨y, hy⟩ : ∃ y, rankValue r = y * 10 ^ e := ⟨rankValue r / 10 ^ e, by field_simp⟩
  rw [hy] at hlo hhi
  have hy16 : 10 ^ 16 ≤ y := le_of_mul_le_mul_right hlo hunit
  have hy0 : 0 < y := (by norm_num : (0 : ℚ) < 10 ^ 16).trans_le hy16
  have hy17 : y < 10 ^ 17 := lt_of_mul_lt_mul_right hhi hunit.le
  -- the nearest multiple of `10 ^ e` is off by half of it
  obtain ⟨n, hn, hn'⟩ : ∃ n : Nat, (n : ℚ) ≤ y + 1 / 2 ∧ y + 1 / 2 < n + 1 :=
    ⟨⌊y + 1 / 2⌋₊, Nat.floor_le (by positivity), Nat.lt_floor_add_one _⟩
  have hn0 : n ≠ 0 := by
    rintro rfl
    norm_num at hn'
    linarith
  have hnle : n ≤ 10 ^ 17 := by
    have : (n : ℚ) < (10 ^ 17 + 1 : Nat) := by
      push_cast
      linarith
    exact Nat.le_of_lt_succ (by exact_mod_cast this)
  refine ⟨Decimal.ofScaled n e, Decimal.normal_ofScaled hn0 e, ?_, length_ofScaled_le hnle e⟩
  rw [Decimal.value_ofScaled]
  apply isNearest_of_close hr
  have hoff : |(n : ℚ) - y| ≤ 1 / 2 := abs_le.mpr ⟨by linarith, by linarith⟩
  rw [hy, ← sub_mul, abs_mul, abs_of_pos hunit, ← mul_assoc]
  exact mul_lt_mul_of_pos_right (by linarith) hunit

theorem IsShortest.length_le {r : Nat} {d : Decimal} (h : IsShortest r d) (h0 : r ≠ 0)
    (hr : r < infinityRank) : d.digits.length ≤ 17 := by
  obtain ⟨d', hd', hrounds, hlen⟩ := exists_seventeen h0 hr
  exact (h.fewest d' hd' hrounds).trans hlen

end LineChart.Number
