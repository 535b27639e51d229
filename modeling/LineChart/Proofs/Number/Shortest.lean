import Mathlib.Data.List.TakeWhile
import LineChart.Number.Shortest
import LineChart.Proofs.Number.Nearest

namespace LineChart.Number

/-- The whole number that the digits spell. -/
def Decimal.significand (d : Decimal) : Nat := Nat.ofDigitChars 10 d.digits 0

def Decimal.rank (d : Decimal) : Nat :=
  rankOfDecimal d.significand (d.point - d.digits.length)

/-- There are digits only, and the first of them counts. -/
structure Decimal.Normal (d : Decimal) : Prop where
  ne_nil : d.digits ≠ []
  isDigit : ∀ c ∈ d.digits, c.isDigit
  le_significand : 10 ^ (d.digits.length - 1) ≤ d.significand
  significand_lt : d.significand < 10 ^ d.digits.length

theorem eq_append_zeros (ds : List Char) :
    ∃ k, ds = (ds.reverse.dropWhile (· == '0')).reverse ++ List.replicate k '0' := by
  refine ⟨(ds.reverse.takeWhile (· == '0')).length, ?_⟩
  have hz : ds.reverse.takeWhile (· == '0') =
      List.replicate (ds.reverse.takeWhile (· == '0')).length '0' := by
    apply List.eq_replicate_of_mem
    intro c hc
    simpa using List.mem_takeWhile_imp hc
  rw [← List.reverse_inj, List.reverse_append, List.reverse_replicate, List.reverse_reverse, ← hz,
    List.takeWhile_append_dropWhile]

/-- Zeros that are left out of the digits go into the point. -/
theorem Decimal.ofScaled_spec (n : Nat) (e : Int) :
    ∃ k : Nat, (Nat.toDigits 10 n).length = (Decimal.ofScaled n e).digits.length + k ∧
      (Decimal.ofScaled n e).significand * 10 ^ k = n ∧
      (Decimal.ofScaled n e).point - (Decimal.ofScaled n e).digits.length = e + k := by
  obtain ⟨k, hk⟩ := eq_append_zeros (Nat.toDigits 10 n)
  have hlen := congrArg List.length hk
  rw [List.length_append, List.length_replicate] at hlen
  refine ⟨k, hlen, ?_, ?_⟩
  · have hn := congrArg (fun l => Nat.ofDigitChars 10 l 0) hk
    simp only [Nat.ofDigitChars_ten_toDigits, Nat.ofDigitChars_append,
      Nat.ofDigitChars_replicate_zero] at hn
    exact (hn.trans (Nat.mul_comm _ _)).symm
  · simp only [ofScaled, hlen]
    push_cast
    ring

theorem Decimal.rank_ofScaled (n : Nat) (e : Int) :
    (Decimal.ofScaled n e).rank = rankOfDecimal n e := by
  obtain ⟨k, -, hn, hp⟩ := Decimal.ofScaled_spec n e
  rw [Decimal.rank, hp, ← rankOfDecimal_mul_pow, hn]

theorem Decimal.isDigit_ofScaled {n : Nat} {e : Int} {c : Char}
    (hc : c ∈ (Decimal.ofScaled n e).digits) : c.isDigit := by
  have hdrop := (List.dropWhile_sublist _).mem (List.mem_reverse.mp hc)
  exact Nat.isDigit_of_mem_toDigits (by decide) (by decide) (List.mem_reverse.mp hdrop)

theorem Decimal.normal_ofScaled {n : Nat} (hn : n ≠ 0) (e : Int) :
    (Decimal.ofScaled n e).Normal := by
  have hdigit : ∀ c ∈ (Decimal.ofScaled n e).digits, c.isDigit := fun _ => Decimal.isDigit_ofScaled
  obtain ⟨k, hlen, hsig, -⟩ := Decimal.ofScaled_spec n e
  generalize Decimal.ofScaled n e = d at *
  have hlt : n < 10 ^ (d.digits.length + k) :=
    hlen ▸ (Nat.length_toDigits_le_iff (by decide) Nat.length_toDigits_pos).mp le_rfl
  have hlt' : d.significand < 10 ^ d.digits.length := by
    rw [← hsig, Nat.pow_add] at hlt
    exact Nat.lt_of_mul_lt_mul_right hlt
  have hne : d.digits ≠ [] := by
    intro h
    rw [h] at hlt'
    have : d.significand = 0 := by simpa using hlt'
    rw [this, Nat.zero_mul] at hsig
    exact hn hsig.symm
  have hpos : 0 < d.digits.length := List.length_pos_iff.mpr hne
  refine ⟨hne, hdigit, ?_, hlt'⟩
  -- with a smaller significand `n` would have fewer digits
  by_contra hcon
  have hsmall : n < 10 ^ (d.digits.length - 1 + k) := by
    rw [← hsig, Nat.pow_add]
    exact Nat.mul_lt_mul_of_pos_right (Nat.lt_of_not_le hcon) (Nat.pow_pos (by decide))
  rcases Nat.eq_zero_or_pos (d.digits.length - 1 + k) with h0 | h0
  · rw [h0, Nat.pow_zero] at hsmall
    omega
  · have := (Nat.length_toDigits_le_iff (by decide) h0).mpr hsmall
    omega

theorem rankOfDecimal_neighbour {r c cut d : Nat} {e : Int} (h : neighbour? r c e cut = some d) :
    rankOfDecimal d (e + cut) = r := by
  simpa using List.find?_some h

/-- Whatever grid the search ends on, its number reads back. -/
theorem rankOfDecimal_coarsest {r c : Nat} {e : Int} (h : rankOfDecimal c e = r) (cut : Nat) :
    rankOfDecimal (coarsest r c e cut).1 (coarsest r c e cut).2 = r := by
  induction cut with
  | zero => exact h
  | succ cut ih =>
    rw [coarsest]
    split
    · next d hd => exact rankOfDecimal_neighbour hd
    · exact ih

theorem exists_shortest_eq {r : Nat} (hr : r < infinityRank) :
    ∃ n e, shortest r = Decimal.ofScaled n e ∧ rankOfDecimal n e = r :=
  ⟨_, _, rfl, rankOfDecimal_coarsest (rankOfDecimal_exactDecimal hr) _⟩

theorem rank_shortest {r : Nat} (hr : r < infinityRank) : (shortest r).rank = r := by
  obtain ⟨n, e, hs, hrank⟩ := exists_shortest_eq hr
  rw [hs, Decimal.rank_ofScaled, hrank]

theorem normal_shortest {r : Nat} (h0 : r ≠ 0) (hr : r < infinityRank) : (shortest r).Normal := by
  obtain ⟨n, e, hs, hrank⟩ := exists_shortest_eq hr
  rw [hs]
  apply Decimal.normal_ofScaled
  rintro rfl
  exact h0 (by simpa [rankOfDecimal] using hrank.symm)

/-! ## Where the point of a decimal stands -/

theorem Decimal.Normal.length_pos {d : Decimal} (hd : d.Normal) : 0 < d.digits.length :=
  List.length_pos_iff.mpr hd.ne_nil

/-- A decimal has its point where its magnitude says. -/
theorem Decimal.Normal.rank_le {d : Decimal} (hd : d.Normal) {p : Int} (hp : d.point ≤ p) :
    d.rank ≤ rankOfDecimal 1 p := by
  apply rankOfDecimal_mono
  have hlt : (d.significand : ℚ) ≤ 10 ^ (d.digits.length : Int) := by
    exact_mod_cast hd.significand_lt.le
  calc (d.significand : ℚ) * 10 ^ (d.point - d.digits.length)
      ≤ 10 ^ (d.digits.length : Int) * 10 ^ (d.point - d.digits.length) :=
        mul_le_mul_of_nonneg_right hlt (by positivity)
    _ = 10 ^ d.point := by
        rw [← zpow_add₀ (by norm_num)]
        congr 1
        ring
    _ ≤ ((1 : Nat) : ℚ) * 10 ^ p := by
        rw [Nat.cast_one, one_mul]
        exact zpow_le_zpow_right₀ (by norm_num) hp

theorem Decimal.Normal.le_rank {d : Decimal} (hd : d.Normal) {p : Int} (hp : p < d.point) :
    rankOfDecimal 1 p ≤ d.rank := by
  apply rankOfDecimal_mono
  have hle : (10 : ℚ) ^ ((d.digits.length - 1 : Nat) : Int) ≤ d.significand := by
    exact_mod_cast hd.le_significand
  have hpos := hd.length_pos
  calc ((1 : Nat) : ℚ) * 10 ^ p ≤ 10 ^ (d.point - 1) := by
        rw [Nat.cast_one, one_mul]
        exact zpow_le_zpow_right₀ (by norm_num) (by omega)
    _ = 10 ^ ((d.digits.length - 1 : Nat) : Int) * 10 ^ (d.point - d.digits.length) := by
        rw [← zpow_add₀ (by norm_num)]
        congr 1
        omega
    _ ≤ d.significand * 10 ^ (d.point - d.digits.length) :=
        mul_le_mul_of_nonneg_right hle (by positivity)

end LineChart.Number
