import LineChart.Proofs.Number.Arithmetic

namespace LineChart.Number

open Float.Model (UnpackedFloat)
open Float.Model.UnpackedFloat hiding isNaN notANumber infinity round normalize abs
open Float.Model.Format (binary64)

/-! ## What a number is made of, by its sign and rank -/

def signOfBool (negative : Bool) : Sign := if negative then .negative else .positive

theorem toNat_unpackSign (b : BitVec 64) :
    (@unpackSign binary64 b).toNat = b.toNat / 2 ^ 63 := by
  have hlt := b.isLt
  simp [unpackSign, Nat.shiftRight_eq_div_pow]
  omega

theorem ofBitVec_unpackSign (v : Float) :
    Sign.ofBitVec (@unpackSign binary64 v.toBits.toBitVec) = signOfBool (isNegative v) := by
  have hsign := toNat_unpackSign v.toBits.toBitVec
  have hlt := v.toBits.toBitVec.isLt
  have hiff : @unpackSign binary64 v.toBits.toBitVec = 0#1 ↔ ¬signBit ≤ v.toBits.toNat := by
    rw [← BitVec.toNat_inj, hsign]
    change v.toBits.toNat / 2 ^ 63 = 0 ↔ ¬2 ^ 63 ≤ v.toBits.toNat
    omega
  by_cases hneg : signBit ≤ v.toBits.toNat
  · rw [Sign.ofBitVec, if_neg (mt hiff.mp (not_not_intro hneg)), isNegative, decide_eq_true hneg]
    rfl
  · rw [Sign.ofBitVec, if_pos (hiff.mpr hneg), isNegative, decide_eq_false hneg]
    rfl

theorem significand_pos {r : Nat} (h0 : r ≠ 0) : 0 < significand r := by
  unfold significand
  split
  · omega
  · exact Nat.add_pos_left (by decide) _

/-- A word without its sign is its exponent field and its mantissa field. -/
theorem rank_fields (v : Float) :
    rank v = (@unpackExponent binary64 v.toBits.toBitVec).toNat * leadingBit +
      (@unpackMantissa binary64 v.toBits.toBitVec).toNat := by
  rw [toNat_unpackExponent, toNat_unpackMantissa]
  change v.toBits.toNat % 2 ^ 63 =
    v.toBits.toNat / 2 ^ 52 % 2 ^ 11 * 2 ^ 52 + v.toBits.toNat % 2 ^ 52
  omega

theorem parts_of_finite {v : Float} (h0 : rank v ≠ 0) (hr : rank v < infinityRank) :
    parts v = .finite (signOfBool (isNegative v)) (significand (rank v)) (exponent (rank v))
      (significand_pos h0) := by
  have hfields := rank_fields v
  have hsign := ofBitVec_unpackSign v
  have hm := (@unpackMantissa binary64 v.toBits.toBitVec).isLt
  change _ < leadingBit at hm
  unfold parts unpack
  dsimp only
  rw [hsign]
  generalize rank v = r at *
  generalize v.toBits.toBitVec = w at *
  rw [if_neg]
  · split
    · next hzero =>
      -- a subnormal number: the rank is its significand
      have hE : (@unpackExponent binary64 w).toNat = 0 := congrArg BitVec.toNat hzero
      rw [hE, Nat.zero_mul, Nat.zero_add] at hfields
      rw [dif_neg fun h => h0 (hfields.trans (congrArg BitVec.toNat h))]
      simp only [UnpackedFloat.finite.injEq, true_and]
      rw [significand, exponent, if_pos (hfields ▸ hm), if_pos (hfields ▸ hm), hE]
      exact ⟨hfields.symm, rfl⟩
    · next hzero =>
      -- a normal number: the word leaves out the leading bit
      have hE : 0 < (@unpackExponent binary64 w).toNat :=
        Nat.pos_of_ne_zero fun h => hzero (BitVec.eq_of_toNat_eq h)
      have hdiv : r / leadingBit = (@unpackExponent binary64 w).toNat := by
        rw [hfields, Nat.add_comm, Nat.add_mul_div_right _ _ (by decide), Nat.div_eq_of_lt hm,
          Nat.zero_add]
      have hmod : r % leadingBit = (@unpackMantissa binary64 w).toNat := by
        rw [hfields, Nat.mul_add_mod_self_right, Nat.mod_eq_of_lt hm]
      have hlow : ¬r < leadingBit := fun h => by
        rw [Nat.div_eq_of_lt h] at hdiv
        omega
      simp only [UnpackedFloat.finite.injEq, true_and]
      rw [toNat_one_append, significand, exponent, if_neg hlow, if_neg hlow, hdiv, hmod]
      exact ⟨rfl, rfl⟩
  · -- the last exponent is kept for what ranks as infinity or above
    intro hlast
    have hE : (@unpackExponent binary64 w).toNat = 2047 := congrArg BitVec.toNat hlast
    rw [hE] at hfields
    rw [hfields, infinityRank] at hr
    omega

theorem parts_of_zero {v : Float} (h0 : rank v = 0) :
    parts v = .zero (signOfBool (isNegative v)) := by
  rw [← ofRank_rank v, h0]
  cases isNegative v
  · rw [isNegative_ofRank (Nat.zero_le _)]
    rfl
  · rw [isNegative_ofRank (Nat.zero_le _)]
    rfl

theorem parts_of_infinite {v : Float} (hr : rank v = infinityRank) :
    parts v = .infinity (signOfBool (isNegative v)) := by
  rw [← ofRank_rank v, hr]
  cases isNegative v
  · rw [isNegative_ofRank le_rfl]
    rfl
  · rw [isNegative_ofRank le_rfl]
    rfl

/-! ## Magnitudes are ordered as their ranks -/

theorem exponent_lt_or_significand_lt {r r' : Nat} (h : r < r') :
    exponent r < exponent r' ∨ exponent r = exponent r' ∧ significand r < significand r' := by
  unfold exponent significand
  by_cases hlow' : r' < leadingBit
  · rw [if_pos (h.trans hlow'), if_pos hlow', if_pos (h.trans hlow'), if_pos hlow']
    exact .inr ⟨rfl, h⟩
  rw [if_neg hlow', if_neg hlow']
  by_cases hlow : r < leadingBit
  · rw [if_pos hlow, if_pos hlow]
    simp only [leadingBit] at *
    omega
  · rw [if_neg hlow, if_neg hlow]
    simp only [leadingBit] at *
    omega

theorem compare_finite {r r' : Nat} :
    (compare (exponent r) (exponent r')).then (compare (significand r) (significand r')) =
      compare r r' := by
  rcases lt_trichotomy r r' with h | rfl | h
  · rw [compare_lt_iff_lt.mpr h]
    rcases exponent_lt_or_significand_lt h with he | ⟨he, hs⟩
    · rw [compare_lt_iff_lt.mpr he]
      rfl
    · rw [he, compare_eq_iff_eq.mpr rfl, compare_lt_iff_lt.mpr hs]
      rfl
  · rw [compare_eq_iff_eq.mpr rfl, compare_eq_iff_eq.mpr rfl, compare_eq_iff_eq.mpr rfl]
    rfl
  · rw [compare_gt_iff_gt.mpr h]
    rcases exponent_lt_or_significand_lt h with he | ⟨he, hs⟩
    · rw [compare_gt_iff_gt.mpr he]
      rfl
    · rw [he, compare_eq_iff_eq.mpr rfl, compare_gt_iff_gt.mpr hs]
      rfl

/-- Numbers with the sign of a zero or of no minus compare as their ranks. -/
theorem compare_of_rank {v w : Float} (hv : rank v ≤ infinityRank) (hw : rank w ≤ infinityRank)
    (hpos : isNegative v = false) (hpos' : isNegative w = false) :
    UnpackedFloat.compare (parts v) (parts w) = some (compare (rank v) (rank w)) := by
  have hcases : ∀ u, rank u ≤ infinityRank →
      rank u = 0 ∨ rank u = infinityRank ∨ rank u ≠ 0 ∧ rank u < infinityRank := fun u hu => by
    omega
  have htop : 0 < infinityRank := by decide
  -- only between two finite numbers above zero it takes more than their kind
  rcases hcases v hv with h | h | ⟨h0, h⟩ <;> rcases hcases w hw with h' | h' | ⟨h0', h'⟩
  · rw [parts_of_zero h, parts_of_zero h', h, h']
    rfl
  · rw [parts_of_zero h, parts_of_infinite h', hpos', h, h']
    rfl
  · rw [parts_of_zero h, parts_of_finite h0' h', hpos', h,
      compare_lt_iff_lt.mpr (Nat.pos_of_ne_zero h0')]
    rfl
  · rw [parts_of_infinite h, parts_of_zero h', hpos, h, h']
    rfl
  · rw [parts_of_infinite h, parts_of_infinite h', hpos, hpos', h, h']
    rfl
  · rw [parts_of_infinite h, parts_of_finite h0' h', hpos, h, compare_gt_iff_gt.mpr h']
    rfl
  · rw [parts_of_finite h0 h, parts_of_zero h', hpos, h',
      compare_gt_iff_gt.mpr (Nat.pos_of_ne_zero h0)]
    rfl
  · rw [parts_of_finite h0 h, parts_of_infinite h', hpos, hpos', h', compare_lt_iff_lt.mpr h]
    rfl
  · rw [parts_of_finite h0 h, parts_of_finite h0' h', hpos, hpos', ← compare_finite]
    rfl

theorem le_iff_rank_le {v w : Float} (hv : rank v ≤ infinityRank) (hw : rank w ≤ infinityRank)
    (hpos : isNegative v = false) (hpos' : isNegative w = false) : v ≤ w ↔ rank v ≤ rank w := by
  rw [le_iff, UnpackedFloat.le, compare_of_rank hv hw hpos hpos', Option.any_some,
    Nat.isLE_compare]

theorem lt_iff_rank_lt {v w : Float} (hv : rank v ≤ infinityRank) (hw : rank w ≤ infinityRank)
    (hpos : isNegative v = false) (hpos' : isNegative w = false) : v < w ↔ rank v < rank w := by
  rw [lt_iff, UnpackedFloat.lt, compare_of_rank hv hw hpos hpos', beq_iff_eq, Option.some_inj,
    Nat.compare_eq_lt]

/-! ## Without the sign -/

theorem stored_parts (v : Float) : stored (parts v) = parts v :=
  congrArg (unpack binary64) (pack_unpack_of_valid v.toModel.valid)

theorem parts_abs (v : Float) : parts v.abs = stored (parts v).abs := rfl

theorem abs_eq {v : Float} (hv : ¬isNaN v) : v.abs = ofRank false (rank v) := by
  have hr : rank v ≤ infinityRank := by simpa [isNaN] using hv
  have habs : (parts v).abs = parts (ofRank false (rank v)) := by
    have hrank := rank_ofRank hr false
    have hneg := isNegative_ofRank hr false
    rcases eq_or_ne (rank v) 0 with h0 | h0
    · rw [parts_of_zero h0, parts_of_zero (hrank.trans h0), hneg]
      rfl
    rcases hr.eq_or_lt with htop | hlt
    · rw [parts_of_infinite htop, parts_of_infinite (hrank.trans htop), hneg]
      rfl
    · rw [parts_of_finite h0 hlt, parts_of_finite (by rwa [hrank]) (by rwa [hrank]), hneg]
      simp only [hrank]
      rfl
  apply parts_injective
  rw [parts_abs, habs, stored_parts]

/-- Between two magnitudes a number lies with its rank. -/
theorem abs_between_iff {v : Float} (hv : ¬isNaN v) {lo hi : Nat} (hlo : lo ≤ infinityRank)
    (hhi : hi ≤ infinityRank) :
    (ofRank false lo ≤ v.abs ∧ v.abs < ofRank false hi) ↔ lo ≤ rank v ∧ rank v < hi := by
  have hr : rank v ≤ infinityRank := by simpa [isNaN] using hv
  rw [abs_eq hv, le_iff_rank_le, lt_iff_rank_lt] <;>
    simp only [rank_ofRank, isNegative_ofRank, hlo, hhi, hr]

theorem parts_literal_zero : parts 0 = .zero .positive := by rfl

/-- An infinity is above zero if it has no minus. -/
theorem zero_lt_iff_of_infinite {v : Float} (hr : rank v = infinityRank) :
    0 < v ↔ isNegative v = false := by
  rw [lt_iff, parts_literal_zero, parts_of_infinite hr]
  cases isNegative v <;> decide

theorem beq_iff_compare (v w : Float) :
    (v == w) = (UnpackedFloat.compare (parts v) (parts w) == some .eq) := rfl

theorem beq_zero_iff (v : Float) : v == 0 ↔ rank v = 0 := by
  rw [beq_iff_compare, parts_literal_zero]
  rcases eq_or_ne (rank v) 0 with h0 | h0
  · rw [parts_of_zero h0]
    simp [h0, UnpackedFloat.compare]
  · simp only [h0, iff_false]
    rcases lt_trichotomy (rank v) infinityRank with hr | hr | hr
    · rw [parts_of_finite h0 hr]
      cases isNegative v <;> simp [signOfBool, UnpackedFloat.compare]
    · rw [parts_of_infinite hr]
      cases isNegative v <;> decide
    · rw [parts_eq_notANumber_iff.mpr (by simpa [isNaN] using hr)]
      decide

end LineChart.Number
