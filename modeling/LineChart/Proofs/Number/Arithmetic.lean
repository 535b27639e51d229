import LineChart.Proofs.Number.BitPattern
import LineChart.Number.Scalar

namespace LineChart.Number

open Float.Model (UnpackedFloat totalExponent)
open Float.Model.UnpackedFloat hiding isNaN notANumber infinity round normalize
open Float.Model.Format (binary64)

/-- What the operations of binary64 see of a number. -/
def parts (v : Float) : UnpackedFloat := unpack binary64 v.toBits.toBitVec

/-- What is left of an exact result when it is stored. -/
def stored (u : UnpackedFloat) : UnpackedFloat := unpack binary64 (pack binary64 u)

def infinity : Float := ofRank false infinityRank

theorem parts_injective {v w : Float} (h : parts v = parts w) : v = w := by
  have hbits := (unpack_inj_of_valid v.toModel.valid w.toModel.valid).mp h
  exact Float.toBits_inj.mp (UInt64.toBitVec_inj.mp hbits)

theorem parts_infinity : parts infinity = .infinity .positive := by rfl

theorem parts_eq_infinity_iff {v : Float} : parts v = .infinity .positive ↔ v = infinity := by
  rw [← parts_infinity]
  exact ⟨parts_injective, congrArg parts⟩

theorem parts_notANumber : parts notANumber = .notANumber := by rfl

theorem parts_eq_notANumber_iff {v : Float} : parts v = .notANumber ↔ isNaN v := by
  constructor
  · intro h
    rw [parts_injective (h.trans parts_notANumber.symm)]
    decide +kernel
  · intro h
    rw [eq_notANumber h, parts_notANumber]

theorem parts_sub (a b : Float) : parts (a - b) = stored (sub binary64 (parts a) (parts b)) := rfl

theorem le_iff (a b : Float) : a ≤ b ↔ UnpackedFloat.le (parts a) (parts b) :=
  decide_eq_true_iff

theorem lt_iff (a b : Float) : a < b ↔ UnpackedFloat.lt (parts a) (parts b) :=
  decide_eq_true_iff

/-! ## Comparisons with zero -/

theorem parts_zero : parts (Scalar.ofNat 0) = .zero .positive := by rfl

/-- Zero of either sign, or above it. -/
def AtLeastZero : UnpackedFloat → Prop
  | .notANumber => False
  | .zero _ => True
  | .infinity s => s = .positive
  | .finite s _ _ _ => s = .positive

theorem AtLeastZero.cases {u : UnpackedFloat} (h : AtLeastZero u) :
    (∃ s, u = .zero s) ∨ u = .infinity .positive ∨ ∃ m e hm, u = .finite .positive m e hm := by
  cases u with
  | notANumber => exact h.elim
  | zero s => exact .inl ⟨s, rfl⟩
  | infinity s => exact .inr (.inl (congrArg _ h))
  | finite s m e hm =>
    obtain rfl : s = .positive := h
    exact .inr (.inr ⟨m, e, hm, rfl⟩)

theorem zero_le_iff (v : Float) : Scalar.ofNat 0 ≤ v ↔ AtLeastZero (parts v) := by
  refine (le_iff _ v).trans ?_
  rw [parts_zero]
  cases parts v with
  | notANumber => simp [AtLeastZero, UnpackedFloat.le, UnpackedFloat.compare]
  | zero s | infinity s | finite s =>
    cases s <;> simp [AtLeastZero, UnpackedFloat.le, UnpackedFloat.compare]

theorem zero_lt_iff (v : Float) :
    Scalar.ofNat 0 < v ↔ AtLeastZero (parts v) ∧ ∀ s, parts v ≠ .zero s := by
  refine (lt_iff _ v).trans ?_
  rw [parts_zero]
  cases parts v with
  | notANumber => simp [AtLeastZero, UnpackedFloat.lt, UnpackedFloat.compare]
  | zero s | infinity s | finite s =>
    cases s <;> simp [AtLeastZero, UnpackedFloat.lt, UnpackedFloat.compare]

theorem AtLeastZero.not_isNaN {v : Float} (h : AtLeastZero (parts v)) : ¬isNaN v := fun hn =>
  (parts_eq_notANumber_iff.mpr hn ▸ h : AtLeastZero .notANumber)

theorem not_isNaN_of_zero_lt {v : Float} (h : Scalar.ofNat 0 < v) : ¬isNaN v :=
  ((zero_lt_iff v).mp h).1.not_isNaN

/-- Only what is not a number is on no side of zero. -/
theorem not_le_zero_iff (v : Float) :
    ¬v ≤ Scalar.ofNat 0 ↔ isNaN v ∨ Scalar.ofNat 0 < v := by
  rw [zero_lt_iff, ← parts_eq_notANumber_iff]
  refine (not_congr (le_iff v _)).trans ?_
  rw [parts_zero]
  cases parts v with
  | notANumber => simp [UnpackedFloat.le, UnpackedFloat.compare]
  | zero s | infinity s | finite s =>
    cases s <;> simp [AtLeastZero, UnpackedFloat.le, UnpackedFloat.compare]

/-! ## Storing -/

theorem stored_notANumber : stored .notANumber = .notANumber := by rfl

theorem stored_infinity (s : Sign) : stored (.infinity s) = .infinity s := by
  cases s <;> rfl

theorem stored_zero (s : Sign) : stored (.zero s) = .zero s := by
  cases s <;> rfl

/-- A significand with the bit that its word leaves out. -/
theorem toNat_one_append (m : BitVec 52) : (1#1 ++ m).toNat = leadingBit + m.toNat := by
  have h := Nat.two_pow_add_eq_or_of_lt m.isLt 1
  rw [BitVec.toNat_append]
  exact h.symm

/-- The words that are no infinities and no NaN keep their sign. -/
theorem unpack_packComponents {s : Sign} {e : BitVec 11} (he : e ≠ -1#11) (m : BitVec 52) :
    unpack binary64 (packComponents binary64 s e m) = .zero s ∨
      ∃ m' e' h, unpack binary64 (packComponents binary64 s e m) = .finite s m' e' h := by
  unfold unpack
  simp only [unpackExponent_packComponents, unpackMantissa_packComponents,
    unpackSign_packComponents, Sign.ofBitVec_toBitVec, if_neg he]
  split
  · split
    · exact .inl rfl
    · next hm =>
      exact .inr ⟨_, _, Nat.pos_of_ne_zero fun h0 => hm (BitVec.eq_of_toNat_eq h0), rfl⟩
  · exact .inr ⟨_, _, by simp [toNat_one_append, leadingBit], rfl⟩

/-- A finite result may become infinite or zero, but keeps its sign. -/
theorem stored_finite_cases (s : Sign) (m : Nat) (e : Int) (hm : 0 < m) :
    (stored (.finite s m e hm) = .infinity s ∧ 971 < e) ∨ stored (.finite s m e hm) = .zero s ∨
      ∃ m' e' h, stored (.finite s m e hm) = .finite s m' e' h := by
  unfold stored
  rw [UnpackedFloat.pack]
  dsimp only
  split
  · next h =>
    left
    refine ⟨stored_infinity s, ?_⟩
    change 2 ^ 11 ≤ (e + 1023 + 52).toNat + 1 at h
    omega
  · next h =>
    right
    split
    · -- the exponent fits its field, and is not the one that is kept for infinities
      apply unpack_packComponents
      intro he
      have := congrArg BitVec.toNat he
      change ¬2 ^ 11 ≤ (e + 1023 + 52).toNat + 1 at h
      change (e + 1023 + 52).toNat % 2 ^ 11 = 2047 at this
      omega
    · exact unpack_packComponents (by decide) _

theorem AtLeastZero.stored {u : UnpackedFloat} (h : AtLeastZero u) : AtLeastZero (stored u) := by
  cases u with
  | notANumber => exact h.elim
  | infinity s => rwa [stored_infinity]
  | zero s => rwa [stored_zero]
  | finite s m e hm =>
    obtain ⟨hu, -⟩ | hu | ⟨m', e', hm', hu⟩ := stored_finite_cases s m e hm
    · rwa [hu]
    · rw [hu]
      trivial
    · rwa [hu]

theorem stored_eq_notANumber_iff {u : UnpackedFloat} : stored u = .notANumber ↔ u = .notANumber := by
  cases u with
  | notANumber => simp [stored_notANumber]
  | infinity s => simp [stored_infinity]
  | zero s => simp [stored_zero]
  | finite s m e hm =>
    obtain ⟨hu, -⟩ | hu | ⟨m', e', hm', hu⟩ := stored_finite_cases s m e hm <;> simp [hu]

/-! ## Rounding -/

theorem shiftRight_mantissa (x : ExtendedMantissa) (k : Nat) :
    (x >>> k).mantissa = x.mantissa / 2 ^ k := by
  induction k with
  | zero => simp [HShiftRight.hShiftRight, Nat.repeat]
  | succ k ih =>
    change (x >>> k).mantissa / 2 = _
    rw [ih, Nat.div_div_eq_div_mul, Nat.pow_succ]

theorem roundedMantissa_le (x : ExtendedMantissa) : x.roundedMantissa ≤ x.mantissa + 1 := by
  obtain ⟨m, roundBit, stickyBit⟩ := x
  cases roundBit <;> cases stickyBit <;>
    simp only [ExtendedMantissa.roundedMantissa, ExtendedMantissa.accuracy,
      Accuracy.roundToNearestEven] <;> omega

theorem targetExponent_eq (t : Int) : binary64.targetExponent t = max (t - 53) (-1074) := rfl

/-- The significand that is left after bits beyond the 53rd have been cut off, still unrounded. -/
def cutMantissa (d : Nat) (e : Int) : ExtendedMantissa :=
  (shiftToTargetExponent binary64 d e .exact).1

theorem shiftToTargetExponent_snd (d : Nat) (e : Int) :
    (shiftToTargetExponent binary64 d e .exact).2 =
      max e (binary64.targetExponent (totalExponent d e)) := by
  simp only [shiftToTargetExponent, shiftToExponent]
  omega

theorem cutMantissa_mantissa (d : Nat) (e : Int) :
    (cutMantissa d e).mantissa =
      d / 2 ^ (binary64.targetExponent (totalExponent d e) - e).toNat := by
  simp only [cutMantissa, shiftToTargetExponent, shiftToExponent, shiftRight_mantissa]
  rfl

theorem roundWithAccuracy_cases (s : Sign) (d : Nat) (e : Int) :
    roundWithAccuracy binary64 s d e .exact = .zero s ∨
      ∃ m h, roundWithAccuracy binary64 s d e .exact = .finite s m
        (shiftToTargetExponent binary64 (cutMantissa d e).roundedMantissa
          (shiftToTargetExponent binary64 d e .exact).2 .exact).2 h := by
  unfold roundWithAccuracy
  dsimp only
  split
  · exact .inl rfl
  · next hm => exact .inr ⟨_, Nat.pos_of_ne_zero hm, rfl⟩

theorem log2_lt_of_lt {n k : Nat} (hk : 0 < k) (h : n < 2 ^ k) : n.log2 < k := by
  rcases Nat.eq_zero_or_pos n with rfl | hn
  · exact hk
  · exact (Nat.log2_lt hn.ne').mpr h

/-- What is less than the greatest finite number is not rounded beyond it. -/
theorem shiftToTargetExponent_rounded_le {d : Nat} {e : Int} (he : e ≤ 971)
    (hlt : d < (2 ^ 53 - 1) * 2 ^ (971 - e).toNat) :
    (shiftToTargetExponent binary64 (cutMantissa d e).roundedMantissa
      (shiftToTargetExponent binary64 d e .exact).2 .exact).2 ≤ 971 := by
  have hlog : d.log2 < 1024 - e := by
    have hd : d < 2 ^ (53 + (971 - e).toNat) := by
      rw [Nat.pow_add]
      exact hlt.trans_le (Nat.mul_le_mul_right _ (by decide))
    have := log2_lt_of_lt (by omega) hd
    omega
  have hcut := cutMantissa_mantissa d e
  have hround := roundedMantissa_le (cutMantissa d e)
  generalize (cutMantissa d e).roundedMantissa = rounded at *
  rw [shiftToTargetExponent_snd, shiftToTargetExponent_snd]
  simp only [targetExponent_eq, totalExponent] at *
  generalize hk : (max ((d.log2 : Int) + 1 + e - 53) (-1074) - e).toNat = k at *
  have hfew : (cutMantissa d e).mantissa < 2 ^ 53 := by
    rw [hcut, Nat.div_lt_iff_lt_mul (Nat.two_pow_pos k), ← Nat.pow_add]
    exact Nat.lt_log2_self.trans_le (Nat.pow_le_pow_right two_pos (by omega))
  by_cases hlast : e + k = 971
  · -- in the last binade there is room for rounding up
    have hroom : (cutMantissa d e).mantissa < 2 ^ 53 - 1 := by
      rw [hcut, Nat.div_lt_iff_lt_mul (Nat.two_pow_pos k)]
      rwa [show (971 - e).toNat = k by omega] at hlt
    have := log2_lt_of_lt (k := 53) (by decide) (show rounded < 2 ^ 53 by omega)
    omega
  · have := log2_lt_of_lt (k := 54) (by decide) (show rounded < 2 ^ 54 by omega)
    omega

theorem round_cases (s : Sign) (d : Nat) (e : Int) :
    UnpackedFloat.round binary64 s d e = .zero s ∨
      ∃ m e' h, UnpackedFloat.round binary64 s d e = .finite s m e' h ∧
        (e ≤ 971 → d < (2 ^ 53 - 1) * 2 ^ (971 - e).toNat → e' ≤ 971) := by
  unfold UnpackedFloat.round decreaseExponent
  generalize binary64.targetExponent (totalExponent d e) = t
  obtain h | ⟨m, hm, h⟩ := roundWithAccuracy_cases s (d <<< (e - t).toNat) (e - (e - t).toNat)
  · exact .inl h
  · refine .inr ⟨m, _, hm, h, fun he hd => shiftToTargetExponent_rounded_le (by omega) ?_⟩
    rw [Nat.shiftLeft_eq, show (971 - (e - (e - t).toNat)).toNat = (971 - e).toNat + (e - t).toNat by
      omega, Nat.pow_add, ← Nat.mul_assoc]
    exact Nat.mul_lt_mul_of_pos_right hd (Nat.two_pow_pos _)

theorem isFinite_normalize (d e : Int) :
    (UnpackedFloat.normalize binary64 d e .positive).isFinite := by
  unfold UnpackedFloat.normalize
  split
  · obtain h | ⟨m, e', hm, h, -⟩ := round_cases .negative (-d).toNat e <;> rw [h] <;> rfl
  · rfl
  · obtain h | ⟨m, e', hm, h, -⟩ := round_cases .positive d.toNat e <;> rw [h] <;> rfl

theorem normalize_ne_notANumber (d e : Int) :
    UnpackedFloat.normalize binary64 d e .positive ≠ .notANumber := by
  intro h
  have hfinite := isFinite_normalize d e
  rw [h] at hfinite
  contradiction

theorem normalize_ne_infinity (d e : Int) (s : Sign) :
    UnpackedFloat.normalize binary64 d e .positive ≠ .infinity s := by
  intro h
  have hfinite := isFinite_normalize d e
  rw [h] at hfinite
  contradiction

theorem normalize_exponent_le {d e : Int} (he : e ≤ 971)
    (hlt : d < (2 ^ 53 - 1) * 2 ^ (971 - e).toNat) {m : Nat} {e' : Int} {hm : 0 < m}
    (h : UnpackedFloat.normalize binary64 d e .positive = .finite .positive m e' hm) :
    e' ≤ 971 := by
  unfold UnpackedFloat.normalize at h
  split at h
  · obtain hr | ⟨m, e', hm, hr, -⟩ := round_cases .negative (-d).toNat e <;> simp [hr] at h
  · contradiction
  · next hpos =>
    obtain hr | ⟨m, e', hm, hr, hle⟩ := round_cases .positive d.toNat e
    · simp [hr] at h
    · obtain ⟨-, -, rfl⟩ := UnpackedFloat.finite.inj (hr.symm.trans h)
      have hd : 0 < d := Int.compare_eq_gt.mp hpos
      apply hle he
      zify
      rwa [Int.toNat_of_nonneg hd.le]

/-! ## Infinities -/

theorem sign_ne_neg (s : Sign) : s ≠ -s := by
  cases s <;> exact fun h => Sign.noConfusion h

theorem eq_of_ne_neg {s t : Sign} (h : s ≠ -t) : s = t := by
  cases s <;> cases t
  · rfl
  · exact (h rfl).elim
  · exact (h rfl).elim
  · rfl

theorem sub_eq_notANumber_iff (x y : UnpackedFloat) :
    UnpackedFloat.sub binary64 x y = .notANumber ↔
      x = .notANumber ∨ y = .notANumber ∨ ∃ s, x = .infinity s ∧ y = .infinity s := by
  fun_cases UnpackedFloat.sub binary64 x y <;> simp_all [normalize_ne_notANumber]
  case case3 s t _ => exact sign_ne_neg t
  case case4 s t h => exact (eq_of_ne_neg h).symm

/-- Only an infinity that is taken from an infinity leaves what is not a number. -/
theorem isNaN_sub_iff {a b : Float} (hb : AtLeastZero (parts b)) :
    isNaN (a - b) ↔ isNaN a ∨ a = infinity ∧ b = infinity := by
  rw [← parts_eq_notANumber_iff, ← parts_eq_notANumber_iff, parts_sub, stored_eq_notANumber_iff,
    sub_eq_notANumber_iff, ← parts_eq_infinity_iff, ← parts_eq_infinity_iff]
  constructor
  · rintro (h | h | ⟨s, ha, h⟩)
    · exact .inl h
    · rw [h] at hb
      exact hb.elim
    · rw [h] at hb
      obtain rfl : s = .positive := hb
      exact .inr ⟨ha, h⟩
  · rintro (h | ⟨ha, h⟩)
    · exact .inl h
    · exact .inr (.inr ⟨_, ha, h⟩)

/-- The words of finite numbers are within the range of binary64. -/
theorem parts_finite_bounds {v : Float} {s : Sign} {m : Nat} {e : Int} {h : 0 < m}
    (hv : parts v = .finite s m e h) : m ≤ 2 ^ 53 - 1 ∧ e ≤ 971 := by
  unfold parts unpack at hv
  dsimp only at hv
  generalize v.toBits.toBitVec = w at hv
  have hm := (@unpackMantissa binary64 w).isLt
  have he := (@unpackExponent binary64 w).isLt
  change _ < 2 ^ 52 at hm
  change _ < 2 ^ 11 at he
  split at hv
  · split at hv <;> contradiction
  · next hlast =>
    have hne : (@unpackExponent binary64 w).toNat ≠ 2047 := fun h =>
      hlast (BitVec.eq_of_toNat_eq h)
    split at hv
    · next hzero =>
      split at hv
      · contradiction
      · obtain ⟨-, rfl, rfl⟩ := UnpackedFloat.finite.inj hv
        have h0 : (@unpackExponent binary64 w).toNat = 0 := congrArg BitVec.toNat hzero
        rw [h0]
        exact ⟨by omega, by decide⟩
    · obtain ⟨-, rfl, rfl⟩ := UnpackedFloat.finite.inj hv
      rw [toNat_one_append]
      change _ ∧ ((@unpackExponent binary64 w).toNat : Int) - (1023 + 52) ≤ 971
      simp only [leadingBit]
      omega

/-- A finite number stays within the range when something is taken away from it. -/
theorem sub_finite_exponent_le {m m' d : Nat} {e e' x : Int} {h : 0 < m} {h' : 0 < m'} {hd : 0 < d}
    (hm : m ≤ 2 ^ 53 - 1) (he : e ≤ 971)
    (hsub : UnpackedFloat.sub binary64 (.finite .positive m e h) (.finite .positive m' e' h') =
      .finite .positive d x hd) : x ≤ 971 := by
  simp only [UnpackedFloat.sub, decreaseExponent, Nat.shiftLeft_eq, Sign.apply] at hsub
  generalize hlow : min e e' = low at hsub
  have hlt : ((m * 2 ^ (e - low).toNat : Nat) : Int) - ((m' * 2 ^ (e' - low).toNat : Nat) : Int) <
      (2 ^ 53 - 1) * 2 ^ (971 - low).toNat := by
    have hpow : 2 ^ (e - low).toNat ≤ 2 ^ (971 - low).toNat :=
      Nat.pow_le_pow_right two_pos (by omega)
    have hle : ((m * 2 ^ (e - low).toNat : Nat) : Int) ≤
        (((2 ^ 53 - 1) * 2 ^ (971 - low).toNat : Nat) : Int) :=
      Int.ofNat_le.mpr (Nat.mul_le_mul hm hpow)
    have hpos : (0 : Int) < ((m' * 2 ^ (e' - low).toNat : Nat) : Int) :=
      Int.natCast_pos.mpr (Nat.mul_pos h' (Nat.two_pow_pos _))
    push_cast at hle hpos ⊢
    linarith
  exact normalize_exponent_le (by omega) hlt hsub

theorem stored_eq_infinity {u : UnpackedFloat} (h : stored u = .infinity .positive) :
    u = .infinity .positive ∨ ∃ m e hm, u = .finite .positive m e hm ∧ 971 < e := by
  cases u with
  | notANumber => simp [stored_notANumber] at h
  | infinity s => exact .inl (by rwa [stored_infinity] at h)
  | zero s => simp [stored_zero] at h
  | finite s m e hm =>
    obtain ⟨hu, he⟩ | hu | ⟨_, _, _, hu⟩ := stored_finite_cases s m e hm
    · obtain rfl := UnpackedFloat.infinity.inj (hu.symm.trans h)
      exact .inr ⟨m, e, hm, rfl, he⟩
    · simp [hu] at h
    · simp [hu] at h

/-- Where a rest is infinite, it was infinite before. -/
theorem eq_infinity_of_sub {a b : Float} (ha : Scalar.ofNat 0 < a) (hb : AtLeastZero (parts b))
    (h : a - b = infinity) : a = infinity := by
  obtain ⟨hpos, hzero⟩ := (zero_lt_iff a).mp ha
  rw [← parts_eq_infinity_iff] at h ⊢
  have hsub := stored_eq_infinity (parts_sub a b ▸ h)
  obtain ⟨s, hx⟩ | hx | ⟨m, e, hm, hx⟩ := hpos.cases
  · exact absurd hx (hzero s)
  · exact hx
  · -- of a finite number no more is left than it was, which is no infinity
    obtain ⟨hm53, he971⟩ := parts_finite_bounds hx
    obtain ⟨t, hy⟩ | hy | ⟨m', e', hm', hy⟩ := hb.cases
    all_goals
      rw [hx, hy] at hsub
      obtain h | ⟨d, x, hd, h, hlt⟩ := hsub
    · contradiction
    · obtain ⟨-, -, rfl⟩ := UnpackedFloat.finite.inj h
      omega
    · exact Sign.noConfusion (UnpackedFloat.infinity.inj h)
    · contradiction
    · exact absurd h (normalize_ne_infinity _ _ _)
    · have := sub_finite_exponent_le hm53 he971 h
      omega

/-- Infinity is left over from infinity. -/
theorem infinity_sub {b : Float} (hb : AtLeastZero (parts b)) (hne : b ≠ infinity) :
    infinity - b = infinity := by
  rw [← parts_eq_infinity_iff, parts_sub, parts_infinity]
  rw [ne_eq, ← parts_eq_infinity_iff] at hne
  obtain ⟨t, hy⟩ | hy | ⟨m, e, hm, hy⟩ := hb.cases
  · rw [hy]
    exact stored_infinity .positive
  · exact absurd hy hne
  · rw [hy]
    exact stored_infinity .positive

def negativeInfinity : Float := ofRank true infinityRank

theorem parts_negativeInfinity : parts negativeInfinity = .infinity .negative := by rfl

theorem sub_infinity {a : Float} (hn : ¬isNaN a) (hne : a ≠ infinity) :
    a - infinity = negativeInfinity := by
  apply parts_injective
  rw [parts_sub, parts_infinity, parts_negativeInfinity]
  rw [ne_eq, ← parts_eq_infinity_iff] at hne
  cases hx : parts a with
  | notANumber => exact absurd (parts_eq_notANumber_iff.mp hx) hn
  | infinity s =>
    cases s
    · rfl
    · exact absurd hx hne
  | zero s | finite s => exact stored_infinity .negative

theorem negativeInfinity_sub {b : Float} (hb : AtLeastZero (parts b)) :
    negativeInfinity - b = negativeInfinity := by
  apply parts_injective
  rw [parts_sub, parts_negativeInfinity]
  obtain ⟨t, hy⟩ | hy | ⟨m, e, hm, hy⟩ := hb.cases <;>
    rw [hy] <;> exact stored_infinity .negative

theorem negativeInfinity_le_zero : negativeInfinity ≤ Scalar.ofNat 0 := by decide +kernel

theorem parts_two : parts (Scalar.ofNat 2) = .finite .positive (2 ^ 52) (-51) (by decide) := by rfl

/-- Twice a number is not below zero unless the number is. -/
theorem atLeastZero_double {v : Float} (hv : AtLeastZero (parts v)) :
    AtLeastZero (parts (Scalar.ofNat 2 * v)) := by
  refine AtLeastZero.stored (u := UnpackedFloat.mul binary64 (parts (Scalar.ofNat 2)) (parts v)) ?_
  rw [parts_two]
  obtain ⟨s, hx⟩ | hx | ⟨m, e, hm, hx⟩ := hv.cases <;> rw [hx]
  · trivial
  · rfl
  · simp only [UnpackedFloat.mul]
    obtain h | ⟨_, _, h⟩ := roundWithAccuracy_cases (.positive * .positive) (2 ^ 52 * m) (-51 + e)
    · rw [h]
      trivial
    · rw [h]
      rfl

end LineChart.Number
