import Mathlib
import LineChart.Number.Binary64

namespace LineChart.Number

section Words

open Float.Model
open Float.Model.UnpackedFloat hiding unpack pack

/-- The fields of a word by its number, 52 and 11 bits. -/
theorem toNat_unpackMantissa (b : BitVec 64) :
    (@unpackMantissa Format.binary64 b).toNat = b.toNat % 2 ^ 52 := by
  simp [unpackMantissa]

theorem toNat_unpackExponent (b : BitVec 64) :
    (@unpackExponent Format.binary64 b).toNat = b.toNat / 2 ^ 52 % 2 ^ 11 := by
  simp [unpackExponent, Nat.shiftRight_eq_div_pow]

/-- A word that is not beyond an infinity of its sign is valid, since it is no NaN. -/
theorem valid_of_le_infinity {b : BitVec 64} (hb : b.toNat % 2 ^ 63 ≤ 2047 * 2 ^ 52) :
    Format.binary64.Valid b := by
  refine ⟨fun he hm => absurd ?_ hm⟩
  have hE := toNat_unpackExponent b
  rw [he] at hE
  apply BitVec.eq_of_toNat_eq
  rw [toNat_unpackMantissa]
  change 2047 = _ at hE
  change _ = 0
  omega

/-- A valid word beyond the infinities is the canonical NaN. -/
theorem eq_packedNaN_of_infinity_lt {b : BitVec 64} (hb : Format.binary64.Valid b)
    (h : 2047 * 2 ^ 52 < b.toNat % 2 ^ 63) : b = packedNaN Format.binary64 := by
  apply hb.eq_packedNaN
  · apply BitVec.eq_of_toNat_eq
    rw [toNat_unpackExponent]
    change _ = 2047
    have := b.isLt
    omega
  · intro hm
    have hM := toNat_unpackMantissa b
    rw [hm] at hM
    change 0 = _ at hM
    have := b.isLt
    omega

end Words

theorem toBits_ofBits {w : UInt64} (hw : w.toNat % signBit ≤ infinityRank) :
    (Float.ofBits w).toBits = w :=
  congrArg UInt64.ofBitVec
    (Float.Model.UnpackedFloat.pack_unpack_of_valid (valid_of_le_infinity hw))

theorem isNaN_eq_false {v : Float} (h : rank v ≤ infinityRank) : isNaN v = false := by
  simpa [isNaN] using h

/-- There is one NaN only. -/
theorem eq_notANumber {v : Float} (h : isNaN v) : v = notANumber := by
  have hlt : infinityRank < rank v := by simpa [isNaN] using h
  have hbits : v.toBits.toBitVec = notANumber.toBits.toBitVec :=
    (eq_packedNaN_of_infinity_lt v.toModel.valid hlt).trans (by decide +kernel)
  exact Float.toBits_inj.mp (UInt64.toBitVec_inj.mp hbits)

/-- The word of a sign and a rank. -/
theorem toNat_word {r : Nat} (hr : r < signBit) (s : Bool) :
    (UInt64.ofNat (if s then signBit + r else r)).toNat = if s then signBit + r else r := by
  rw [UInt64.toNat_ofNat']
  apply Nat.mod_eq_of_lt
  simp only [signBit] at *
  split <;> omega

theorem toBits_ofRank {r : Nat} (hr : r ≤ infinityRank) (s : Bool) :
    (ofRank s r).toBits.toNat = if s then signBit + r else r := by
  have hlt : r < signBit := Nat.lt_of_le_of_lt hr (by decide)
  have hw := toNat_word hlt s
  rw [ofRank, toBits_ofBits, hw]
  rw [hw]
  split
  · rwa [Nat.add_mod_left, Nat.mod_eq_of_lt hlt]
  · rwa [Nat.mod_eq_of_lt hlt]

theorem rank_ofRank {r : Nat} (hr : r ≤ infinityRank) (s : Bool) : rank (ofRank s r) = r := by
  have hlt : r < signBit := Nat.lt_of_le_of_lt hr (by decide)
  rw [rank, toBits_ofRank hr]
  split
  · rw [Nat.add_mod_left, Nat.mod_eq_of_lt hlt]
  · rw [Nat.mod_eq_of_lt hlt]

theorem isNegative_ofRank {r : Nat} (hr : r ≤ infinityRank) (s : Bool) :
    isNegative (ofRank s r) = s := by
  have hlt : r < signBit := Nat.lt_of_le_of_lt hr (by decide)
  cases s <;> simp [isNegative, toBits_ofRank hr, hlt]

/-- A number is its sign and its rank. -/
theorem ofRank_rank (v : Float) : ofRank (isNegative v) (rank v) = v := by
  have hlt := v.toBits.toNat_lt
  have hword : (if isNegative v then signBit + rank v else rank v) = v.toBits.toNat := by
    by_cases hs : signBit ≤ v.toBits.toNat
    · rw [if_pos (by simpa [isNegative] using hs), rank]
      simp only [signBit] at *
      omega
    · rw [if_neg (by simpa [isNegative] using hs), rank]
      exact Nat.mod_eq_of_lt (Nat.lt_of_not_le hs)
  rw [ofRank, hword, UInt64.ofNat_toNat, Float.ofBits_toBits]

/-- The number without the sign of a zero. -/
def unsignZero (v : Float) : Float := if rank v = 0 then ofRank false 0 else v

/-- Only the bits of the negative zero change. -/
theorem toBits_unsignZero (v : Float) :
    (unsignZero v).toBits = if v.toBits = 0x8000000000000000 then 0 else v.toBits := by
  have hzero : (ofRank false 0).toBits = 0 := by decide +kernel
  have hlt := v.toBits.toNat_lt
  unfold unsignZero rank
  by_cases hsign : v.toBits = 0x8000000000000000
  · rw [if_pos hsign, hsign, if_pos (by decide), hzero]
  · rw [if_neg hsign]
    split
    · next hr =>
      have hne : v.toBits.toNat ≠ signBit := fun h => hsign (UInt64.toNat_inj.mp h)
      have hbits : v.toBits = 0 := by
        rw [← UInt64.toNat_inj]
        simp only [signBit] at hr hne
        exact (by omega : v.toBits.toNat = 0)
      rw [hzero, hbits]
    · rfl

end LineChart.Number
