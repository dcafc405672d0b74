import WaveformGenerator.Common.Gain
import WaveformGenerator.Lib.HalfEven

/-!
# Attenuation is exact

Each step of `apply` is the integers' own, so a sample becomes its product with the gain, rounded
half to even.
-/

namespace WaveformGenerator.Attenuation

variable (gain : Gain) (sample : Int32)

/-- The product in integers. -/
def exactProduct : ℤ := sample.toInt * gain.q31.toNat

theorem toInt_toInt64 (word : UInt32) : word.toUInt64.toInt64.toInt = word.toNat := by
  have hword := word.toNat_lt
  rw [← Int64.toInt_toBitVec, UInt64.toBitVec_toInt64, BitVec.toInt_eq_toNat_of_lt]
  · rw [UInt64.toNat_toBitVec, UInt32.toNat_toUInt64]
  · rw [UInt64.toNat_toBitVec, UInt32.toNat_toUInt64]
    omega

theorem toInt_unity : unityQ31.toUInt64.toInt64.toInt = 2 ^ 31 := by decide

theorem toNat_gain_le : (gain.q31.toNat : ℤ) ≤ 2 ^ 31 := by
  exact_mod_cast UInt32.le_iff_toNat_le.mp gain.bounded

theorem abs_exactProduct_le : |exactProduct gain sample| ≤ |sample.toInt| * 2 ^ 31 := by
  rw [exactProduct, abs_mul, Nat.abs_cast]
  exact mul_le_mul_of_nonneg_left (toNat_gain_le gain) (abs_nonneg _)

theorem abs_toInt_le : |sample.toInt| ≤ 2 ^ 31 :=
  abs_le.mpr ⟨sample.le_toInt, sample.toInt_lt.le⟩

/-- The product is far within 64 bits. -/
theorem exactProduct_bounds :
    -2 ^ 62 ≤ exactProduct gain sample ∧ exactProduct gain sample ≤ 2 ^ 62 := by
  have hproduct := abs_exactProduct_le gain sample
  have hsample := abs_toInt_le sample
  have hbound : |exactProduct gain sample| ≤ 2 ^ 62 := by
    calc |exactProduct gain sample| ≤ |sample.toInt| * 2 ^ 31 := hproduct
      _ ≤ 2 ^ 31 * 2 ^ 31 := mul_le_mul_of_nonneg_right hsample (by norm_num)
      _ = 2 ^ 62 := by norm_num
  exact abs_le.mp hbound

theorem bmod64 {n : ℤ} (hlow : -2 ^ 63 ≤ n) (hhigh : n < 2 ^ 63) : n.bmod (2 ^ 64) = n :=
  Int.bmod_eq_of_le (by omega) (by omega)

theorem toInt_product : (product gain sample).toInt = exactProduct gain sample := by
  obtain ⟨hlow, hhigh⟩ := exactProduct_bounds gain sample
  rw [product, Int64.toInt_mul, Int32.toInt_toInt64, toInt_toInt64]
  exact bmod64 (by unfold exactProduct at hlow; omega) (by unfold exactProduct at hhigh; omega)

/-- The right shift of a product is the floor of its quotient. -/
theorem toInt_quotientQ31 :
    (quotientQ31 (product gain sample)).toInt = exactProduct gain sample / 2 ^ 31 := by
  have hshift : (qBits.toBitVec.smod 64).toNat = 31 := by decide
  rw [quotientQ31, ← Int64.toInt_toBitVec, Int64.toBitVec_shiftRight, BitVec.sshiftRight_eq',
    BitVec.toInt_sshiftRight, Int64.toInt_toBitVec, toInt_product, Int.shiftRight_eq_div_pow]
  exact congrArg (fun n : Nat => exactProduct gain sample / ((2 ^ n : Nat) : ℤ)) hshift

theorem toInt_quotientQ31_mul :
    (quotientQ31 (product gain sample) * unityQ31.toUInt64.toInt64).toInt =
      exactProduct gain sample / 2 ^ 31 * 2 ^ 31 := by
  obtain ⟨hlow, hhigh⟩ := exactProduct_bounds gain sample
  rw [Int64.toInt_mul, toInt_quotientQ31, toInt_unity]
  exact bmod64 (by omega) (by omega)

theorem toInt_remainderQ31 :
    (remainderQ31 (product gain sample)).toInt = exactProduct gain sample % 2 ^ 31 := by
  have hremainder : exactProduct gain sample - exactProduct gain sample / 2 ^ 31 * 2 ^ 31 =
      exactProduct gain sample % 2 ^ 31 := by omega
  rw [remainderQ31, Int64.toInt_sub, toInt_product, toInt_quotientQ31_mul, hremainder]
  exact bmod64 (by omega) (by omega)

/-- What is added to the quotient. -/
def carry (n : ℤ) : ℤ :=
  if 2 ^ 31 < 2 * (n % 2 ^ 31) ∨ (2 * (n % 2 ^ 31) = 2 ^ 31 ∧ ¬Even (n / 2 ^ 31)) then 1 else 0

theorem toInt_roundQ31 :
    (roundQ31 (product gain sample)).toInt =
      exactProduct gain sample / 2 ^ 31 + carry (exactProduct gain sample) := by
  obtain ⟨hlow, hhigh⟩ := exactProduct_bounds gain sample
  have hquotient := toInt_quotientQ31 gain sample
  have hremainder := toInt_remainderQ31 gain sample
  have hhalf : (unityQ31.toUInt64.toInt64 / 2).toInt = 2 ^ 30 := by decide
  have hpast : unityQ31.toUInt64.toInt64 / 2 < remainderQ31 (product gain sample) ↔
      2 ^ 31 < 2 * (exactProduct gain sample % 2 ^ 31) := by
    rw [Int64.lt_iff_toInt_lt, hhalf, hremainder]
    omega
  have htie : remainderQ31 (product gain sample) = unityQ31.toUInt64.toInt64 / 2 ↔
      2 * (exactProduct gain sample % 2 ^ 31) = 2 ^ 31 := by
    rw [← Int64.toInt_inj, hhalf, hremainder]
    omega
  have hodd : quotientQ31 (product gain sample) % 2 ≠ 0 ↔
      ¬Even (exactProduct gain sample / 2 ^ 31) := by
    have htwo : (2 : Int64).toInt = 2 := by decide
    rw [Ne, ← Int64.toInt_inj, Int64.toInt_mod, hquotient, htwo, Int64.toInt_zero,
      ← Int.dvd_iff_tmod_eq_zero, even_iff_two_dvd]
  have hcarry : (if unityQ31.toUInt64.toInt64 / 2 < remainderQ31 (product gain sample) ∨
      (remainderQ31 (product gain sample) = unityQ31.toUInt64.toInt64 / 2 ∧
        quotientQ31 (product gain sample) % 2 ≠ 0) then (1 : Int64) else 0).toInt =
      carry (exactProduct gain sample) := by
    simp only [hpast, htie, hodd, carry]
    split <;> decide
  rw [roundQ31, Int64.toInt_add, hquotient, hcarry]
  have hbit : 0 ≤ carry (exactProduct gain sample) ∧ carry (exactProduct gain sample) ≤ 1 := by
    unfold carry
    split <;> decide
  exact bmod64 (by omega) (by omega)

theorem halfEven_roundQ31 :
    HalfEven ((exactProduct gain sample : ℚ) / 2 ^ 31)
      (roundQ31 (product gain sample)).toInt := by
  have hround := @HalfEven.ediv ℚ _ _ _ (exactProduct gain sample) (2 ^ 31) (by norm_num)
  rw [toInt_roundQ31, carry]
  exact_mod_cast hround

/-- What a sample is rounded to is no larger than the sample. -/
theorem abs_roundQ31_le : |(roundQ31 (product gain sample)).toInt| ≤ |sample.toInt| := by
  apply (halfEven_roundQ31 gain sample).abs_le_of_le
  have hproduct : |(exactProduct gain sample : ℚ)| ≤ |(sample.toInt : ℚ)| * 2 ^ 31 := by
    exact_mod_cast abs_exactProduct_le gain sample
  rw [abs_div, Int.cast_abs, abs_of_nonneg (by norm_num : (0 : ℚ) ≤ 2 ^ 31),
    div_le_iff₀ (by norm_num)]
  exact hproduct

/-- So the narrowing keeps it. -/
theorem toInt_apply : (apply gain sample).toInt = (roundQ31 (product gain sample)).toInt := by
  have hround := abs_roundQ31_le gain sample
  have hrange := sample.le_toInt
  have hlt := sample.toInt_lt
  have hnegative : sample.toInt ≤ 0 → (roundQ31 (product gain sample)).toInt ≤ 0 := by
    intro hsample
    have hproduct : (exactProduct gain sample : ℚ) / 2 ^ 31 ≤ ((0 : ℤ) : ℚ) := by
      rw [Int.cast_zero]
      apply div_nonpos_of_nonpos_of_nonneg _ (by norm_num)
      exact_mod_cast mul_nonpos_of_nonpos_of_nonneg hsample (Int.natCast_nonneg _)
    exact (halfEven_roundQ31 gain sample).mono (HalfEven.intCast 0) hproduct
  obtain ⟨hlow, hhigh⟩ := abs_le.mp hround
  rw [apply, Int64.toInt_toInt32]
  apply Int.bmod_eq_of_le
  · have habs : |sample.toInt| ≤ 2 ^ 31 := abs_toInt_le sample
    omega
  · rcases le_total sample.toInt 0 with hsample | hsample
    · have := hnegative hsample
      omega
    · rw [abs_of_nonneg hsample] at hhigh
      omega

/-- **Attenuation is exact.** -/
theorem halfEven_apply :
    HalfEven ((exactProduct gain sample : ℚ) / 2 ^ 31) (apply gain sample).toInt := by
  rw [toInt_apply]
  exact halfEven_roundQ31 gain sample

theorem abs_apply_le : |(apply gain sample).toInt| ≤ |sample.toInt| := by
  rw [toInt_apply]
  exact abs_roundQ31_le gain sample

section
variable {sample} {other : Int32}

theorem apply_neg (h : other.toInt = -sample.toInt) :
    (apply gain other).toInt = -(apply gain sample).toInt := by
  have hproduct : (exactProduct gain other : ℚ) / 2 ^ 31 =
      -((exactProduct gain sample : ℚ) / 2 ^ 31) := by
    rw [exactProduct, h, neg_mul, Int.cast_neg, neg_div]
    rfl
  have hother := halfEven_apply gain other
  rw [hproduct] at hother
  exact hother.unique (halfEven_apply gain sample).neg

theorem apply_mono (h : sample.toInt ≤ other.toInt) :
    (apply gain sample).toInt ≤ (apply gain other).toInt := by
  apply (halfEven_apply gain sample).mono (halfEven_apply gain other)
  apply div_le_div_of_nonneg_right _ (by norm_num)
  exact_mod_cast mul_le_mul_of_nonneg_right h (Int.natCast_nonneg _)

end

theorem apply_zero : apply gain 0 = 0 := by
  have hle := abs_apply_le gain 0
  rw [Int32.toInt_zero, abs_zero] at hle
  exact Int32.toInt_inj.mp (abs_nonpos_iff.mp hle)

theorem apply_unity {gain : Gain} (h : gain.q31 = unityQ31) (sample : Int32) :
    apply gain sample = sample := by
  have hexact : (exactProduct gain sample : ℚ) / 2 ^ 31 = (sample.toInt : ℤ) := by
    have hunity : (unityQ31.toNat : ℤ) = 2 ^ 31 := by decide
    rw [exactProduct, h, hunity, Int.cast_mul, Int.cast_pow, Int.cast_ofNat]
    exact mul_div_cancel_right₀ _ (by norm_num)
  have hround := halfEven_apply gain sample
  rw [hexact] at hround
  exact Int32.toInt_inj.mp (hround.unique (HalfEven.intCast _))

end WaveformGenerator.Attenuation
