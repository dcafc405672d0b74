import WaveformGenerator.Common.GainRounding
import WaveformGenerator.Cut.PlayMap

/-!
# The host's attenuation (`host/attenuation.py`)

The host attenuates in whole numbers without bound, by a floor division and its remainder, and
comes to the board's samples.
-/

namespace WaveformGenerator.Host

def gainUnity : ℤ := 1 <<< 31
def gainHalf : ℤ := 1 <<< 30

/-- `attenuation.apply`. -/
def applyAttenuation (sample gain : ℤ) : ℤ :=
  let quotient := (sample * gain).fdiv gainUnity
  let remainder := (sample * gain).fmod gainUnity
  if gainHalf < remainder ∨ (remainder = gainHalf ∧ quotient.fmod 2 = 1) then quotient + 1
  else quotient

example : applyAttenuation 3 gainHalf = 2 ∧ applyAttenuation 5 gainHalf = 2 := by decide +kernel

theorem halfEven_applyAttenuation (sample gain : ℤ) :
    HalfEven (((sample * gain : ℤ) : ℚ) / 2 ^ 31) (applyAttenuation sample gain) := by
  have hround := @HalfEven.ediv ℚ _ _ _ (sample * gain) (2 ^ 31) (by norm_num)
  have hquotient : (sample * gain).fdiv gainUnity = sample * gain / 2 ^ 31 :=
    Int.fdiv_eq_ediv_of_nonneg _ (by decide)
  have hremainder : (sample * gain).fmod gainUnity = sample * gain % 2 ^ 31 :=
    Int.fmod_eq_emod_of_nonneg _ (by decide)
  have hodd : (sample * gain / 2 ^ 31).fmod 2 = 1 ↔ ¬Even (sample * gain / 2 ^ 31) := by
    rw [Int.fmod_eq_emod_of_nonneg _ (by decide), Int.not_even_iff]
  have hhalf : gainHalf = 2 ^ 30 := by decide
  have hpast : gainHalf < sample * gain % 2 ^ 31 ↔ 2 ^ 31 < 2 * (sample * gain % 2 ^ 31) := by
    rw [hhalf]
    omega
  have htie : sample * gain % 2 ^ 31 = gainHalf ↔ 2 * (sample * gain % 2 ^ 31) = 2 ^ 31 := by
    rw [hhalf]
    omega
  have hvalue : applyAttenuation sample gain = sample * gain / 2 ^ 31 +
      if 2 ^ 31 < 2 * (sample * gain % 2 ^ 31) ∨
        (2 * (sample * gain % 2 ^ 31) = 2 ^ 31 ∧ ¬Even (sample * gain / 2 ^ 31)) then 1 else 0 := by
    unfold applyAttenuation
    rw [hquotient, hremainder]
    simp only [hpast, htie, hodd]
    split
    · rfl
    · exact (add_zero _).symm
  rw [hvalue]
  exact_mod_cast hround

open Attenuation (Gain product quotientQ31 remainderQ31 roundQ31 unityQ31)
open Cut (StepLimit ValidSchedule Play)

/-- **Attenuation arithmetic.** No step of `apply` overflows, and it is the product with the gain
rounded half to even; so it never grows a sample, is odd and monotone, keeps zero, and at the gain 1
keeps every sample. It passes through the cuts, in the reference and in a play, and the host's is the
same. -/
theorem attenuation_exact (gain : Gain) :
    (∀ sample : Int32,
      (product gain sample).toInt = sample.toInt * gain.q31.toNat ∧
      (quotientQ31 (product gain sample)).toInt = sample.toInt * gain.q31.toNat / 2 ^ 31 ∧
      (quotientQ31 (product gain sample) * unityQ31.toUInt64.toInt64).toInt =
        sample.toInt * gain.q31.toNat / 2 ^ 31 * 2 ^ 31 ∧
      (remainderQ31 (product gain sample)).toInt = sample.toInt * gain.q31.toNat % 2 ^ 31 ∧
      (Attenuation.apply gain sample).toInt = (roundQ31 (product gain sample)).toInt ∧
      HalfEven (((sample.toInt * gain.q31.toNat : ℤ) : ℚ) / 2 ^ 31)
        (Attenuation.apply gain sample).toInt ∧
      |(Attenuation.apply gain sample).toInt| ≤ |sample.toInt| ∧
      applyAttenuation sample.toInt gain.q31.toNat = (Attenuation.apply gain sample).toInt) ∧
    (∀ sample other : Int32, other.toInt = -sample.toInt →
      (Attenuation.apply gain other).toInt = -(Attenuation.apply gain sample).toInt) ∧
    (∀ sample other : Int32, sample.toInt ≤ other.toInt →
      (Attenuation.apply gain sample).toInt ≤ (Attenuation.apply gain other).toInt) ∧
    (gain.q31 = unityQ31 → ∀ sample, Attenuation.apply gain sample = sample) ∧
    Attenuation.apply gain 0 = 0 ∧
    (∀ (entries : List Cut.CutEntry) (output : List Int32),
      (Cut.cutStream 0 entries output).map (Attenuation.apply gain) =
        Cut.cutStream 0 entries (output.map (Attenuation.apply gain))) ∧
    ∀ (schedule : ValidSchedule) (blocks : List (List Int32)) (limits : List StepLimit),
      (Play.start schedule (blocks.map (List.map (Attenuation.apply gain)))).run 0 limits =
        ((Play.start schedule blocks).run 0 limits).map (Play.map (Attenuation.apply gain)) := by
  refine ⟨fun sample => ?_, fun sample other => Attenuation.apply_neg gain,
    fun sample other => Attenuation.apply_mono gain, Attenuation.apply_unity,
    Attenuation.apply_zero gain, fun entries output => ?_, fun schedule blocks limits => ?_⟩
  · refine ⟨Attenuation.toInt_product gain sample, Attenuation.toInt_quotientQ31 gain sample,
      Attenuation.toInt_quotientQ31_mul gain sample, Attenuation.toInt_remainderQ31 gain sample,
      Attenuation.toInt_apply gain sample, Attenuation.halfEven_apply gain sample,
      Attenuation.abs_apply_le gain sample, ?_⟩
    exact (halfEven_applyAttenuation _ _).unique (Attenuation.halfEven_apply gain sample)
  · rw [Cut.map_cutStream, Attenuation.apply_zero]
  · have hrun := Play.run_map (Attenuation.apply gain) (Play.start schedule blocks) 0 limits
    rw [Attenuation.apply_zero, Play.map_start] at hrun
    exact hrun

/-- At the lowest gain, the two ends of a tie's neighbourhood; at the gain 1, any sample. -/
theorem attenuation_exact_samples :
    (Attenuation.apply (Gain.of ⟨400, by decide⟩) (-8388608)).toInt =
        -(Attenuation.apply (Gain.of ⟨400, by decide⟩) 8388608).toInt ∧
      (Attenuation.apply (Gain.of ⟨400, by decide⟩) (-5)).toInt ≤
        (Attenuation.apply (Gain.of ⟨400, by decide⟩) 7).toInt ∧
      Attenuation.apply (Gain.of ⟨0, by decide⟩) (-8388608) = -8388608 :=
  ⟨(attenuation_exact (Gain.of ⟨400, by decide⟩)).2.1 8388608 (-8388608) (by decide),
    (attenuation_exact (Gain.of ⟨400, by decide⟩)).2.2.1 (-5) 7 (by decide),
    (attenuation_exact (Gain.of ⟨0, by decide⟩)).2.2.2.1 rfl (-8388608)⟩

end WaveformGenerator.Host
