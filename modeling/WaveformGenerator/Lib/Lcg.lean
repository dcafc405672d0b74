import Mathlib.Algebra.Ring.GeomSum
import Mathlib.Algebra.Ring.Int.Parity
import Mathlib.Data.Int.ModEq
import Mathlib.Tactic.LinearCombination
import Mathlib.Tactic.Ring

/-!
# Linear congruential generators

Modulo a power of two a generator goes through all values, if its multiplier is one more than a
multiple of four and its increment is odd.
-/

namespace WaveformGenerator

/-- One step of the generator with the multiplier `a` and the increment `c`, not yet reduced. -/
def lcgStep (a c x : ℤ) : ℤ := a * x + c

variable {a c : ℤ}

theorem lcgStep_iterate (n : ℕ) (x : ℤ) :
    (lcgStep a c)^[n] x = x + (∑ i ∈ Finset.range n, a ^ i) * ((a - 1) * x + c) := by
  induction n with
  | zero => rw [Finset.sum_range_zero, zero_mul, add_zero, Function.iterate_zero, id]
  | succ n ih =>
    have hgeom : a * ∑ i ∈ Finset.range n, a ^ i = (∑ i ∈ Finset.range n, a ^ i) + a ^ n - 1 := by
      have h := geom_sum_mul a n
      linear_combination h
    rw [Function.iterate_succ_apply', ih, Finset.sum_range_succ, lcgStep]
    linear_combination hgeom * ((a - 1) * x + c)

/-- The sum of `2 ^ k` powers has `k` factors of two and no more. -/
theorem sum_pow_two (ha : a ≡ 1 [ZMOD 4]) (k : ℕ) :
    ∃ odd, Odd odd ∧ ∑ i ∈ Finset.range (2 ^ k), a ^ i = 2 ^ k * odd := by
  induction k with
  | zero => exact ⟨1, odd_one, by rw [pow_zero, Finset.sum_range_one, pow_zero, pow_zero, mul_one]⟩
  | succ k ih =>
    obtain ⟨odd, hodd, hsum⟩ := ih
    have hpower : a ^ 2 ^ k ≡ 1 [ZMOD 4] := by
      rw [← one_pow (2 ^ k)]
      exact ha.pow _
    obtain ⟨b, hb⟩ := (Int.modEq_iff_dvd.mp hpower.symm)
    refine ⟨odd * (2 * b + 1), hodd.mul ⟨b, rfl⟩, ?_⟩
    have hsplit : ∑ i ∈ Finset.range (2 ^ (k + 1)), a ^ i =
        (∑ i ∈ Finset.range (2 ^ k), a ^ i) * (1 + a ^ 2 ^ k) := by
      rw [pow_succ, mul_two, Finset.sum_range_add, mul_add, mul_one, Finset.sum_mul]
      refine congrArg _ (Finset.sum_congr rfl fun i _ => ?_)
      rw [pow_add, mul_comm]
    rw [hsplit, hsum, pow_succ]
    linear_combination 2 ^ k * odd * hb

/-- From every value every other is reached. -/
theorem lcgStep_reaches (ha : a ≡ 1 [ZMOD 4]) (hc : Odd c) (k : ℕ) (x y : ℤ) :
    ∃ n, (lcgStep a c)^[n] x ≡ y [ZMOD 2 ^ k] := by
  induction k with
  | zero => exact ⟨0, by rw [pow_zero]; exact Int.modEq_one⟩
  | succ k ih =>
    obtain ⟨n, hn⟩ := ih
    obtain ⟨w, hw⟩ := Int.modEq_iff_dvd.mp hn.symm
    rcases Int.even_or_odd w with ⟨v, hv⟩ | hodd
    · refine ⟨n, (Int.modEq_iff_dvd.mpr ⟨v, ?_⟩).symm⟩
      rw [hw, hv]
      ring
    · -- `2 ^ k` more steps change the last bit that counts.
      obtain ⟨odd, hsum, hpowers⟩ := sum_pow_two ha k
      obtain ⟨b, hb⟩ := Int.modEq_iff_dvd.mp ha.symm
      have hlast : Odd ((a - 1) * (lcgStep a c)^[n] x + c) := by
        rw [hb]
        refine Even.add_odd ?_ hc
        exact ⟨2 * b * (lcgStep a c)^[n] x, by ring⟩
      obtain ⟨v, hv⟩ := hodd.add_odd (hsum.mul hlast)
      refine ⟨2 ^ k + n, (Int.modEq_iff_dvd.mpr ⟨v, ?_⟩).symm⟩
      rw [Function.iterate_add_apply, lcgStep_iterate, hpowers]
      linear_combination hw + 2 ^ k * hv

end WaveformGenerator
