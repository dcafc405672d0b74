import Mathlib.Data.Rat.Floor
import WaveformGenerator.Lib.HalfEven
import WaveformGenerator.Lib.Rounding

/-!
# The numbers of doubles

The rounding of IEEE binary64: to the nearest number of 53 bits, of two to the one whose last bit is
even. The exponents have no upper bound here.
-/

namespace WaveformGenerator

/-- An integer nearest to `q`, the even one of two. -/
def halfEven (q : ℚ) : ℤ :=
  q.num / q.den + if (q.den : ℤ) < 2 * (q.num % q.den) ∨
    (2 * (q.num % q.den) = q.den ∧ ¬Even (q.num / q.den)) then 1 else 0

theorem halfEven_spec (q : ℚ) : HalfEven q (halfEven q) := by
  have h := HalfEven.ediv (α := ℚ) q.num (d := q.den) (by exact_mod_cast q.den_pos)
  rwa [Int.cast_natCast, Rat.num_div_den] at h

namespace Binary64

/-- The number of binary64 nearest to `q`, the one with an even last bit of two. -/
def nearestEven (q : ℚ) : ℚ := halfEven (q / 2 ^ lastBit q) * 2 ^ lastBit q

theorem abs_halfEven_le (q : ℚ) : |halfEven (q / 2 ^ lastBit q)| ≤ 2 ^ 53 :=
  (halfEven_spec _).abs_le_of_le (by exact_mod_cast (abs_div_lt q).le)

theorem lastBit_neg (q : ℚ) : lastBit (-q) = lastBit q := by
  unfold lastBit
  rw [abs_neg]

theorem nearestEven_neg (q : ℚ) : nearestEven (-q) = -nearestEven q := by
  have hneg : halfEven (-q / 2 ^ lastBit q) = -halfEven (q / 2 ^ lastBit q) := by
    rw [neg_div]
    exact (halfEven_spec _).unique (halfEven_spec _).neg
  unfold nearestEven
  rw [lastBit_neg, hneg, Int.cast_neg, neg_mul]

/-- A whole number of last bits is no nearer. -/
theorem nearest_mul (q : ℚ) (n : ℤ) :
    |q - nearestEven q| ≤ |q - n * 2 ^ lastBit q| := by
  have hunit : (0 : ℚ) < 2 ^ lastBit q := zpow_pos two_pos _
  unfold nearestEven
  rw [abs_sub_mul, abs_sub_mul]
  refine mul_le_mul_of_nonneg_right ?_ hunit.le
  have hnear := (halfEven_spec (q / 2 ^ lastBit q)).near
  generalize q / 2 ^ lastBit q = x at hnear ⊢
  obtain heq | hne := eq_or_ne n (halfEven x)
  · rw [heq]
  -- The two integers are one apart at least.
  have happart : (1 : ℚ) ≤ |(n : ℚ) - halfEven x| := by
    exact_mod_cast Int.one_le_abs (sub_ne_zero.mpr hne)
  have htriangle := abs_sub_le (n : ℚ) x (halfEven x)
  rw [abs_sub_comm (n : ℚ) x] at htriangle
  linarith

theorem nearest (q : ℚ) {x : ℚ} (hx : Binary64 x) : |q - nearestEven q| ≤ |q - x| := by
  obtain ⟨m, e, hm, he, rfl⟩ := hx
  rcases le_or_gt (lastBit q) e with hle | hlt
  · -- It is a whole number of last bits.
    have h := nearest_mul q (m * 2 ^ (e - lastBit q).toNat)
    have hsplit : (2 : ℚ) ^ e = 2 ^ (e - lastBit q).toNat * 2 ^ lastBit q := by
      rw [← zpow_natCast, ← zpow_add₀ two_ne_zero]
      congr 1
      omega
    rw [hsplit, ← mul_assoc]
    push_cast at h
    exact h
  · -- It is no larger than the smallest number with the last bit of `q`.
    obtain rfl | hq := eq_or_ne q 0
    · have hzero := nearest_mul 0 0
      rw [Int.cast_zero, zero_mul, sub_zero, abs_zero] at hzero
      exact hzero.trans (abs_nonneg _)
    have hbits := (le_abs hq).resolve_right (by omega)
    have hsmall : |(m : ℚ) * 2 ^ e| ≤ 2 ^ (52 + lastBit q) := by
      have hpower : (2 : ℚ) ^ (53 + e) ≤ 2 ^ (52 + lastBit q) :=
        zpow_le_zpow_right₀ one_le_two (by omega)
      rw [abs_mul, abs_of_pos (zpow_pos two_pos e : (0 : ℚ) < 2 ^ e)]
      refine (mul_le_mul_of_nonneg_right (?_ : |(m : ℚ)| ≤ 2 ^ (53 : ℤ))
        (zpow_nonneg two_pos.le e)).trans ?_
      · exact_mod_cast hm
      · rwa [← zpow_add₀ two_ne_zero]
    obtain ⟨n, hcut⟩ : ∃ n : ℤ, (2 : ℚ) ^ (52 + lastBit q) = n * 2 ^ lastBit q := by
      refine ⟨2 ^ 52, ?_⟩
      rw [zpow_add₀ two_ne_zero]
      norm_num
    have hpos := nearest_mul q n
    have hneg := nearest_mul q (-n)
    rw [Int.cast_neg, neg_mul, ← hcut] at hneg
    rw [← hcut] at hpos
    have hx := abs_le.mp hsmall
    generalize (m : ℚ) * 2 ^ e = x at hx ⊢
    generalize (2 : ℚ) ^ (52 + lastBit q) = b at hbits hpos hneg hx
    rcases le_abs'.mp hbits with hq' | hq'
    · refine hneg.trans ?_
      rw [abs_of_nonpos (by linarith), abs_of_nonpos (by linarith)]
      linarith
    · refine hpos.trans ?_
      rw [abs_of_nonneg (by linarith), abs_of_nonneg (by linarith)]
      linarith

end Binary64

/-- Rounding half to even to binary64. -/
def binary64 : Rounding ℚ where
  Fits := Binary64
  round := Binary64.nearestEven
  fits_binary64 := id
  fits_round q := ⟨_, _, Binary64.abs_halfEven_le q, le_max_right .., rfl⟩
  nearest q _ := Binary64.nearest q

end WaveformGenerator
