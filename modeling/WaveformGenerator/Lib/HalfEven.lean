import Mathlib.Algebra.Order.Field.Basic
import Mathlib.Algebra.Order.Ring.Abs
import Mathlib.Algebra.Ring.Int.Parity
import Mathlib.Data.Int.Cast.Lemmas
import Mathlib.Tactic.FieldSimp
import Mathlib.Tactic.Linarith
import Mathlib.Tactic.Ring

/-!
# Rounding half to even

An integer nearest to a number, the even one of two that are equally near. There is one such
integer, and it is monotone and odd in the number.
-/

namespace WaveformGenerator

variable {α : Type*} [Field α] [LinearOrder α] {x y : α} {m n : ℤ}

/-- `n` is `x` rounded half to even. -/
structure HalfEven (x : α) (n : ℤ) : Prop where
  near : |x - n| ≤ 1 / 2
  tie : |x - n| = 1 / 2 → Even n

namespace HalfEven

variable [IsStrictOrderedRing α]

theorem mono (h : HalfEven x m) (h' : HalfEven y n) (hxy : x ≤ y) : m ≤ n := by
  by_contra hlt
  rw [not_le] at hlt
  have hcast : (n : α) + 1 ≤ m := by exact_mod_cast hlt
  have hm := abs_le.mp h.near
  have hn := abs_le.mp h'.near
  -- there is no room between the two but for a tie of both
  have hsucc : (m : α) = n + 1 := by linarith
  have hx : x - m = -(1 / 2) := by linarith
  have hy : y - n = 1 / 2 := by linarith
  have hhalf : |(1 / 2 : α)| = 1 / 2 := abs_of_nonneg (by norm_num)
  have hevenm : Even m := h.tie (by rw [hx, abs_neg, hhalf])
  have hevenn : Even n := h'.tie (by rw [hy, hhalf])
  have hone : m = n + 1 := by exact_mod_cast hsucc
  rw [hone, Int.even_add_one] at hevenm
  exact hevenm hevenn

theorem unique (h : HalfEven x m) (h' : HalfEven x n) : m = n :=
  le_antisymm (h.mono h' le_rfl) (h'.mono h le_rfl)

omit [IsStrictOrderedRing α] in
theorem neg (h : HalfEven x n) : HalfEven (-x) (-n) := by
  have hdist : |-x - ((-n : ℤ) : α)| = |x - n| := by
    rw [Int.cast_neg, ← abs_neg]
    congr 1
    ring
  exact ⟨by rw [hdist]; exact h.near, fun htie => (h.tie (hdist ▸ htie)).neg⟩

theorem intCast (n : ℤ) : HalfEven (n : α) n := by
  have hdist : |(n : α) - n| = 0 := by rw [sub_self, abs_zero]
  refine ⟨by rw [hdist]; norm_num, fun htie => ?_⟩
  rw [hdist] at htie
  norm_num at htie

/-- An integer bound of the number bounds what it is rounded to. -/
theorem abs_le_of_le (h : HalfEven x n) {k : ℤ} (hx : |x| ≤ k) : |n| ≤ k := by
  obtain ⟨hlow, hhigh⟩ := abs_le.mp hx
  have hneg : ((-k : ℤ) : α) ≤ x := by rwa [Int.cast_neg]
  exact abs_le.mpr ⟨(intCast (-k)).mono h hneg, h.mono (intCast k) hhigh⟩

/-- A quotient of integers is rounded by its remainder. -/
theorem ediv (a : ℤ) {d : ℤ} (hd : 0 < d) :
    HalfEven ((a : α) / d)
      (a / d + if d < 2 * (a % d) ∨ (2 * (a % d) = d ∧ ¬Even (a / d)) then 1 else 0) := by
  have hpositive : (0 : α) < d := by exact_mod_cast hd
  have hsplit : (a : α) = d * (a / d : ℤ) + (a % d : ℤ) := by
    exact_mod_cast (Int.mul_ediv_add_emod a d).symm
  have hlow : (0 : α) ≤ (a % d : ℤ) / d :=
    div_nonneg (by exact_mod_cast Int.emod_nonneg a hd.ne') hpositive.le
  have hhigh : ((a % d : ℤ) : α) / d < 1 :=
    (div_lt_one hpositive).mpr (by exact_mod_cast Int.emod_lt_of_pos a hd)
  have hvalue : (a : α) / d = (a / d : ℤ) + (a % d : ℤ) / d := by
    rw [hsplit]
    field_simp
  -- the fraction is compared with a half as the remainder is with half the divisor
  have hpast : d < 2 * (a % d) ↔ (1 / 2 : α) < (a % d : ℤ) / d := by
    rw [lt_div_iff₀ hpositive, div_mul_eq_mul_div, one_mul, div_lt_iff₀ two_pos, mul_comm]
    exact_mod_cast Iff.rfl
  have htie : 2 * (a % d) = d ↔ ((a % d : ℤ) : α) / d = 1 / 2 := by
    rw [div_eq_div_iff hpositive.ne' two_ne_zero, one_mul, mul_comm]
    exact_mod_cast Iff.rfl
  rw [hvalue]
  generalize ((a % d : ℤ) : α) / d = fraction at hlow hhigh hpast htie
  split
  · rename_i hup
    have hdist : |((a / d : ℤ) : α) + fraction - ((a / d + 1 : ℤ) : α)| = 1 - fraction := by
      rw [Int.cast_add, Int.cast_one, abs_of_nonpos (by linarith)]
      ring
    constructor
    · rw [hdist]
      rcases hup with hup | ⟨hup, -⟩
      · have := hpast.mp hup
        linarith
      · have := htie.mp hup
        linarith
    · intro h
      rw [hdist] at h
      have hhalf : fraction = 1 / 2 := by linarith
      rcases hup with hup | ⟨-, hodd⟩
      · have := hpast.mp hup
        linarith
      · exact Int.even_add_one.mpr hodd
  · rename_i hdown
    rw [not_or, not_and, not_not] at hdown
    have hdist : |((a / d : ℤ) : α) + fraction - ((a / d + 0 : ℤ) : α)| = fraction := by
      rw [add_zero, add_sub_cancel_left, abs_of_nonneg hlow]
    constructor
    · rw [hdist]
      exact not_lt.mp (hpast.not.mp hdown.1)
    · intro h
      rw [hdist] at h
      rw [add_zero]
      exact hdown.2 (htie.mpr h)

end HalfEven

end WaveformGenerator
