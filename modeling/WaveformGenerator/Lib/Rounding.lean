import Mathlib.Algebra.Order.Round
import Mathlib.Data.Int.Log
import Mathlib.Tactic.Ring

/-!
# Rounding to nearest

A format is the set of the numbers that results are rounded to: those of IEEE binary64, whose
exponents have no upper bound here, or more. What is said of an operation that rounds its exact
result to a nearest number of the format holds of doubles as long as nothing overflows, and of exact
arithmetic, which rounds nothing.
-/

namespace WaveformGenerator

variable {K : Type*} [Field K] [LinearOrder K] [IsStrictOrderedRing K]

/-- The numbers of 53 bits, of which the last counts `2 ^ (-1074)` at least. -/
def Binary64 (x : K) : Prop := ∃ m e : ℤ, |m| ≤ 2 ^ 53 ∧ -1074 ≤ e ∧ x = m * 2 ^ e

/-- A format with all numbers of binary64, and a rounding to a nearest one. -/
structure Rounding (K : Type*) [Field K] [LinearOrder K] where
  Fits : K → Prop
  round : K → K
  fits_binary64 : ∀ {x}, Binary64 x → Fits x
  fits_round : ∀ q, Fits (round q)
  nearest : ∀ q {x}, Fits x → |q - round q| ≤ |q - x|

namespace Binary64

omit [LinearOrder K] [IsStrictOrderedRing K] in
theorem intCast {m : ℤ} (h : |m| ≤ 2 ^ 53) : Binary64 (m : K) :=
  ⟨m, 0, h, by norm_num, by rw [zpow_zero, mul_one]⟩

section
variable [FloorRing K]

/-- The exponent of the last bit that a number of the size of `q` has. -/
def lastBit (q : K) : ℤ := max (Int.log 2 |q| - 52) (-1074)

theorem abs_lt (q : K) : |q| < 2 ^ (53 + lastBit q) := by
  have hlog : |q| < (2 : ℕ) ^ (Int.log 2 |q| + 1) := Int.lt_zpow_succ_log_self (by norm_num) _
  push_cast at hlog
  refine hlog.trans_le (zpow_le_zpow_right₀ one_le_two ?_)
  unfold lastBit
  omega

/-- A number has all 53 bits or its last bit is the last there is. -/
theorem le_abs {q : K} (hq : q ≠ 0) : 2 ^ (52 + lastBit q) ≤ |q| ∨ lastBit q = -1074 := by
  refine (max_choice (Int.log 2 |q| - 52) (-1074)).imp_left fun hmax => ?_
  have hlog : (2 : ℕ) ^ Int.log 2 |q| ≤ |q| :=
    Int.zpow_log_le_self (by norm_num) (abs_pos.mpr hq)
  push_cast at hlog
  unfold lastBit
  rwa [hmax, add_sub_cancel]

theorem abs_div_lt (q : K) : |q / 2 ^ lastBit q| < 2 ^ 53 := by
  have hunit : (0 : K) < 2 ^ lastBit q := zpow_pos two_pos _
  have hless := abs_lt q
  rw [zpow_add₀ two_ne_zero] at hless
  rw [abs_div, abs_of_pos hunit, div_lt_iff₀ hunit]
  exact_mod_cast hless

/-- A whole number of last bits is as far from `q` as it is in last bits. -/
theorem abs_sub_mul (q : K) (n : ℤ) (e : ℤ) : |q - n * 2 ^ e| = |q / 2 ^ e - n| * 2 ^ e := by
  have hunit : (0 : K) < 2 ^ e := zpow_pos two_pos _
  rw [← abs_of_pos hunit, ← abs_mul, abs_of_pos hunit, sub_mul, div_mul_cancel₀ _ hunit.ne']

/-- Every number has one of binary64 that is a `2 ^ 53`th of it off, or less than any but 0 is. -/
theorem exists_near (q : K) :
    ∃ x : K, Binary64 x ∧ |q - x| ≤ |q| / 2 ^ 53 + 2 ^ (-1075 : ℤ) := by
  obtain rfl | hq := eq_or_ne q 0
  · refine ⟨0, ⟨0, 0, by norm_num, by norm_num, by norm_num⟩, ?_⟩
    rw [sub_zero, abs_zero, zero_div, zero_add]
    exact zpow_nonneg two_pos.le _
  have hround : |q / 2 ^ lastBit q - round (q / 2 ^ lastBit q)| ≤ 1 / 2 := abs_sub_round _
  refine ⟨(round (q / 2 ^ lastBit q) : ℤ) * 2 ^ lastBit q, ⟨_, _, ?_, le_max_right .., rfl⟩, ?_⟩
  · have hsum : |(round (q / 2 ^ lastBit q) : K)| ≤
        |q / 2 ^ lastBit q - round (q / 2 ^ lastBit q)| + |q / 2 ^ lastBit q| := by
      rw [abs_sub_comm]
      exact sub_le_iff_le_add.mp (abs_sub_abs_le_abs_sub ..)
    have hcast : |(round (q / 2 ^ lastBit q) : K)| < 2 ^ 53 + 1 :=
      hsum.trans_lt (by linarith [abs_div_lt q])
    exact Int.lt_add_one_iff.mp (by exact_mod_cast hcast)
  · rw [abs_sub_mul]
    have hhalf : |q / 2 ^ lastBit q - round (q / 2 ^ lastBit q)| * 2 ^ lastBit q ≤
        2 ^ (lastBit q - 1) := by
      rw [zpow_sub_one₀ two_ne_zero, mul_comm, ← one_div]
      exact mul_le_mul_of_nonneg_left hround (zpow_nonneg two_pos.le _)
    refine hhalf.trans ?_
    rcases le_abs hq with hbits | hlast
    · have hstep : (2 : K) ^ (lastBit q - 1) = 2 ^ (52 + lastBit q) / 2 ^ 53 := by
        rw [show lastBit q - 1 = 52 + lastBit q - (53 : ℕ) by push_cast; ring,
          zpow_sub₀ two_ne_zero, zpow_natCast]
      rw [hstep]
      have := div_le_div_of_nonneg_right hbits (by positivity : (0 : K) ≤ 2 ^ 53)
      have := zpow_pos (two_pos (α := K)) (-1075)
      linarith
    · rw [hlast]
      exact le_add_of_nonneg_left (by positivity)

end

end Binary64

namespace Rounding

variable (r : Rounding K) {p q x : K}

/-- Exact arithmetic. -/
def exact : Rounding K where
  Fits _ := True
  round q := q
  fits_binary64 _ := trivial
  fits_round _ := trivial
  nearest q x _ := by
    rw [sub_self, abs_zero]
    exact abs_nonneg _

theorem round_eq (h : r.Fits x) : r.round x = x := by
  have hnear := r.nearest x h
  rw [sub_self, abs_zero, abs_nonpos_iff, sub_eq_zero] at hnear
  exact hnear.symm

theorem mono (h : p ≤ q) : r.round p ≤ r.round q := by
  obtain rfl | hlt := h.eq_or_lt
  · exact le_rfl
  by_contra hback
  rw [not_le] at hback
  -- Each is no farther from its own than from the other's.
  have hp := sq_le_sq.mpr (r.nearest p (r.fits_round q))
  have hq := sq_le_sq.mpr (r.nearest q (r.fits_round p))
  have hcross := mul_pos (sub_pos.mpr hback) (sub_pos.mpr hlt)
  linarith

theorem le_round (hx : r.Fits x) (h : x ≤ q) : x ≤ r.round q :=
  (r.round_eq hx).symm.le.trans (r.mono h)

theorem round_le (hx : r.Fits x) (h : q ≤ x) : r.round q ≤ x :=
  (r.mono h).trans (r.round_eq hx).le

omit [IsStrictOrderedRing K] in
theorem fits_intCast {m : ℤ} (h : |m| ≤ 2 ^ 53) : r.Fits (m : K) :=
  r.fits_binary64 (.intCast h)

omit [IsStrictOrderedRing K] in
theorem fits_zero : r.Fits 0 := by
  simpa using r.fits_intCast (m := 0) (by norm_num)

theorem round_nonneg (h : 0 ≤ q) : 0 ≤ r.round q := r.le_round r.fits_zero h

theorem round_nonpos (h : q ≤ 0) : r.round q ≤ 0 := r.round_le r.fits_zero h

/-- Rounding is a `2 ^ 53`th off, or less than any number of binary64 but 0 is. -/
theorem error [FloorRing K] (q : K) :
    |q - r.round q| ≤ |q| / 2 ^ 53 + 2 ^ (-1075 : ℤ) := by
  obtain ⟨x, hx, hnear⟩ := Binary64.exists_near q
  exact (r.nearest q (r.fits_binary64 hx)).trans hnear

/-- Of a number that is not negative the rounded one is no more than that above or below. -/
theorem error_of_nonneg [FloorRing K] (h : 0 ≤ q) :
    q - (q / 2 ^ 53 + 2 ^ (-1075 : ℤ)) ≤ r.round q ∧
      r.round q ≤ q + (q / 2 ^ 53 + 2 ^ (-1075 : ℤ)) := by
  have herror := abs_le.mp (r.error q)
  rw [abs_of_nonneg h] at herror
  constructor <;> linarith

/-- Of a number that is not tiny it is at most a `2 ^ 52`th off. -/
theorem relative [FloorRing K] (h : 1 / 2 ^ 64 ≤ q) :
    q * (1 - 1 / 2 ^ 52) ≤ r.round q ∧ r.round q ≤ q * (1 + 1 / 2 ^ 52) := by
  have herror := r.error_of_nonneg (le_trans (by positivity) h)
  have htiny : (2 : K) ^ (-1075 : ℤ) ≤ 2 ^ (-117 : ℤ) :=
    zpow_le_zpow_right₀ one_le_two (by norm_num)
  rw [show (2 : K) ^ (-117 : ℤ) = 1 / 2 ^ 64 / 2 ^ 53 by norm_num] at htiny
  constructor <;> linarith

/-! ## Number types -/

section
variable {R : Type*} {finite : R → Bool} {value : R → K} {x : R} {low high : K}

/-- `x` is `q` rounded; no result up to `2 ^ 200` overflows. -/
def Computes (finite : R → Bool) (value : R → K) (x : R) (q : K) : Prop :=
  |q| ≤ 2 ^ 200 → finite x = true ∧ value x = r.round q

/-- `x` is finite and lies between the bounds. -/
structure Between (finite : R → Bool) (value : R → K) (x : R) (low high : K) : Prop where
  finite : finite x = true
  le_value : low ≤ value x
  value_le : value x ≤ high

variable {r}

/-- What is rounded stays between bounds that every format has. -/
theorem between (h : r.Computes finite value x q) (hlow : Binary64 low) (hhigh : Binary64 high)
    (hle : low ≤ q) (hge : q ≤ high) (hlow' : -2 ^ 200 ≤ low) (hhigh' : high ≤ 2 ^ 200) :
    Between finite value x low high := by
  obtain ⟨hfinite, hvalue⟩ := h (abs_le.mpr ⟨hlow'.trans hle, hge.trans hhigh'⟩)
  refine ⟨hfinite, ?_, ?_⟩
  · rw [hvalue]
    exact r.le_round (r.fits_binary64 hlow) hle
  · rw [hvalue]
    exact r.round_le (r.fits_binary64 hhigh) hge

/-- What every format has is not rounded. -/
theorem computes_eq (h : r.Computes finite value x q) (hfits : r.Fits q) (hlimit : |q| ≤ 2 ^ 200) :
    finite x = true ∧ value x = q := by
  obtain ⟨hfinite, hvalue⟩ := h hlimit
  exact ⟨hfinite, hvalue.trans (r.round_eq hfits)⟩

theorem value_nonpos (h : r.Computes finite value x q) (hlow : -2 ^ 200 ≤ q) (hneg : q ≤ 0) :
    value x ≤ 0 := by
  rw [(h (abs_le.mpr ⟨hlow, hneg.trans (by positivity)⟩)).2]
  exact r.round_nonpos hneg

omit [Field K] [IsStrictOrderedRing K] in
theorem Between.value_eq {q : K} (h : Between finite value x q q) : value x = q :=
  le_antisymm h.value_le h.le_value

end

end Rounding

end WaveformGenerator
