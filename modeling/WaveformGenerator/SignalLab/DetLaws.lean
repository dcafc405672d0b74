import Mathlib.Data.Rat.Floor
import WaveformGenerator.Lib.Lcg
import WaveformGenerator.Lib.Rounding
import WaveformGenerator.SignalLab.Det

/-!
# How the engine's doubles round

What a proof may need of the double operations: a result is the exact one, rounded to nearest. From
this follow the signs and sizes of what the deterministic routines and the generators give. Exact
numbers are such doubles too.
-/

namespace WaveformGenerator.SignalLab

open Det
open Rounding (between computes_eq value_nonpos)

/-- The laws of IEEE doubles; `value` is the number that a finite one is. -/
class LawfulDet (R : Type) [Det R] where
  rounding : Rounding ℚ
  value : R → ℚ
  fits_value {a : R} (ha : isFinite a = true) : rounding.Fits (value a)
  literal (mantissa : Nat) (negative : Bool) (exponent : Nat) :
    rounding.Computes isFinite value (OfScientific.ofScientific mantissa negative exponent : R)
      (OfScientific.ofScientific mantissa negative exponent)
  ofInt (i : Int) : rounding.Computes isFinite value (Det.ofInt i : R) i
  add {a b : R} (ha : isFinite a = true) (hb : isFinite b = true) :
    rounding.Computes isFinite value (a + b) (value a + value b)
  sub {a b : R} (ha : isFinite a = true) (hb : isFinite b = true) :
    rounding.Computes isFinite value (a - b) (value a - value b)
  mul {a b : R} (ha : isFinite a = true) (hb : isFinite b = true) :
    rounding.Computes isFinite value (a * b) (value a * value b)
  div {a b : R} (ha : isFinite a = true) (hb : isFinite b = true) (hzero : value b ≠ 0) :
    rounding.Computes isFinite value (a / b) (value a / value b)
  neg {a : R} (ha : isFinite a = true) : isFinite (-a) = true ∧ value (-a) = -value a
  lt {a b : R} (ha : isFinite a = true) (hb : isFinite b = true) :
    Det.lt a b = true ↔ value a < value b
  beq {a b : R} (ha : isFinite a = true) (hb : isFinite b = true) :
    (a == b) = true ↔ value a = value b
  floor {a : R} (ha : isFinite a = true) :
    isFinite (Det.floor a) = true ∧ value (Det.floor a) = ⌊value a⌋
  frexp {a : R} (ha : isFinite a = true) (hpos : 0 < value a) :
    isFinite (Det.frexp a).1 = true ∧ 1 / 2 ≤ value (Det.frexp a).1 ∧ value (Det.frexp a).1 < 1 ∧
      value a = value (Det.frexp a).1 * 2 ^ (Det.frexp a).2
  toUInt64 {a : R} (ha : isFinite a = true) (hnonneg : 0 ≤ value a) (hlimit : value a < 2 ^ 64) :
    ((Det.toUInt64 a).toNat : Int) = ⌊value a⌋

/-! ## Exact numbers -/

/-- Exact numbers in place of doubles, with the other functions cut short. -/
instance exactDet : Det ℚ where
  lt a b := decide (a < b)
  ofInt i := i
  toUInt64 q := .ofNat ⌊q⌋.toNat
  toInt q := ⌊q⌋
  isFinite _ := true
  single q := q
  sqrt q := q
  floor q := ⌊q⌋
  frexp q := (q / 2 ^ (Int.log 2 q + 1), Int.log 2 q + 1)
  exp q := if q < 0 then 1 / 2 else 1
  sin q := q
  cos q := 1 - q

instance exactLaws : LawfulDet ℚ where
  rounding := .exact
  value q := q
  fits_value _ := trivial
  literal _ _ _ _ := ⟨rfl, rfl⟩
  ofInt _ _ := ⟨rfl, rfl⟩
  add _ _ _ := ⟨rfl, rfl⟩
  sub _ _ _ := ⟨rfl, rfl⟩
  mul _ _ _ := ⟨rfl, rfl⟩
  div _ _ _ _ := ⟨rfl, rfl⟩
  neg _ := ⟨rfl, rfl⟩
  lt _ _ := decide_eq_true_iff
  beq _ _ := beq_iff_eq
  floor _ := ⟨rfl, rfl⟩
  frexp {a} _ hpos := by
    have hunit : (0 : ℚ) < 2 ^ (Int.log 2 a + 1) := zpow_pos two_pos _
    have hlow : (2 : ℚ) ^ Int.log 2 a ≤ a := by
      exact_mod_cast Int.zpow_log_le_self (by norm_num : 1 < 2) hpos
    have hhigh : a < (2 : ℚ) ^ (Int.log 2 a + 1) := by
      exact_mod_cast Int.lt_zpow_succ_log_self (by norm_num : 1 < 2) a
    refine ⟨rfl, ?_, (div_lt_one hunit).mpr hhigh, (div_mul_cancel₀ _ hunit.ne').symm⟩
    show 1 / 2 ≤ a / 2 ^ (Int.log 2 a + 1)
    rw [le_div_iff₀ hunit, zpow_add_one₀ two_ne_zero]
    linarith
  toUInt64 {a} _ hnonneg hlimit := by
    have hfloor : 0 ≤ ⌊a⌋ := Int.floor_nonneg.mpr hnonneg
    have hless : ⌊a⌋ < 2 ^ 64 := Int.floor_lt.mpr (by exact_mod_cast hlimit)
    show ((UInt64.ofNat ⌊a⌋.toNat).toNat : Int) = ⌊a⌋
    have hsmall : ⌊a⌋.toNat < 2 ^ 64 := by omega
    rw [UInt64.toNat_ofNat', Nat.mod_eq_of_lt hsmall, Int.toNat_of_nonneg hfloor]

namespace LawfulDet

variable {R : Type} [Det R] [LawfulDet R] {a b x : R} {p q low high : ℚ}

/-! ## Bounds -/

/-- `x` is finite and lies between the bounds. -/
abbrev Between (x : R) (low high : ℚ) : Prop := Rounding.Between isFinite value x low high

/-! ## Literals -/

theorem literal_between (mantissa : Nat) (negative : Bool) (exponent : Nat)
    (hlow : Binary64 low) (hhigh : Binary64 high)
    (hle : low ≤ OfScientific.ofScientific mantissa negative exponent)
    (hge : OfScientific.ofScientific mantissa negative exponent ≤ high) (hlow' : -2 ^ 200 ≤ low)
    (hhigh' : high ≤ 2 ^ 200) :
    Between (OfScientific.ofScientific mantissa negative exponent : R) low high :=
  between (literal mantissa negative exponent) hlow hhigh hle hge hlow' hhigh'

theorem between_one : Between (1.0 : R) 1 1 :=
  literal_between _ _ _ ⟨1, 0, by norm_num⟩ ⟨1, 0, by norm_num⟩ (by norm_num) (by norm_num)
    (by norm_num) (by norm_num)

theorem between_two : Between (2.0 : R) 2 2 :=
  literal_between _ _ _ ⟨2, 0, by norm_num⟩ ⟨2, 0, by norm_num⟩ (by norm_num) (by norm_num)
    (by norm_num) (by norm_num)

theorem between_ln2 : Between (ln2 : R) (11 / 16) (45 / 64) :=
  literal_between _ _ _ ⟨11, -4, by norm_num⟩ ⟨45, -6, by norm_num⟩ (by norm_num) (by norm_num)
    (by norm_num) (by norm_num)

/-! ## The logarithm -/

/-- A coefficient of the series, `1.0 / k`. -/
theorem between_coefficient (mantissa : Nat) (negative : Bool) (exponent : Nat)
    (hle : (1 : ℚ) ≤ OfScientific.ofScientific mantissa negative exponent)
    (hge : OfScientific.ofScientific mantissa negative exponent ≤ (32 : ℚ)) :
    Between (1.0 / OfScientific.ofScientific mantissa negative exponent : R) 0 1 := by
  have hk : Between (OfScientific.ofScientific mantissa negative exponent : R) 1 32 :=
    literal_between _ _ _ ⟨1, 0, by norm_num⟩ ⟨32, 0, by norm_num⟩ hle hge (by norm_num)
      (by norm_num)
  have hone := (between_one (R := R))
  have hpos : (0 : ℚ) < value (OfScientific.ofScientific mantissa negative exponent : R) :=
    one_pos.trans_le hk.le_value
  refine between (div hone.finite hk.finite hpos.ne') ⟨0, 0, by norm_num⟩ ⟨1, 0, by norm_num⟩ ?_ ?_
    (by norm_num) (by norm_num)
  · rw [hone.value_eq]
    positivity
  · rw [hone.value_eq, div_le_one hpos]
    exact hk.le_value

theorem logCoefficients_between : ∀ c ∈ (logCoefficients : List R), Between c 0 1 := by
  unfold logCoefficients
  simp only [List.forall_mem_cons]
  refine ⟨?_, ?_, ?_, ?_, ?_, ?_, ?_, ?_, ?_, ?_, ?_, ?_, ?_, fun _ h => absurd h List.not_mem_nil⟩
  case refine_13 => exact ⟨between_one.finite, by rw [between_one.value_eq]; norm_num,
    between_one.value_le⟩
  all_goals exact between_coefficient _ _ _ (by norm_num) (by norm_num)

/-- The series stays small where its argument is. -/
theorem horner_between {z2 : R} (hz : Between z2 0 (1 / 16)) {coefficients : List R}
    (h : ∀ c ∈ coefficients, Between c 0 1) {term : R} (hterm : Between term 0 (9 / 8)) :
    Between (coefficients.foldl (fun term c => term * z2 + c) term) 0 (9 / 8) := by
  induction coefficients generalizing term with
  | nil => exact hterm
  | cons c rest ih =>
    obtain ⟨hc, hrest⟩ := List.forall_mem_cons.mp h
    refine ih hrest ?_
    have hproduct : Between (term * z2) 0 (1 / 8) := by
      refine between (mul hterm.finite hz.finite) ⟨0, 0, by norm_num⟩ ⟨1, -3, by norm_num⟩
        (mul_nonneg hterm.le_value hz.le_value) ?_ (by norm_num) (by norm_num)
      nlinarith [hterm.value_le, hz.value_le, hterm.le_value, hz.le_value]
    refine between (add hproduct.finite hc.finite) ⟨0, 0, by norm_num⟩ ⟨9, -3, by norm_num⟩ ?_ ?_
      (by norm_num) (by norm_num)
    · exact add_nonneg hproduct.le_value hc.le_value
    · linarith [hproduct.value_le, hc.value_le]

/-- The argument of the series; it has the sign of the mantissa's logarithm. -/
theorem seriesArgument_between {m : R} (hm : Between m (45 / 64) (91 / 64)) :
    Between ((m - 1.0) / (m + 1.0)) (-1 / 4) (1 / 4) ∧
      (value m ≤ 1 → value ((m - 1.0) / (m + 1.0)) ≤ 0) ∧
      (value m = 1 → value ((m - 1.0) / (m + 1.0)) = 0) := by
  have hone := (between_one (R := R))
  have hlow := hm.le_value
  have hhigh := hm.value_le
  have hminus : Between (m - 1.0) (-19 / 64) (27 / 64) := by
    refine between (sub hm.finite hone.finite) ⟨-19, -6, by norm_num⟩ ⟨27, -6, by norm_num⟩ ?_ ?_
      (by norm_num) (by norm_num)
    · rw [hone.value_eq]
      linarith
    · rw [hone.value_eq]
      linarith
  have hplus : Between (m + 1.0) (109 / 64) (155 / 64) := by
    refine between (add hm.finite hone.finite) ⟨109, -6, by norm_num⟩ ⟨155, -6, by norm_num⟩ ?_ ?_
      (by norm_num) (by norm_num)
    · rw [hone.value_eq]
      linarith
    · rw [hone.value_eq]
      linarith
  have hpos : 0 < value (m + 1.0) := lt_of_lt_of_le (by norm_num) hplus.le_value
  have hquotient := div hminus.finite hplus.finite hpos.ne'
  have hz : Between ((m - 1.0) / (m + 1.0)) (-1 / 4) (1 / 4) := by
    refine between hquotient ⟨-1, -2, by norm_num⟩ ⟨1, -2, by norm_num⟩ ?_ ?_ (by norm_num)
      (by norm_num)
    · rw [le_div_iff₀ hpos]
      linarith [hplus.le_value, hminus.le_value]
    · rw [div_le_iff₀ hpos]
      linarith [hplus.le_value, hminus.value_le]
  have hnonpos (h : value m ≤ 1) : value ((m - 1.0) / (m + 1.0)) ≤ 0 := by
    have hsign : value (m - 1.0) ≤ 0 := by
      refine value_nonpos (sub hm.finite hone.finite) ?_ ?_
      · rw [hone.value_eq]
        linarith
      · rw [hone.value_eq]
        linarith
    refine value_nonpos hquotient ?_ (div_nonpos_of_nonpos_of_nonneg hsign hpos.le)
    rw [le_div_iff₀ hpos]
    linarith [hplus.le_value, hminus.le_value]
  refine ⟨hz, hnonpos, fun h => le_antisymm (hnonpos h.le) ?_⟩
  have hzero : value (m - 1.0) = 0 := by
    have hdifference := sub hm.finite hone.finite
    rw [h, hone.value_eq, sub_self] at hdifference
    exact (computes_eq hdifference (rounding R).fits_zero (by norm_num)).2
  rw [hzero, zero_div] at hquotient
  exact (computes_eq hquotient (rounding R).fits_zero (by norm_num)).2.ge

/-- The series; it has the sign of its argument. -/
theorem series_between {z : R} (hz : Between z (-1 / 4) (1 / 4)) :
    let term := logCoefficients.foldl (fun term c => term * (z * z) + c) (1.0 / 27.0)
    Between (2.0 * z * term) (-9 / 16) (9 / 16) ∧
      (value z ≤ 0 → value (2.0 * z * term) ≤ 0) := by
  intro term
  have htwo := (between_two (R := R))
  have hlow := hz.le_value
  have hhigh := hz.value_le
  have hsquare : Between (z * z) 0 (1 / 16) := by
    refine between (mul hz.finite hz.finite) ⟨0, 0, by norm_num⟩ ⟨1, -4, by norm_num⟩
      (mul_self_nonneg _) ?_ (by norm_num) (by norm_num)
    nlinarith
  have hfirst : Between (1.0 / 27.0 : R) 0 (9 / 8) := by
    have h := between_coefficient (R := R) 270 true 1 (by norm_num) (by norm_num)
    exact ⟨h.finite, h.le_value, h.value_le.trans (by norm_num)⟩
  have hterm : Between term 0 (9 / 8) := horner_between hsquare logCoefficients_between hfirst
  have hdouble : Between (2.0 * z) (-1 / 2) (1 / 2) := by
    refine between (mul htwo.finite hz.finite) ⟨-1, -1, by norm_num⟩ ⟨1, -1, by norm_num⟩ ?_ ?_
      (by norm_num) (by norm_num)
    · rw [htwo.value_eq]
      linarith
    · rw [htwo.value_eq]
      linarith
  have hproduct := mul hdouble.finite hterm.finite
  have hbelow : -9 / 16 ≤ value (2.0 * z) * value term := by
    nlinarith [hdouble.le_value, hdouble.value_le, hterm.le_value, hterm.value_le]
  refine ⟨between hproduct ⟨-9, -4, by norm_num⟩ ⟨9, -4, by norm_num⟩ hbelow ?_ (by norm_num)
    (by norm_num), fun hneg => ?_⟩
  · nlinarith [hdouble.le_value, hdouble.value_le, hterm.le_value, hterm.value_le]
  · have hsign : value (2.0 * z) ≤ 0 := by
      refine value_nonpos (mul htwo.finite hz.finite) ?_ ?_
      · rw [htwo.value_eq]
        linarith
      · rw [htwo.value_eq]
        linarith
    exact value_nonpos hproduct (by linarith)
      (mul_nonpos_of_nonpos_of_nonneg hsign hterm.le_value)

theorem logSeries_between {m : R} {e : Int} (hm : Between m (45 / 64) (91 / 64)) (hlow : -24 ≤ e)
    (hhigh : e ≤ 0) (hone : e = 0 → value m ≤ 1) :
    Between (logSeries m e) (-18) 0 ∧
      (e = -24 → value m = 1 → value (logSeries m e) ≤ -33 / 2) := by
  obtain ⟨hz, hzneg, hzzero⟩ := seriesArgument_between hm
  obtain ⟨hseries, hneg⟩ := series_between hz
  have hln2 := (between_ln2 (R := R))
  obtain ⟨hefinite, hevalue⟩ : isFinite (Det.ofInt e : R) = true ∧ value (Det.ofInt e : R) = e := by
    refine computes_eq (ofInt e) ((rounding R).fits_intCast (abs_le.mpr ⟨by omega, by omega⟩)) ?_
    rw [abs_le]
    constructor <;> norm_cast <;> omega
  have hproduct := mul hefinite hln2.finite
  rw [hevalue] at hproduct
  have he : (-24 : ℚ) ≤ e := by exact_mod_cast hlow
  have he' : (e : ℚ) ≤ 0 := by exact_mod_cast hhigh
  have hscaled : (-17 : ℚ) ≤ e * value (ln2 : R) := by
    nlinarith [hln2.le_value, hln2.value_le]
  have hfits : Binary64 (-17 : ℚ) := ⟨-17, 0, by norm_num⟩
  unfold logSeries
  dsimp only
  rcases hhigh.lt_or_eq with hless | hzero
  · have he' : (e : ℚ) ≤ -1 := by exact_mod_cast Int.le_sub_one_of_lt hless
    have hexponent : Between (Det.ofInt e * ln2 : R) (-17) (-11 / 16) := by
      refine between hproduct hfits ⟨-11, -4, by norm_num⟩ hscaled ?_ (by norm_num) (by norm_num)
      nlinarith [hln2.le_value]
    have hsum := add hexponent.finite hseries.finite
    refine ⟨between hsum ⟨-18, 0, by norm_num⟩ ⟨0, 0, by norm_num⟩ ?_ ?_ (by norm_num)
      (by norm_num), fun hlast hm1 => ?_⟩
    · linarith [hexponent.le_value, hseries.le_value]
    · linarith [hexponent.value_le, hseries.value_le]
    · have hlarge : Between (Det.ofInt e * ln2 : R) (-17) (-33 / 2) := by
        refine between hproduct hfits ⟨-33, -1, by norm_num⟩ hscaled ?_ (by norm_num) (by norm_num)
        rw [hlast]
        push_cast
        linarith [hln2.le_value]
      have hsmall : Between (Det.ofInt e * ln2 + _ : R) (-18) (-33 / 2) :=
        between hsum ⟨-18, 0, by norm_num⟩ ⟨-33, -1, by norm_num⟩
          (by linarith [hexponent.le_value, hseries.le_value])
          (by linarith [hlarge.value_le, hneg (hzzero hm1).le]) (by norm_num) (by norm_num)
      exact hsmall.value_le
  · have hexponent : Between (Det.ofInt e * ln2 : R) (-17) 0 := by
      refine between hproduct hfits ⟨0, 0, by norm_num⟩ hscaled ?_ (by norm_num) (by norm_num)
      rw [hzero, Int.cast_zero, zero_mul]
    refine ⟨between (add hexponent.finite hseries.finite) ⟨-18, 0, by norm_num⟩ ⟨0, 0, by norm_num⟩
      ?_ ?_ (by norm_num) (by norm_num), fun hlast => by omega⟩
    · linarith [hexponent.le_value, hseries.le_value]
    · linarith [hexponent.value_le, hneg (hzneg (hone hzero))]

/-- The parts of a uniform number: of the least one they are the least. -/
theorem frexp_uniform {x : R} (hx : isFinite x = true) {j : Nat} (hvalue : value x = j / 2 ^ 24)
    (hpos : 1 ≤ j) (hle : j ≤ 2 ^ 24) :
    ∃ m e, Det.frexp x = (m, e) ∧ isFinite m = true ∧ 1 / 2 ≤ value m ∧ value m < 1 ∧
      value x = value m * 2 ^ e ∧ -23 ≤ e ∧ e ≤ 1 ∧ (j = 1 → e = -23 ∧ value m = 1 / 2) := by
  have hj : (1 : ℚ) ≤ j := by exact_mod_cast hpos
  have hj' : (j : ℚ) ≤ 2 ^ 24 := by exact_mod_cast hle
  have hxlow : (1 : ℚ) / 2 ^ 24 ≤ value x := by
    rw [hvalue]
    exact div_le_div_of_nonneg_right hj (by norm_num)
  have hxhigh : value x ≤ 1 := by
    rw [hvalue, div_le_one (by norm_num)]
    exact hj'
  obtain ⟨hfinite, hlow, hhigh, hsplit⟩ := frexp hx (lt_of_lt_of_le (by norm_num) hxlow)
  generalize hparts : Det.frexp x = parts at hfinite hlow hhigh hsplit
  obtain ⟨m, e⟩ := parts
  dsimp only at hfinite hlow hhigh hsplit
  have hunit : (0 : ℚ) < 2 ^ e := zpow_pos two_pos e
  have hhalf := mul_le_mul_of_nonneg_right hlow hunit.le
  have hone := mul_lt_mul_of_pos_right hhigh hunit
  rw [← hsplit] at hhalf hone
  have he : e ≤ 1 := by
    have hpower : (2 : ℚ) ^ e ≤ 2 ^ (1 : ℤ) := by
      rw [zpow_one]
      linarith
    exact (zpow_le_zpow_iff_right₀ one_lt_two).mp hpower
  have he' : -23 ≤ e := by
    have hpower : (2 : ℚ) ^ (-24 : ℤ) < 2 ^ e := by
      rw [show (2 : ℚ) ^ (-24 : ℤ) = 1 / 2 ^ 24 by norm_num]
      linarith
    have := (zpow_lt_zpow_iff_right₀ one_lt_two).mp hpower
    omega
  refine ⟨m, e, rfl, hfinite, hlow, hhigh, hsplit, he', he, fun hone => ?_⟩
  have hx : value x = 1 / 2 ^ 24 := by rw [hvalue, hone, Nat.cast_one]
  have hpower : (2 : ℚ) ^ e ≤ 2 ^ (-23 : ℤ) := by
    rw [show (2 : ℚ) ^ (-23 : ℤ) = 2 * (1 / 2 ^ 24) by norm_num]
    linarith
  have hexponent : e = -23 := le_antisymm ((zpow_le_zpow_iff_right₀ one_lt_two).mp hpower) he'
  refine ⟨hexponent, ?_⟩
  rw [hsplit, hexponent] at hx
  norm_num at hx
  linarith

/-- Of the uniform numbers the logarithm is not positive, and small at the least of them. -/
theorem log_between {x : R} (hx : isFinite x = true) {j : Nat} (hvalue : value x = j / 2 ^ 24)
    (hpos : 1 ≤ j) (hle : j ≤ 2 ^ 24) :
    Between (log x) (-18) 0 ∧ (j = 1 → value (log x) ≤ -33 / 2) := by
  have hj : (1 : ℚ) ≤ j := by exact_mod_cast hpos
  have hj' : (j : ℚ) ≤ 2 ^ 24 := by exact_mod_cast hle
  have hxpos : 0 < value x := by
    rw [hvalue]
    positivity
  have hxhigh : value x ≤ 1 := by
    rw [hvalue, div_le_one (by norm_num)]
    exact hj'
  have hzero : Between (0.0 : R) 0 0 :=
    literal_between _ _ _ ⟨0, 0, by norm_num⟩ ⟨0, 0, by norm_num⟩ (by norm_num) (by norm_num)
      (by norm_num) (by norm_num)
  have hlimit : Between (0.7071067811865476 : R) (45 / 64) (91 / 128) :=
    literal_between _ _ _ ⟨45, -6, by norm_num⟩ ⟨91, -7, by norm_num⟩ (by norm_num) (by norm_num)
      (by norm_num) (by norm_num)
  have htwo := (between_two (R := R))
  have hcounts : Det.lt 0.0 x = true := (lt hzero.finite hx).mpr (by rwa [hzero.value_eq])
  obtain ⟨m, e, hparts, hfinite, hlow, hhigh, hsplit, he', he, hleast⟩ :=
    frexp_uniform hx hvalue hpos hle
  unfold log
  rw [hcounts, if_neg (by decide), hparts]
  dsimp only
  by_cases hless : Det.lt m 0.7071067811865476 = true
  · rw [if_pos hless]
    have hm := (lt hfinite hlimit.finite).mp hless
    have hdouble := mul hfinite htwo.finite
    rw [htwo.value_eq] at hdouble
    have hbetween : Between (m * 2.0) (45 / 64) (91 / 64) := by
      refine between hdouble ⟨45, -6, by norm_num⟩ ⟨91, -6, by norm_num⟩ ?_ ?_ (by norm_num)
        (by norm_num)
      · linarith
      · linarith [hlimit.value_le]
    have hdoubled (hle : value m * 2 ≤ 1) : value (m * 2.0) = 1 :=
      Rounding.Between.value_eq (between hdouble ⟨1, 0, by norm_num⟩ ⟨1, 0, by norm_num⟩
        (by linarith) hle (by norm_num) (by norm_num))
    obtain ⟨hseries, hsmall⟩ := @logSeries_between R _ _ _ (e - 1) hbetween (by omega) (by omega)
      (fun hzero => (hdoubled (by
        rw [show e = 1 by omega, zpow_one] at hsplit
        rwa [hsplit] at hxhigh)).le)
    refine ⟨hseries, fun hj => ?_⟩
    obtain ⟨hexponent, hmantissa⟩ := hleast hj
    exact hsmall (by omega) (hdoubled (by rw [hmantissa]; norm_num))
  · rw [if_neg hless]
    have hm := (lt hfinite hlimit.finite).not.mp hless
    have hbelow := hlimit.le_value
    have hnotOne : e ≠ 1 := fun hone => by
      rw [hone, zpow_one] at hsplit
      linarith
    obtain ⟨hseries, -⟩ := @logSeries_between R _ _ m e
      ⟨hfinite, by linarith, by linarith⟩ (by omega) (by omega) fun _ => hhigh.le
    refine ⟨hseries, fun hj => ?_⟩
    have := (hleast hj).2
    linarith

/-! ## Rounding to whole numbers -/

/-- The number that `roundHalfEven` gives for the number `v`. -/
def wholeOf (r : Rounding ℚ) (v : ℚ) : ℚ :=
  let fraction := r.round (v - ⌊v⌋)
  if fraction < 1 / 2 then ⌊v⌋
  else if 1 / 2 < fraction then r.round (⌊v⌋ + 1)
  else if r.round (⌊v⌋ * (1 / 2)) = ⌊r.round (⌊v⌋ * (1 / 2))⌋ then ⌊v⌋
  else r.round (⌊v⌋ + 1)

theorem value_roundHalfEven {x : R} (hx : isFinite x = true) (hlimit : |value x| ≤ 2 ^ 100) :
    isFinite (roundHalfEven x) = true ∧
      value (roundHalfEven x) = wholeOf (rounding R) (value x) := by
  have hhalf : Between (0.5 : R) (1 / 2) (1 / 2) :=
    literal_between _ _ _ ⟨1, -1, by norm_num⟩ ⟨1, -1, by norm_num⟩ (by norm_num) (by norm_num)
      (by norm_num) (by norm_num)
  have hone := (between_one (R := R))
  obtain ⟨hlow, hhigh⟩ := abs_le.mp hlimit
  have hfloor := Int.floor_le (value x)
  have hfloor' := Int.lt_floor_add_one (value x)
  obtain ⟨hfloored, hwhole⟩ := floor hx
  obtain ⟨hfraction, hpart⟩ := sub hx hfloored (by
    rw [hwhole, abs_le]
    constructor <;> linarith)
  obtain ⟨hnext, hsum⟩ := add hfloored hone.finite (by
    rw [hwhole, hone.value_eq, abs_le]
    constructor <;> linarith)
  obtain ⟨hhalved, hquotient⟩ := mul hfloored hhalf.finite (by
    rw [hwhole, hhalf.value_eq, abs_le]
    constructor <;> linarith)
  obtain ⟨hhalvedFloor, hhalvedWhole⟩ := floor hhalved
  rw [hwhole] at hpart hsum hquotient
  rw [hone.value_eq] at hsum
  rw [hhalf.value_eq] at hquotient
  have hless := lt hfraction hhalf.finite
  have hmore := lt hhalf.finite hfraction
  have heven := beq hhalved hhalvedFloor
  rw [hpart, hhalf.value_eq] at hless
  rw [hpart, hhalf.value_eq] at hmore
  rw [hhalvedWhole, hquotient] at heven
  unfold roundHalfEven wholeOf
  simp only [hless, hmore, heven]
  split
  · exact ⟨hfloored, hwhole⟩
  · split
    · exact ⟨hnext, hsum⟩
    · split
      · exact ⟨hfloored, hwhole⟩
      · exact ⟨hnext, hsum⟩

/-- It is the whole part, or the next whole number as far as the format has it. -/
theorem wholeOf_bounds (r : Rounding ℚ) {v : ℚ} (hfits : r.Fits (⌊v⌋ : ℚ)) :
    (⌊v⌋ : ℚ) ≤ wholeOf r v ∧ wholeOf r v ≤ r.round (⌊v⌋ + 1) := by
  have hnext : (⌊v⌋ : ℚ) ≤ r.round (⌊v⌋ + 1) := r.le_round hfits (by linarith)
  unfold wholeOf
  dsimp only
  split
  · exact ⟨le_rfl, hnext⟩
  · split
    · exact ⟨hnext, le_rfl⟩
    · split
      · exact ⟨le_rfl, hnext⟩
      · exact ⟨hnext, le_rfl⟩

/-- Rounding to whole numbers does not change the order. -/
theorem wholeOf_mono (r : Rounding ℚ) {v v' : ℚ} (hfits : r.Fits (⌊v⌋ : ℚ))
    (hfits' : r.Fits (⌊v'⌋ : ℚ)) (h : v ≤ v') : wholeOf r v ≤ wholeOf r v' := by
  rcases (Int.floor_le_floor h).lt_or_eq with hless | hsame
  · -- The next whole number is the other's whole part at most.
    have hstep : (⌊v⌋ : ℚ) + 1 ≤ ⌊v'⌋ := by exact_mod_cast hless
    exact (wholeOf_bounds r hfits).2.trans
      ((r.round_le hfits' hstep).trans (wholeOf_bounds r hfits').1)
  · have hbounds := wholeOf_bounds r hfits
    have hbounds' := wholeOf_bounds r hfits'
    rw [← hsame] at hbounds'
    have hfraction : r.round (v - ⌊v⌋) ≤ r.round (v' - ⌊v⌋) := r.mono (by linarith)
    by_cases hless : r.round (v - ⌊v⌋) < 1 / 2
    · have hdown : wholeOf r v = ⌊v⌋ := if_pos hless
      rw [hdown]
      exact hbounds'.1
    · by_cases hmore : 1 / 2 < r.round (v' - ⌊v⌋)
      · have hup : wholeOf r v' = r.round (⌊v⌋ + 1) := by
          unfold wholeOf
          rw [← hsame, if_neg (by linarith), if_pos hmore]
        rw [hup]
        exact hbounds.2
      · -- Both are half way between the same two.
        have heq : r.round (v - ⌊v⌋) = 1 / 2 := by linarith
        have heq' : r.round (v' - ⌊v⌋) = 1 / 2 := by linarith
        unfold wholeOf
        rw [← hsame, heq, heq']

theorem roundHalfEven_bounds {x : R} (hx : isFinite x = true) (hlimit : |value x| ≤ 2 ^ 100) :
    isFinite (roundHalfEven x) = true ∧ (⌊value x⌋ : ℚ) ≤ value (roundHalfEven x) := by
  obtain ⟨hfinite, hvalue⟩ := value_roundHalfEven hx hlimit
  obtain ⟨hfloored, hwhole⟩ := floor hx
  have hfits := fits_value hfloored
  rw [hwhole] at hfits
  rw [hvalue]
  exact ⟨hfinite, (wholeOf_bounds _ hfits).1⟩

theorem roundHalfEven_mono {x y : R} (hx : isFinite x = true) (hy : isFinite y = true)
    (hlimit : |value x| ≤ 2 ^ 100) (hlimit' : |value y| ≤ 2 ^ 100) (h : value x ≤ value y) :
    value (roundHalfEven x) ≤ value (roundHalfEven y) := by
  obtain ⟨hxfloored, hxwhole⟩ := floor hx
  obtain ⟨hyfloored, hywhole⟩ := floor hy
  have hxfits := fits_value hxfloored
  have hyfits := fits_value hyfloored
  rw [hxwhole] at hxfits
  rw [hywhole] at hyfits
  rw [(value_roundHalfEven hx hlimit).2, (value_roundHalfEven hy hlimit').2]
  exact wholeOf_mono _ hxfits hyfits h

/-! ## The generator's draws -/

/-- The generator after `n` draws. -/
def drawn (rng : Pcg32) (n : Nat) : Pcg32 := (fun rng : Pcg32 => rng.next.2)^[n] rng

theorem drawn_succ (rng : Pcg32) (n : Nat) : drawn rng (n + 1) = (drawn rng n).next.2 :=
  Function.iterate_succ_apply' _ _ _

theorem drawn_add (rng : Pcg32) (m n : Nat) : drawn (drawn rng m) n = drawn rng (n + m) :=
  (Function.iterate_add_apply _ _ _ _).symm

theorem next_increment (rng : Pcg32) : rng.next.2.increment = rng.increment := by
  -- Nothing may compare the new state with the old one here: that would compute the product.
  obtain ⟨state, hstate⟩ : ∃ state, rng.next.2 = ⟨state, rng.increment⟩ := ⟨_, rfl⟩
  rw [hstate]

theorem drawn_increment (rng : Pcg32) (n : Nat) : (drawn rng n).increment = rng.increment := by
  induction n with
  | zero => rfl
  | succ n ih => rw [drawn_succ, next_increment, ih]

theorem toNat_lcgStep (x multiplier increment : UInt64) :
    ((x * multiplier + increment).toNat : ℤ) ≡ lcgStep multiplier.toNat increment.toNat x.toNat
      [ZMOD 2 ^ 64] := by
  rw [UInt64.toNat_add, UInt64.toNat_mul, Nat.mod_add_mod, lcgStep, mul_comm]
  push_cast
  exact Int.mod_modEq _ _

/-- The factor of the generator's step. -/
def multiplier : UInt64 := 6364136223846793005

theorem next_state (rng : Pcg32) : rng.next.2.state = rng.state * multiplier + rng.increment := rfl

theorem drawn_state (rng : Pcg32) (n : Nat) :
    ((drawn rng n).state.toNat : ℤ) ≡
      (lcgStep multiplier.toNat rng.increment.toNat)^[n] rng.state.toNat [ZMOD 2 ^ 64] := by
  induction n with
  | zero => exact Int.ModEq.refl _
  | succ n ih =>
    have hnext := toNat_lcgStep (drawn rng n).state multiplier (drawn rng n).increment
    rw [← next_state, ← drawn_succ, drawn_increment] at hnext
    rw [Function.iterate_succ_apply']
    exact hnext.trans ((ih.mul_left _).add_right _)

/-- A state whose draw has all bits. -/
def greatestState : UInt64 := 0x07FFFE0000000000

theorem next_greatest {rng : Pcg32} (h : rng.state = greatestState) : rng.next.1 = 0xFFFFFFFF := by
  have hdraw : rng.next.1 = ({ state := rng.state } : Pcg32).next.1 := rfl
  rw [hdraw, h]
  decide +kernel

/-- Sooner or later a generator with an odd increment draws the greatest number. -/
theorem exists_greatest (rng : Pcg32) (h : rng.increment.toNat % 2 = 1) :
    ∃ n, (drawn rng n).next.1 = 0xFFFFFFFF := by
  have hodd : Odd (rng.increment.toNat : ℤ) := by
    rw [Int.odd_iff]
    omega
  obtain ⟨n, hn⟩ := lcgStep_reaches (a := multiplier.toNat) (by decide) hodd 64
    rng.state.toNat greatestState.toNat
  refine ⟨n, next_greatest (UInt64.toNat_inj.mp ?_)⟩
  have hsame := (drawn_state rng n).trans hn
  have hstate := (drawn rng n).state.toNat_lt
  have hgreatest := greatestState.toNat_lt
  unfold Int.ModEq at hsame
  omega

theorem or_one_odd (x : UInt64) : (x ||| 1).toNat % 2 = 1 := by
  have hbit : (x ||| 1).toNat.testBit 0 = true := by
    rw [UInt64.toNat_or, Nat.testBit_or, Bool.or_eq_true]
    exact .inr rfl
  rwa [Nat.testBit_zero, decide_eq_true_eq] at hbit

/-- A seeded generator has an odd increment. -/
theorem reseed_odd (seed : UInt64) (family index : UInt32) :
    (Pcg32.reseed seed family index).increment.toNat % 2 = 1 := or_one_odd _

/-- A uniform number is a fraction of `2 ^ 24`. -/
theorem uniform_spec (rng : Pcg32) :
    isFinite (rng.uniform : R × Pcg32).1 = true ∧
      value (rng.uniform : R × Pcg32).1 = (rng.next.1 >>> 8).toNat / 2 ^ 24 := by
  have hsmall : (rng.next.1 >>> 8).toNat < 2 ^ 24 := by
    rw [UInt32.toNat_shiftRight, Nat.shiftRight_eq_div_pow]
    have := rng.next.1.toNat_lt
    show rng.next.1.toNat / 2 ^ 8 < 2 ^ 24
    omega
  show isFinite (Det.ofInt ((rng.next.1 >>> 8).toNat : Int) * (1.0 / 16777216.0) : R) = true ∧
    value (Det.ofInt ((rng.next.1 >>> 8).toNat : Int) * (1.0 / 16777216.0) : R) = _
  generalize (rng.next.1 >>> 8).toNat = k at hsmall
  have hk : (k : ℚ) ≤ 2 ^ 24 := by exact_mod_cast hsmall.le
  have hk' : (0 : ℚ) ≤ k := Nat.cast_nonneg k
  have hone := (between_one (R := R))
  have hrange : Between (16777216.0 : R) 16777216 16777216 :=
    literal_between _ _ _ ⟨16777216, 0, by norm_num⟩ ⟨16777216, 0, by norm_num⟩ (by norm_num)
      (by norm_num) (by norm_num) (by norm_num)
  have hunit : Between (1.0 / 16777216.0 : R) (1 / 2 ^ 24) (1 / 2 ^ 24) := by
    refine between (div hone.finite hrange.finite (by rw [hrange.value_eq]; norm_num))
      ⟨1, -24, by norm_num⟩ ⟨1, -24, by norm_num⟩ ?_ ?_ (by norm_num) (by norm_num)
    · rw [hone.value_eq, hrange.value_eq]
      norm_num
    · rw [hone.value_eq, hrange.value_eq]
      norm_num
  obtain ⟨hfinite, hvalue⟩ := computes_eq (ofInt (R := R) k)
    ((rounding R).fits_intCast (by rw [Nat.abs_cast]; omega)) (by
      rw [Int.cast_natCast, abs_of_nonneg hk']
      linarith)
  have hproduct := mul hfinite hunit.finite
  rw [hvalue, hunit.value_eq, Int.cast_natCast, mul_one_div] at hproduct
  refine computes_eq hproduct ((rounding R).fits_binary64 ⟨k, -24, ?_, by norm_num, ?_⟩) ?_
  · rw [Nat.abs_cast]
    omega
  · rw [Int.cast_natCast, zpow_neg, div_eq_mul_inv]
    norm_cast
  · rw [abs_of_nonneg (by positivity)]
    linarith

/-- A gap is not negative; that of the greatest number is over 16 means. -/
theorem exponential_spec (rng : Pcg32) {mean : R} (hmean : Between mean 1 (2 ^ 36)) :
    Between (rng.exponential mean).1 0 (2 ^ 41) ∧
      (rng.next.1 = 0xFFFFFFFF → value mean * (131 / 8) ≤ value (rng.exponential mean).1) := by
  obtain ⟨hfinite, hvalue⟩ := uniform_spec (R := R) rng
  have hsmall : (rng.next.1 >>> 8).toNat < 2 ^ 24 := by
    rw [UInt32.toNat_shiftRight, Nat.shiftRight_eq_div_pow]
    have := rng.next.1.toNat_lt
    show rng.next.1.toNat / 2 ^ 8 < 2 ^ 24
    omega
  have hgreatest (h : rng.next.1 = 0xFFFFFFFF) : 2 ^ 24 - (rng.next.1 >>> 8).toNat = 1 := by
    rw [h]
    rfl
  show Between (-mean * Det.log (1.0 - (rng.uniform : R × Pcg32).1)) 0 (2 ^ 41) ∧
    (_ → value mean * (131 / 8) ≤ value (-mean * Det.log (1.0 - (rng.uniform : R × Pcg32).1)))
  generalize (rng.uniform : R × Pcg32).1 = u at hfinite hvalue
  generalize (rng.next.1 >>> 8).toNat = k at hsmall hvalue hgreatest
  have hk : (k : ℚ) ≤ 2 ^ 24 := by exact_mod_cast hsmall.le
  have hcount : ((2 ^ 24 - k : Nat) : ℚ) = 2 ^ 24 - k := by
    rw [Nat.cast_sub hsmall.le]
    norm_num
  have hone := (between_one (R := R))
  have hdifference := sub hone.finite hfinite
  rw [hone.value_eq, hvalue, show (1 - k / 2 ^ 24 : ℚ) = (2 ^ 24 - k : Nat) / 2 ^ 24 by
    rw [hcount]
    ring] at hdifference
  obtain ⟨hrest, hrestValue⟩ := computes_eq hdifference
    ((rounding R).fits_binary64 ⟨(2 ^ 24 - k : Nat), -24, by
      rw [Nat.abs_cast]
      omega, by norm_num, by
      rw [Int.cast_natCast, zpow_neg, div_eq_mul_inv]
      norm_cast⟩) (by
    rw [hcount, abs_le]
    have hk' : (0 : ℚ) ≤ k := Nat.cast_nonneg k
    constructor
    · linarith
    · linarith)
  obtain ⟨hlog, hleast⟩ := log_between hrest hrestValue (by omega) (by omega)
  obtain ⟨hneg, hnegValue⟩ := neg hmean.finite
  have hproduct := mul hneg hlog.finite
  rw [hnegValue] at hproduct
  have hmeanLow := hmean.le_value
  have hmeanHigh := hmean.value_le
  have hlogLow := hlog.le_value
  have hlogHigh := hlog.value_le
  have hnonneg : 0 ≤ -value mean * value (log (1.0 - u)) := by nlinarith
  have hbound : -value mean * value (log (1.0 - u)) ≤ 2 ^ 41 := by nlinarith
  refine ⟨between hproduct ⟨0, 0, by norm_num⟩ ⟨1, 41, by norm_num⟩ hnonneg hbound (by norm_num)
    (by norm_num), fun hdraw => ?_⟩
  have hlarge := hleast (hgreatest hdraw)
  have hgap : value mean * (33 / 2) ≤ -value mean * value (log (1.0 - u)) := by nlinarith
  obtain ⟨-, hrounded⟩ := hproduct (abs_le.mpr ⟨by linarith, by linarith⟩)
  rw [hrounded]
  have herror := ((rounding R).relative (q := -value mean * value (log (1.0 - u)))
    (by linarith)).1
  linarith

end LawfulDet

end WaveformGenerator.SignalLab
