import Mathlib.Algebra.Order.Archimedean.Real.Basic
import WaveformGenerator.ChannelSim.LaneOutputs
import WaveformGenerator.Lib.Rounding

/-!
# The resampler at the rates of the lane

From the laws of IEEE doubles, at each pair of rates: the positions are off by less than three
inputs and the count of the outputs by less than two, while the filter reaches 96 inputs ahead.
-/

namespace WaveformGenerator.ChannelSim

open Doubles
open Rounding (between computes_eq)

/-- The laws of IEEE doubles; `value` is the number that a finite one is. -/
class LawfulDoubles (R : Type) [Doubles R] where
  rounding : Rounding ℝ
  value : R → ℝ
  literal (mantissa : Nat) (negative : Bool) (exponent : Nat) :
    rounding.Computes isFinite value (OfScientific.ofScientific mantissa negative exponent : R)
      (OfScientific.ofScientific mantissa negative exponent)
  ofInt (i : Int) : rounding.Computes isFinite value (Doubles.ofInt i : R) i
  sub {a b : R} (ha : isFinite a = true) (hb : isFinite b = true) :
    rounding.Computes isFinite value (a - b) (value a - value b)
  mul {a b : R} (ha : isFinite a = true) (hb : isFinite b = true) :
    rounding.Computes isFinite value (a * b) (value a * value b)
  div {a b : R} (ha : isFinite a = true) (hb : isFinite b = true) (hzero : value b ≠ 0) :
    rounding.Computes isFinite value (a / b) (value a / value b)
  abs {a : R} (ha : isFinite a = true) :
    isFinite (Doubles.abs a) = true ∧ value (Doubles.abs a) = |value a|
  floor {a : R} (ha : isFinite a = true) :
    isFinite (Doubles.floor a) = true ∧ value (Doubles.floor a) = ⌊value a⌋
  lt {a b : R} (ha : isFinite a = true) (hb : isFinite b = true) :
    Doubles.lt a b = true ↔ value a < value b
  le {a b : R} (ha : isFinite a = true) (hb : isFinite b = true) :
    Doubles.le a b = true ↔ value a ≤ value b
  toInt {a : R} (ha : isFinite a = true) {i : Int} (h : value a = i) (hlimit : |i| < 2 ^ 63) :
    Doubles.toInt a = i
  llround {a : R} (ha : isFinite a = true) (hnonneg : 0 ≤ value a) (hlimit : value a < 2 ^ 62) :
    Doubles.llround a = ⌊value a + 1 / 2⌋
  cos_zero {a : R} (ha : isFinite a = true) (hzero : value a = 0) : cos a = 1.0
  /-- Doubles that compare equal are the same, but for the two zeros. -/
  eq_of_beq {a b : R} (h : (a == b) = true) :
    a = b ∨ isFinite a = true ∧ isFinite b = true ∧ value a = 0 ∧ value b = 0
  eq_of_value {a b : R} (ha : isFinite a = true) (hb : isFinite b = true)
    (h : value a = value b) (hzero : value a ≠ 0) : a = b

namespace LawfulDoubles

variable {R : Type} [Doubles R] [LawfulDoubles R] {x : R} {input output : Nat}

/-- `x` is finite and lies between the bounds. -/
abbrev Between (x : R) (low high : ℝ) : Prop := Rounding.Between isFinite value x low high

theorem ofInt_eq {i : Int} (h : |i| ≤ 2 ^ 53) :
    isFinite (Doubles.ofInt i : R) = true ∧ value (Doubles.ofInt i : R) = i := by
  have hcast : |(i : ℝ)| ≤ 2 ^ 53 := by exact_mod_cast h
  exact computes_eq (ofInt i) ((rounding R).fits_intCast h) (hcast.trans (by norm_num))

theorem literal_between {mantissa exponent : Nat} {negative : Bool} {low high : ℝ}
    (hlow : Binary64 low) (hhigh : Binary64 high)
    (hle : low ≤ OfScientific.ofScientific mantissa negative exponent)
    (hge : OfScientific.ofScientific mantissa negative exponent ≤ high)
    (hlow' : -2 ^ 200 ≤ low) (hhigh' : high ≤ 2 ^ 200) :
    Between (OfScientific.ofScientific mantissa negative exponent : R) low high :=
  between (literal _ _ _) hlow hhigh hle hge hlow' hhigh'

theorem mul_between {a b : R} {high high' : ℝ} (ha : Between a 0 high) (hb : Between b 0 high')
    (hfits : Binary64 (high * high')) (hlimit : high * high' ≤ 2 ^ 200) :
    Between (a * b) 0 (high * high') :=
  between (mul ha.finite hb.finite) ⟨0, 0, by norm_num⟩ hfits (mul_nonneg ha.le_value hb.le_value)
    (mul_le_mul ha.value_le hb.value_le hb.le_value (ha.le_value.trans ha.value_le)) (by norm_num)
    hlimit

theorem floorToIndex_eq (hx : isFinite x = true) (hnonneg : 0 ≤ value x) :
    floorToIndex x = min ⌊value x⌋ maxSampleIndex := by
  have hzero : Between (0.0 : R) 0 0 :=
    literal_between ⟨0, 0, by norm_num⟩ ⟨0, 0, by norm_num⟩ (by norm_num) (by norm_num)
      (by norm_num) (by norm_num)
  have hlargest : Between (Doubles.ofInt maxSampleIndex : R) (2 ^ 56) (2 ^ 56) := by
    have hindex : ((maxSampleIndex : Int) : ℝ) = 2 ^ 56 := by
      have hindex : maxSampleIndex = 2 ^ 56 := rfl
      rw [hindex]
      norm_num
    refine between (ofInt maxSampleIndex) ⟨1, 56, by norm_num⟩ ⟨1, 56, by norm_num⟩ ?_ ?_
      (by norm_num) (by norm_num)
    · rw [hindex]
    · rw [hindex]
  obtain ⟨hfloored, hwhole⟩ := floor hx
  have hfloor : 0 ≤ ⌊value x⌋ := Int.floor_nonneg.mpr hnonneg
  have hpositive : Doubles.le (0.0 : R) (Doubles.floor x) = true := by
    rw [le hzero.finite hfloored, hzero.value_eq, hwhole]
    exact_mod_cast hfloor
  have hlarge : Doubles.le (Doubles.ofInt maxSampleIndex) (Doubles.floor x) = true ↔
      maxSampleIndex ≤ ⌊value x⌋ := by
    rw [le hlargest.finite hfloored, hlargest.value_eq, hwhole]
    have hindex : maxSampleIndex = 2 ^ 56 := rfl
    rw [hindex]
    norm_cast
  unfold floorToIndex
  dsimp only
  rw [hpositive, if_neg (by decide)]
  split
  case isTrue hmore => rw [min_eq_right (hlarge.mp hmore)]
  case isFalse hless =>
    rw [hlarge, not_le] at hless
    have hindex : maxSampleIndex = 2 ^ 56 := rfl
    rw [min_eq_left hless.le]
    exact toInt hfloored hwhole (by rw [abs_of_nonneg hfloor]; omega)

/-! ## Positions -/

theorem laneRate_bounds {hz : Nat} (h : laneRate hz = true) :
    (8000 : ℝ) ≤ hz ∧ (hz : ℝ) ≤ 192000 := by
  obtain ⟨hlow, hhigh⟩ := (Bool.and_eq_true ..).mp h
  have hlow : 8000 ≤ hz := of_decide_eq_true hlow
  have hhigh : hz ≤ 192000 := of_decide_eq_true hhigh
  exact ⟨by exact_mod_cast hlow, by exact_mod_cast hhigh⟩

theorem rate_eq {hz : Nat} (h : laneRate hz = true) :
    isFinite (Doubles.ofInt hz : R) = true ∧ value (Doubles.ofInt hz : R) = hz := by
  obtain ⟨-, hhigh⟩ := (Bool.and_eq_true ..).mp h
  have hhigh : hz ≤ 192000 := of_decide_eq_true hhigh
  have heq := ofInt_eq (R := R) (i := hz) (by rw [Nat.abs_cast]; omega)
  rwa [Int.cast_natCast] at heq

theorem ratio_bounds (hinput : laneRate input = true) (houtput : laneRate output = true) :
    (1 / 24 : ℝ) ≤ input / output ∧ (input / output : ℝ) ≤ 24 := by
  obtain ⟨hin, hin'⟩ := laneRate_bounds hinput
  obtain ⟨hout, hout'⟩ := laneRate_bounds houtput
  constructor
  · rw [le_div_iff₀ (by linarith)]
    linarith
  · rw [div_le_iff₀ (by linarith)]
    linarith

theorem inputPerOutput_spec (hinput : laneRate input = true) (houtput : laneRate output = true)
    (gain : R) :
    Between (LaneFilter.of input output gain).inputPerOutput (1 / 32) 32 ∧
      (input / output : ℝ) * (1 - 1 / 2 ^ 52) ≤
        value (LaneFilter.of input output gain).inputPerOutput := by
  obtain ⟨hinFinite, hin⟩ := rate_eq (R := R) hinput
  obtain ⟨houtFinite, hout⟩ := rate_eq (R := R) houtput
  obtain ⟨hlow, hhigh⟩ := ratio_bounds hinput houtput
  have hpos := (laneRate_bounds houtput).1
  have hquotient := div hinFinite houtFinite (by rw [hout]; linarith)
  rw [hin, hout] at hquotient
  refine ⟨between hquotient ⟨1, -5, by norm_num⟩ ⟨32, 0, by norm_num⟩ (by linarith) (by linarith)
    (by norm_num) (by norm_num), ?_⟩
  obtain ⟨-, hrounded⟩ := hquotient (abs_le.mpr ⟨by linarith, by linarith⟩)
  show _ ≤ value (Doubles.ofInt input / Doubles.ofInt output : R)
  rw [hrounded]
  exact ((rounding R).relative (by linarith)).1

theorem ofInt_between {count : Nat} (hcount : count ≤ maxSampleCount + 1) :
    Between (Doubles.ofInt count : R) 0 (2 ^ 57) ∧
      value (Doubles.ofInt count : R) = (rounding R).round count := by
  have hlimit : (count : ℝ) ≤ 2 ^ 57 := by
    have hlimit : count ≤ 2 ^ 57 := hcount.trans (by decide)
    exact_mod_cast hlimit
  have hcomputes := ofInt (R := R) count
  rw [Int.cast_natCast] at hcomputes
  refine ⟨between hcomputes ⟨0, 0, by norm_num⟩ ⟨1, 57, by norm_num⟩ (Nat.cast_nonneg _) hlimit
    (by norm_num) (by norm_num), (hcomputes ?_).2⟩
  rw [Nat.abs_cast]
  linarith

theorem positionOf_between (hinput : laneRate input = true) (houtput : laneRate output = true)
    (gain : R) {produced : Nat} (hproduced : produced ≤ maxSampleCount + 1) :
    Between ((LaneFilter.of input output gain).positionOf produced) 0 (2 ^ 57 * 32) ∧
      value ((LaneFilter.of input output gain).positionOf produced) = (rounding R).round
        (value (Doubles.ofInt produced : R) *
          value (LaneFilter.of input output gain).inputPerOutput) := by
  obtain ⟨hratio, -⟩ := inputPerOutput_spec hinput houtput gain
  obtain ⟨hindex, -⟩ := ofInt_between (R := R) hproduced
  have hratioLow : 0 ≤ value (LaneFilter.of input output gain).inputPerOutput :=
    le_trans (by norm_num) hratio.le_value
  refine ⟨mul_between hindex ⟨hratio.finite, hratioLow, hratio.value_le⟩ ⟨1, 62, by norm_num⟩
    (by norm_num), (mul hindex.finite hratio.finite ?_).2⟩
  rw [abs_of_nonneg (mul_nonneg hindex.le_value hratioLow)]
  exact (mul_le_mul hindex.value_le hratio.value_le hratioLow (by norm_num)).trans (by norm_num)

theorem positionOf_mono (hinput : laneRate input = true) (houtput : laneRate output = true)
    (gain : R) {produced : Nat} (hproduced : produced ≤ maxSampleCount) :
    value ((LaneFilter.of input output gain).positionOf produced) ≤
      value ((LaneFilter.of input output gain).positionOf (produced + 1)) := by
  obtain ⟨hratio, -⟩ := inputPerOutput_spec hinput houtput gain
  rw [(positionOf_between hinput houtput gain (by omega)).2,
    (positionOf_between hinput houtput gain (by omega)).2]
  refine (rounding R).mono (mul_le_mul_of_nonneg_right ?_
    (le_trans (by norm_num) hratio.le_value))
  rw [(ofInt_between (by omega)).2, (ofInt_between (by omega)).2]
  exact (rounding R).mono (by exact_mod_cast Nat.le_succ produced)

/-- The next output's position is not before its exact place by more than a little. -/
theorem le_positionOf (hinput : laneRate input = true) (houtput : laneRate output = true)
    (gain : R) {produced : Nat} (hproduced : produced ≤ maxSampleCount + 1) :
    produced * (input / output : ℝ) * (1 - 1 / 2 ^ 50) ≤
      value ((LaneFilter.of input output gain).positionOf produced) := by
  obtain ⟨hposition, hrounded⟩ := positionOf_between hinput houtput gain hproduced
  obtain rfl | hpos := Nat.eq_zero_or_pos produced
  · rw [Nat.cast_zero, zero_mul, zero_mul]
    exact hposition.le_value
  obtain ⟨hratio, hnear⟩ := inputPerOutput_spec hinput houtput gain
  obtain ⟨hindex, hindexRounded⟩ := ofInt_between (R := R) hproduced
  have hratioLow := hratio.le_value
  have hlow := hindex.le_value
  have hone : (1 : ℝ) ≤ produced := by exact_mod_cast hpos
  have hindexNear := ((rounding R).relative (q := (produced : ℝ)) (by linarith)).1
  rw [← hindexRounded] at hindexNear
  have hleast : 1 / 2 ^ 64 ≤ value (Doubles.ofInt produced : R) *
      value (LaneFilter.of input output gain).inputPerOutput := by
    have hunit : (1 / 2 : ℝ) ≤ value (Doubles.ofInt produced : R) := by linarith
    have hsmall := mul_le_mul hunit hratioLow (by norm_num) hlow
    linarith
  have hproductNear := ((rounding R).relative hleast).1
  rw [← hrounded] at hproductNear
  -- Three roundings, each at most a `2 ^ 52`th down.
  have hexact : (0 : ℝ) ≤ produced * (input / output : ℝ) := by positivity
  calc produced * (input / output : ℝ) * (1 - 1 / 2 ^ 50)
      ≤ produced * (input / output : ℝ) * ((1 - 1 / 2 ^ 52) * (1 - 1 / 2 ^ 52) *
        (1 - 1 / 2 ^ 52)) := mul_le_mul_of_nonneg_left (by norm_num) hexact
    _ = (produced * (1 - 1 / 2 ^ 52)) * (input / output * (1 - 1 / 2 ^ 52)) *
        (1 - 1 / 2 ^ 52) := by ring
    _ ≤ value (Doubles.ofInt produced : R) *
        value (LaneFilter.of input output gain).inputPerOutput * (1 - 1 / 2 ^ 52) := by
      refine mul_le_mul_of_nonneg_right ?_ (by norm_num)
      refine mul_le_mul hindexNear hnear ?_ hlow
      exact mul_nonneg (by positivity) (by norm_num)
    _ ≤ _ := hproductNear

theorem centerOf_eq (hinput : laneRate input = true) (houtput : laneRate output = true)
    (gain : R) {produced : Nat} (hproduced : produced ≤ maxSampleCount + 1) :
    (LaneFilter.of input output gain).centerOf produced =
      min ⌊value ((LaneFilter.of input output gain).positionOf produced)⌋ maxSampleIndex := by
  obtain ⟨hposition, -⟩ := positionOf_between hinput houtput gain hproduced
  exact floorToIndex_eq hposition.finite hposition.le_value

/-! ## Counts -/

/-- The count misses the exact one by less than two. -/
theorem countOf_spec (hinput : laneRate input = true) (houtput : laneRate output = true)
    (gain : R) {pushed : Nat} (hpushed : pushed ≤ maxInputs) (hpos : 0 < pushed) :
    ∃ quotient : ℝ, pushed / (input / output : ℝ) * (1 - 1 / 2 ^ 51) ≤ quotient ∧
      quotient ≤ 2 ^ 58 ∧
      (LaneFilter.of input output gain).countOf pushed = toUnsignedIndex ⌊quotient + 1 / 2⌋ := by
  obtain ⟨hinFinite, hin⟩ := rate_eq (R := R) hinput
  obtain ⟨houtFinite, hout⟩ := rate_eq (R := R) houtput
  obtain ⟨hinLow, hinHigh⟩ := laneRate_bounds hinput
  obtain ⟨houtLow, houtHigh⟩ := laneRate_bounds houtput
  have hlimit : pushed ≤ 2 ^ 52 := hpushed.trans (by decide)
  have hmany : (pushed : ℝ) ≤ 2 ^ 52 := by exact_mod_cast hlimit
  have hone : (1 : ℝ) ≤ pushed := by exact_mod_cast hpos
  obtain ⟨hcountFinite, hcount⟩ := ofInt_eq (R := R) (i := pushed) (by rw [Nat.abs_cast]; omega)
  rw [Int.cast_natCast] at hcount
  have hproduct := mul hcountFinite houtFinite
  rw [hcount, hout] at hproduct
  have hleast : (8000 : ℝ) ≤ pushed * output := by nlinarith
  have hmost : (pushed : ℝ) * output ≤ 2 ^ 70 :=
    (mul_le_mul hmany houtHigh (by linarith) (by norm_num)).trans (by norm_num)
  have hbetween : Between (Doubles.ofInt pushed * Doubles.ofInt output : R) (2 ^ 12) (2 ^ 70) :=
    between hproduct ⟨1, 12, by norm_num⟩ ⟨1, 70, by norm_num⟩ (by linarith) hmost (by norm_num)
      (by norm_num)
  have hlow := hbetween.le_value
  have hhigh := hbetween.value_le
  have hproductNear := ((rounding R).relative (q := (pushed : ℝ) * output) (by linarith)).1
  rw [← (hproduct (by rw [abs_of_nonneg (by linarith)]; linarith)).2] at hproductNear
  have hquotient := div hbetween.finite hinFinite (by rw [hin]; linarith)
  rw [hin] at hquotient
  have hquotientLow : 1 / 2 ^ 64 ≤ value (Doubles.ofInt pushed * Doubles.ofInt output : R) /
      input := by
    rw [le_div_iff₀ (by linarith)]
    linarith
  have hquotientHigh : value (Doubles.ofInt pushed * Doubles.ofInt output : R) / input ≤
      2 ^ 58 := by
    rw [div_le_iff₀ (by linarith)]
    linarith
  have hresult : Between (Doubles.ofInt pushed * Doubles.ofInt output / Doubles.ofInt input : R)
      0 (2 ^ 58) :=
    between hquotient ⟨0, 0, by norm_num⟩ ⟨1, 58, by norm_num⟩ (by linarith) hquotientHigh
      (by norm_num) (by norm_num)
  have hquotientNear := ((rounding R).relative hquotientLow).1
  rw [← (hquotient (by rw [abs_of_nonneg (by linarith)]; linarith)).2] at hquotientNear
  have hnonneg := hresult.le_value
  have hless := hresult.value_le
  have hrounded := llround hresult.finite hnonneg (by linarith)
  refine ⟨_, ?_, hless, congrArg toUnsignedIndex hrounded⟩
  -- Two roundings, each at most a `2 ^ 52`th down.
  have hexact : (0 : ℝ) ≤ pushed / (input / output) := by positivity
  calc (pushed : ℝ) / (input / output) * (1 - 1 / 2 ^ 51)
      ≤ pushed / (input / output) * ((1 - 1 / 2 ^ 52) * (1 - 1 / 2 ^ 52)) :=
        mul_le_mul_of_nonneg_left (by norm_num) hexact
    _ = pushed * output * (1 - 1 / 2 ^ 52) / input * (1 - 1 / 2 ^ 52) := by
        rw [div_div_eq_mul_div]
        ring
    _ ≤ value (Doubles.ofInt pushed * Doubles.ofInt output : R) / input * (1 - 1 / 2 ^ 52) := by
        refine mul_le_mul_of_nonneg_right ?_ (by norm_num)
        exact div_le_div_of_nonneg_right hproductNear (by linarith)
    _ ≤ _ := hquotientNear

theorem early (hinput : laneRate input = true) (houtput : laneRate output = true) (gain : R)
    {produced pushed : Nat} (hproduced : produced ≤ maxSampleCount) (hpushed : pushed ≤ maxInputs)
    (hlast : (LaneFilter.of input output gain).centerOf produced + lastTap < pushed) :
    produced < (LaneFilter.of input output gain).countOf pushed := by
  have hnear := le_positionOf hinput houtput gain (by omega : produced ≤ _ + 1)
  obtain ⟨hratioLow, hratioHigh⟩ := ratio_bounds hinput houtput
  have hratio : (0 : ℝ) < input / output := by linarith
  have hindex : maxSampleIndex = 2 ^ 56 := rfl
  have hdivide : maxInputs = 2 ^ 56 / 24 := rfl
  have hmany : (pushed : ℝ) * 24 ≤ 2 ^ 56 := by
    exact_mod_cast (by omega : pushed * 24 ≤ 2 ^ 56)
  rw [centerOf_eq hinput houtput gain (by omega), lastTap_eq, hindex] at hlast
  have hless : value ((LaneFilter.of input output gain).positionOf produced) < pushed - 96 := by
    have hfloor : ⌊value ((LaneFilter.of input output gain).positionOf produced)⌋ + 1 ≤
        (pushed : Int) - 96 := by omega
    have hcast : ((⌊value ((LaneFilter.of input output gain).positionOf produced)⌋ + 1 : Int) :
        ℝ) ≤ ((pushed - 96 : Int) : ℝ) := by exact_mod_cast hfloor
    push_cast at hcast
    exact (Int.lt_floor_add_one _).trans_le hcast
  -- The rounding of the position stands for less than three inputs.
  have hexact : produced * (input / output : ℝ) < pushed - 93 := by
    nlinarith
  have hproducedLess : (produced : ℝ) < (pushed - 93) / (input / output) := by
    rwa [lt_div_iff₀ hratio]
  have hinputs : (0 : ℝ) < pushed - 93 :=
    (mul_nonneg (Nat.cast_nonneg _) hratio.le).trans_lt hexact
  obtain ⟨quotient, hquotient, hquotientHigh, hcount⟩ := countOf_spec hinput houtput gain hpushed
    (by exact_mod_cast (by linarith : (0 : ℝ) < pushed))
  -- That of the count stands for less than two, and 91 inputs are three outputs at least.
  have hmore : (produced : ℝ) + 1 ≤ quotient := by
    have hgap : (3 : ℝ) ≤ 91 / (input / output) := by
      rw [le_div_iff₀ hratio]
      linarith
    have hsplit : ((pushed : ℝ) - 2) / (input / output) =
        (pushed - 93) / (input / output) + 91 / (input / output) := by ring
    have hscaled : ((pushed : ℝ) - 2) / (input / output) ≤
        pushed / (input / output) * (1 - 1 / 2 ^ 51) := by
      rw [div_mul_eq_mul_div]
      exact div_le_div_of_nonneg_right (by linarith) hratio.le
    linarith
  have hfew : produced < 2 ^ 56 := by
    have hscaled : (produced : ℝ) * (1 / 24) ≤ produced * (input / output) :=
      mul_le_mul_of_nonneg_left hratioLow (Nat.cast_nonneg _)
    exact_mod_cast (by linarith : (produced : ℝ) < 2 ^ 56)
  have hrounded : (produced : Int) + 1 ≤ ⌊quotient + 1 / 2⌋ := by
    rw [Int.le_floor]
    push_cast
    linarith
  rw [hcount]
  unfold toUnsignedIndex
  rw [hindex]
  omega

/-! ## Weights -/

theorem mul_eq_zero {a b : R} (ha : isFinite a = true) (hb : isFinite b = true)
    (hzero : value b = 0) : isFinite (a * b) = true ∧ value (a * b) = 0 := by
  have hproduct := mul ha hb
  rw [hzero, mul_zero] at hproduct
  exact computes_eq hproduct (rounding R).fits_zero (by norm_num)

theorem pi_between : Between (pi : R) 0 4 :=
  literal_between ⟨0, 0, by norm_num⟩ ⟨4, 0, by norm_num⟩ (by norm_num) (by norm_num) (by norm_num)
    (by norm_num)

theorem sinc_zero (hx : isFinite x = true) (hzero : value x = 0) : sinc x = 1.0 := by
  have htiny : Between (1.0e-12 : R) (1 / 2 ^ 64) 1 :=
    literal_between ⟨1, -64, by norm_num⟩ ⟨1, 0, by norm_num⟩ (by norm_num) (by norm_num)
      (by norm_num) (by norm_num)
  have hpositive := htiny.le_value
  obtain ⟨habs, habsValue⟩ := abs hx
  unfold sinc
  rw [if_pos]
  rw [lt habs htiny.finite, habsValue, hzero, abs_zero]
  linarith

theorem isFinite_twoCutoff (hinput : laneRate input = true) (houtput : laneRate output = true)
    (gain : R) : isFinite (LaneFilter.of input output gain).twoCutoff = true := by
  obtain ⟨hratio, -⟩ := inputPerOutput_spec (R := R) houtput hinput gain
  have hleast : Between (if Doubles.lt (Doubles.ofInt output / Doubles.ofInt input : R) 1.0 then
      Doubles.ofInt output / Doubles.ofInt input else 1.0 : R) 0 32 := by
    split
    · exact ⟨hratio.finite, le_trans (by norm_num) hratio.le_value, hratio.value_le⟩
    · exact literal_between ⟨0, 0, by norm_num⟩ ⟨32, 0, by norm_num⟩ (by norm_num) (by norm_num)
        (by norm_num) (by norm_num)
  have hcutoff : Between (0.45 : R) 0 1 :=
    literal_between ⟨0, 0, by norm_num⟩ ⟨1, 0, by norm_num⟩ (by norm_num) (by norm_num)
      (by norm_num) (by norm_num)
  have htwo : Between (2.0 : R) 0 2 :=
    literal_between ⟨0, 0, by norm_num⟩ ⟨2, 0, by norm_num⟩ (by norm_num) (by norm_num)
      (by norm_num) (by norm_num)
  have hscaled := mul_between hcutoff hleast ⟨32, 0, by norm_num⟩ (by norm_num)
  exact (mul_between htwo hscaled ⟨64, 0, by norm_num⟩ (by norm_num)).finite

/-- At its own center an input has a weight that does not tell one zero from the other. -/
theorem weight_center (hinput : laneRate input = true) (houtput : laneRate output = true)
    (gain : R) {frac : R} {index : Fin laneFilterTaps} (hfinite : isFinite frac = true)
    (hzero : value frac = 0) (htap : (index : Int) + firstTap = 0) :
    (LaneFilter.of input output gain).weight frac index =
      (LaneFilter.of input output gain).twoCutoff * 1.0 *
        (0.42 + 0.5 * (1.0 : R) + 0.08 * 1.0) := by
  obtain ⟨htapFinite, htapZero⟩ := ofInt_eq (R := R) (i := 0) (by norm_num)
  have hdistance := sub hfinite htapFinite
  rw [hzero, htapZero, Int.cast_zero, sub_zero] at hdistance
  obtain ⟨hdistanceFinite, hdistanceZero⟩ :=
    computes_eq hdistance (rounding R).fits_zero (by norm_num)
  obtain ⟨hradiusFinite, hradius⟩ := ofInt_eq (R := R) (i := laneFilterRadius) (by norm_num)
  have hnormalized := div hdistanceFinite hradiusFinite (by rw [hradius]; norm_num)
  rw [hdistanceZero, zero_div] at hnormalized
  obtain ⟨hnormalizedFinite, hnormalizedZero⟩ :=
    computes_eq hnormalized (rounding R).fits_zero (by norm_num)
  obtain ⟨habs, habsValue⟩ := abs hnormalizedFinite
  have hone : Between (1.0 : R) 1 1 :=
    literal_between ⟨1, 0, by norm_num⟩ ⟨1, 0, by norm_num⟩ (by norm_num) (by norm_num)
      (by norm_num) (by norm_num)
  have hwithin : Doubles.lt (Doubles.abs ((frac - Doubles.ofInt 0) /
      Doubles.ofInt laneFilterRadius)) (1.0 : R) = true := by
    rw [lt habs hone.finite, habsValue, hnormalizedZero, hone.value_eq, abs_zero]
    exact one_pos
  obtain ⟨hangle, hangleZero⟩ := mul_eq_zero pi_between.finite hnormalizedFinite hnormalizedZero
  have htwo : Between (2.0 : R) 0 2 :=
    literal_between ⟨0, 0, by norm_num⟩ ⟨2, 0, by norm_num⟩ (by norm_num) (by norm_num)
      (by norm_num) (by norm_num)
  have htwoPi := mul_between htwo pi_between ⟨8, 0, by norm_num⟩ (by norm_num)
  obtain ⟨hangle', hangleZero'⟩ := mul_eq_zero htwoPi.finite hnormalizedFinite hnormalizedZero
  obtain ⟨hphase, hphaseZero⟩ := mul_eq_zero (isFinite_twoCutoff hinput houtput gain)
    hdistanceFinite hdistanceZero
  unfold LaneFilter.weight
  dsimp only
  rw [htap, if_pos hwithin, cos_zero hangle hangleZero, cos_zero hangle' hangleZero',
    sinc_zero hphase hphaseZero]

theorem keys (hinput : laneRate input = true) (houtput : laneRate output = true) (gain : R)
    {frac frac' : R} (hkey : (frac == frac') = true) (index : Fin laneFilterTaps) :
    (LaneFilter.of input output gain).weight frac index =
      (LaneFilter.of input output gain).weight frac' index := by
  obtain rfl | ⟨hfinite, hfinite', hzero, hzero'⟩ := eq_of_beq hkey
  · rfl
  by_cases htap : (index : Int) + firstTap = 0
  · rw [weight_center hinput houtput gain hfinite hzero htap,
      weight_center hinput houtput gain hfinite' hzero' htap]
  · -- Behind any other tap the distances are the same number, and not 0.
    have htapSmall : |(index : Int) + firstTap| ≤ 96 := by
      have hindex : (index : Nat) < 192 := index.isLt
      rw [firstTap_eq, abs_le]
      omega
    have hdistance {zero : R} (hfinite : isFinite zero = true) (hzero : value zero = 0) :
        isFinite (zero - Doubles.ofInt (index + firstTap)) = true ∧
          value (zero - Doubles.ofInt (index + firstTap)) = ((-(index + firstTap) : Int) : ℝ) := by
      obtain ⟨htapFinite, htapValue⟩ := ofInt_eq (R := R) (htapSmall.trans (by norm_num))
      have hdistance := sub hfinite htapFinite
      rw [hzero, htapValue, zero_sub, ← Int.cast_neg] at hdistance
      rw [← abs_neg] at htapSmall
      refine computes_eq hdistance ((rounding R).fits_intCast (htapSmall.trans (by norm_num))) ?_
      have hcast : |((-(index + firstTap) : Int) : ℝ)| ≤ 96 := by exact_mod_cast htapSmall
      linarith
    obtain ⟨hleft, hleftValue⟩ := hdistance hfinite hzero
    obtain ⟨hright, hrightValue⟩ := hdistance hfinite' hzero'
    have hsame := eq_of_value hleft hright (hleftValue.trans hrightValue.symm) (by
      rw [hleftValue]
      exact_mod_cast neg_ne_zero.mpr htap)
    unfold LaneFilter.weight
    dsimp only
    rw [hsame]

/-- The resampler has what it relies on, at every rate of the lane. -/
theorem regular (hinput : laneRate input = true) (houtput : laneRate output = true) (gain : R) :
    (LaneFilter.of input output gain).Regular where
  start := by
    obtain ⟨hratio, -⟩ := inputPerOutput_spec hinput houtput gain
    obtain ⟨hindex, hzero⟩ := ofInt_eq (R := R) (i := 0) (by norm_num)
    have hproduct := mul hindex hratio.finite
    rw [hzero, Int.cast_zero, zero_mul] at hproduct
    obtain ⟨-, hposition⟩ := computes_eq hproduct (rounding R).fits_zero (by norm_num)
    rw [centerOf_eq hinput houtput gain (Nat.zero_le _)]
    show min ⌊value (Doubles.ofInt 0 * (LaneFilter.of input output gain).inputPerOutput)⌋ _ = 0
    rw [hposition, Int.floor_zero]
    rfl
  centers produced hproduced := by
    rw [centerOf_eq hinput houtput gain (by omega), centerOf_eq hinput houtput gain (by omega)]
    exact min_le_min_right _ (Int.floor_le_floor (positionOf_mono hinput houtput gain hproduced))
  early _ hproduced _ hpushed hlast := early hinput houtput gain hproduced hpushed hlast
  keys _ _ hkey index := keys hinput houtput gain hkey index

theorem regular_of_configure {r : LaneResampler R} {gain : R}
    (hok : (r.configure input output gain).1.isOk = true) :
    (LaneFilter.of input output gain).Regular := by
  unfold LaneResampler.configure at hok
  split at hok
  case isTrue => cases hok
  case isFalse hvalid =>
    rw [Bool.not_eq_true, Bool.or_eq_false_iff, Bool.or_eq_false_iff, Bool.not_eq_false',
      Bool.not_eq_false'] at hvalid
    exact regular hvalid.1.1 hvalid.1.2 gain

theorem isFinite_pcm16ToUnit (sample : Int16) : isFinite (pcm16ToUnit sample : R) = true := by
  have hlow := Int16.le_toInt sample
  have hhigh := Int16.toInt_lt sample
  obtain ⟨hsample, hvalue⟩ := ofInt_eq (R := R) (i := sample.toInt) (by rw [abs_le]; omega)
  have hscale : Between (32768.0 : R) 32768 32768 :=
    literal_between ⟨32768, 0, by norm_num⟩ ⟨32768, 0, by norm_num⟩ (by norm_num) (by norm_num)
      (by norm_num) (by norm_num)
  refine (div hsample hscale.finite ?_ ?_).1
  · rw [hscale.value_eq]
    norm_num
  · have hcast : |(sample.toInt : ℝ)| ≤ 32768 := by
      exact_mod_cast abs_le.mpr ⟨hlow, hhigh.le⟩
    rw [hvalue, hscale.value_eq, abs_div, div_le_iff₀ (by norm_num)]
    norm_num
    linarith

end LawfulDoubles

end WaveformGenerator.ChannelSim
