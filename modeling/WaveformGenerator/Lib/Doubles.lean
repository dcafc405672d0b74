import WaveformGenerator.Lib.Binary64

/-!
# Doubles compute the rounded results

What `Float` computes, by the numbers that its finite values are: a sum, a difference or a product
is the exact one rounded half to even, and infinite when that is `2 ^ 1024` or more.
-/

namespace WaveformGenerator

open Float.Model Float.Model.UnpackedFloat

/-! ## Unpacked doubles -/

/-- The number that a finite double is. -/
def numberOf : UnpackedFloat → Option ℚ
  | .zero _ => some 0
  | .finite sign mantissa exponent _ => some (sign.apply mantissa * 2 ^ exponent)
  | _ => none

/-- Its mantissa has 53 bits, or its exponent is the last there is. -/
def CanonicalFloat : UnpackedFloat → Prop
  | .finite _ mantissa exponent _ =>
    mantissa < 2 ^ 53 ∧ -1074 ≤ exponent ∧ (2 ^ 52 ≤ mantissa ∨ exponent = -1074)
  | _ => True

/-- Its exponent is one that a double has. -/
def InRange : UnpackedFloat → Prop
  | .finite _ _ exponent _ => exponent ≤ 971
  | _ => True

theorem targetExponent_eq (t : Int) :
    Format.binary64.targetExponent t = max (t - 53) (-1074) := rfl

theorem log_mul {m : Nat} (hm : 0 < m) (e : Int) : Int.log 2 ((m : ℚ) * 2 ^ e) = m.log2 + e := by
  have hunit : (0 : ℚ) < 2 ^ e := zpow_pos two_pos e
  have hpos : (0 : ℚ) < m * 2 ^ e := mul_pos (by exact_mod_cast hm) hunit
  refine le_antisymm (Int.lt_add_one_iff.mp ?_) ?_
  · refine (Int.lt_zpow_iff_log_lt (by norm_num) hpos).mp ?_
    have hless : (m : ℚ) < 2 ^ (m.log2 + 1) := by exact_mod_cast Nat.lt_log2_self
    rw [Nat.cast_ofNat, add_right_comm, zpow_add₀ two_ne_zero]
    exact mul_lt_mul_of_pos_right (by exact_mod_cast hless) hunit
  · refine (Int.zpow_le_iff_le_log (by norm_num) hpos).mp ?_
    have hle : (2 : ℚ) ^ m.log2 ≤ m := by exact_mod_cast Nat.log2_self_le hm.ne'
    rw [Nat.cast_ofNat, zpow_add₀ two_ne_zero]
    exact mul_le_mul_of_nonneg_right (by exact_mod_cast hle) hunit.le

theorem lastBit_mul {m : Nat} (hm : 0 < m) (e : Int) :
    Binary64.lastBit ((m : ℚ) * 2 ^ e) =
      Format.binary64.targetExponent (totalExponent m e) := by
  have hpos : (0 : ℚ) < m * 2 ^ e := mul_pos (by exact_mod_cast hm) (zpow_pos two_pos e)
  unfold Binary64.lastBit
  rw [abs_of_pos hpos, log_mul hm, targetExponent_eq, totalExponent]
  congr 1
  ring

/-! ## Shifting -/

/-- The bits of `em` tell how far it is from `m` shifted by `k`. -/
structure Shifted (m k : Nat) (em : ExtendedMantissa) : Prop where
  mantissa : em.mantissa = m / 2 ^ k
  roundBit : em.roundBit = decide (2 ^ k ≤ 2 * (m % 2 ^ k))
  stickyBit : em.stickyBit = decide (2 * (m % 2 ^ k) % 2 ^ k ≠ 0)

theorem Shifted.shiftRightOne {m k : Nat} {em : ExtendedMantissa} (h : Shifted m k em) :
    Shifted m (k + 1) em.shiftRightOne := by
  have hpos : 0 < 2 ^ k := Nat.two_pow_pos k
  have hless := Nat.mod_lt m hpos
  have hsplit : m % 2 ^ (k + 1) = m % 2 ^ k + 2 ^ k * (m / 2 ^ k % 2) := by
    rw [Nat.pow_succ, Nat.mod_mul]
  have hbit := Nat.mod_two_eq_zero_or_one (m / 2 ^ k)
  refine ⟨?_, ?_, ?_⟩
  · show em.mantissa / 2 = _
    rw [h.mantissa, Nat.div_div_eq_div_mul, Nat.pow_succ]
  · show (em.mantissa % 2 != 0) = _
    rw [h.mantissa, hsplit, Nat.pow_succ, Bool.eq_iff_iff, bne_iff_ne, decide_eq_true_iff]
    rcases hbit with hbit | hbit <;> rw [hbit] <;> omega
  · show (em.roundBit || em.stickyBit) = _
    have hrest : 2 * (m % 2 ^ (k + 1)) % 2 ^ (k + 1) = 2 * (m % 2 ^ k) := by
      rw [hsplit, Nat.pow_succ]
      rcases hbit with hbit | hbit <;> rw [hbit]
      · rw [Nat.mul_zero, Nat.add_zero, Nat.mod_eq_of_lt (by omega)]
      · rw [Nat.mul_one, show 2 * (m % 2 ^ k + 2 ^ k) = 2 * (m % 2 ^ k) + 2 ^ k * 2 by ring,
          Nat.add_mod_right, Nat.mod_eq_of_lt (by omega)]
    rw [h.roundBit, h.stickyBit, hrest, ← Bool.decide_or, decide_eq_decide]
    constructor
    · rintro (hround | hsticky) hzero
      · omega
      · rw [hzero, Nat.zero_mod] at hsticky
        exact hsticky rfl
    · intro hrest
      refine or_iff_not_imp_left.mpr fun hround => ?_
      rwa [Nat.mod_eq_of_lt (by omega)]

theorem shifted (m k : Nat) : Shifted m k (ExtendedMantissa.mk m false false >>> k) := by
  induction k with
  | zero => exact ⟨(Nat.div_one m).symm, by rw [Nat.pow_zero, Nat.mod_one]; rfl,
      by rw [Nat.pow_zero, Nat.mod_one]; rfl⟩
  | succ k ih => exact ih.shiftRightOne

/-- The shifted mantissa is rounded half to even. -/
theorem Shifted.halfEven {m k : Nat} {em : ExtendedMantissa} (h : Shifted m k em) :
    HalfEven ((m : ℚ) / 2 ^ k) em.roundedMantissa := by
  have hdivide := HalfEven.ediv (α := ℚ) m (d := 2 ^ k) (by positivity)
  push_cast at hdivide
  have hmantissa : (em.roundedMantissa : ℤ) = m / 2 ^ k + if (2 : ℤ) ^ k < 2 * (m % 2 ^ k) ∨
      (2 * ((m : ℤ) % 2 ^ k) = 2 ^ k ∧ ¬Even ((m : ℤ) / 2 ^ k)) then 1 else 0 := by
    have hquotient : ((m / 2 ^ k : Nat) : ℤ) = m / 2 ^ k := by push_cast; rfl
    have hrest : ((m % 2 ^ k : Nat) : ℤ) = m % 2 ^ k := by push_cast; rfl
    have hpower : ((2 ^ k : Nat) : ℤ) = 2 ^ k := by push_cast; rfl
    have hless := Nat.mod_lt m (Nat.two_pow_pos k)
    rw [← hquotient, ← hrest, ← hpower]
    simp only [Int.even_coe_nat, Nat.even_iff]
    obtain ⟨mantissa, roundBit, stickyBit⟩ := em
    obtain ⟨hm, hround, hsticky⟩ := h
    dsimp only at hm hround hsticky
    generalize m % 2 ^ k = rest at hround hsticky hless ⊢
    generalize 2 ^ k = unit at hround hsticky hless hm ⊢
    rw [← hm]
    cases roundBit with
    | false =>
      have hbelow := of_decide_eq_false hround.symm
      rw [if_neg (by omega)]
      cases stickyBit <;> exact (Int.add_zero _).symm
    | true =>
      have habove := of_decide_eq_true hround.symm
      cases stickyBit with
      | false =>
        have hexact := of_decide_eq_false hsticky.symm
        rw [ne_eq, not_not, Nat.mod_eq_sub_mod habove, Nat.mod_eq_of_lt (by omega)] at hexact
        show ((mantissa + mantissa % 2 : Nat) : ℤ) = _
        split <;> omega
      | true =>
        have hmore := of_decide_eq_true hsticky.symm
        have hpast : unit ≠ 2 * rest := fun heq => hmore (by rw [← heq, Nat.mod_self])
        rw [if_pos (.inl (by omega))]
        rfl
  rw [hmantissa]
  exact hdivide

/-! ## Rounding -/

/-- `f` is `q` rounded, however large its exponent. -/
structure Rounds (q : ℚ) (f : UnpackedFloat) : Prop where
  number : numberOf f = some (binary64.round q)
  canonical : CanonicalFloat f

theorem shiftToTargetExponent_eq (m : Nat) (e : Int) :
    shiftToTargetExponent Format.binary64 m e .exact =
      (ExtendedMantissa.mk m false false >>>
          (Format.binary64.targetExponent (totalExponent m e) - e).toNat,
        e + (Format.binary64.targetExponent (totalExponent m e) - e).toNat) := rfl

/-- A mantissa of 53 bits is not shifted. -/
theorem shiftToTargetExponent_small {r : Nat} {t : Int} (hr : r < 2 ^ 53) (ht : -1074 ≤ t) :
    shiftToTargetExponent Format.binary64 r t .exact = (⟨r, false, false⟩, t) := by
  have hlog : r.log2 < 53 := by
    obtain rfl | hpos := eq_or_ne r 0
    · decide
    · exact (Nat.log2_lt hpos).mpr hr
  have hstay : (Format.binary64.targetExponent (totalExponent r t) - t).toNat = 0 := by
    rw [targetExponent_eq, totalExponent]
    omega
  rw [shiftToTargetExponent_eq, hstay, Int.natCast_zero, Int.add_zero]
  rfl

/-- One that rounding has made too large is shifted by one bit. -/
theorem shiftToTargetExponent_carry {t : Int} (ht : -1074 ≤ t) :
    shiftToTargetExponent Format.binary64 (2 ^ 53) t .exact =
      (⟨2 ^ 52, false, false⟩, t + 1) := by
  have hone : (Format.binary64.targetExponent (totalExponent (2 ^ 53) t) - t).toNat = 1 := by
    rw [targetExponent_eq, totalExponent, Nat.log2_two_pow]
    omega
  rw [shiftToTargetExponent_eq, hone]
  rfl

theorem roundWithAccuracy_eq (sign : Sign) (m : Nat) (e : Int) {em : ExtendedMantissa} {t : Int}
    (h : shiftToTargetExponent Format.binary64 m e .exact = (em, t)) :
    roundWithAccuracy Format.binary64 sign m e .exact =
      if h : (shiftToTargetExponent Format.binary64 em.roundedMantissa t .exact).1.mantissa = 0 then
        .zero sign
      else
        .finite sign (shiftToTargetExponent Format.binary64 em.roundedMantissa t .exact).1.mantissa
          (shiftToTargetExponent Format.binary64 em.roundedMantissa t .exact).2
          (Nat.pos_of_ne_zero h) := by
  unfold roundWithAccuracy
  rw [h]

/-- The rounded mantissa with the exponent that it was shifted to. -/
theorem roundWithAccuracy_spec (sign : Sign) (m : Nat) (e : Int) {em : ExtendedMantissa} {t : Int}
    (h : shiftToTargetExponent Format.binary64 m e .exact = (em, t))
    (hr : em.roundedMantissa ≤ 2 ^ 53) (ht : -1074 ≤ t)
    (hbits : 2 ^ 52 ≤ em.roundedMantissa ∨ t = -1074) :
    numberOf (roundWithAccuracy Format.binary64 sign m e .exact) =
        some ((sign.apply em.roundedMantissa : ℚ) * 2 ^ t) ∧
      CanonicalFloat (roundWithAccuracy Format.binary64 sign m e .exact) := by
  rw [roundWithAccuracy_eq sign m e h]
  generalize em.roundedMantissa = r at hr hbits ⊢
  obtain hr | rfl := hr.lt_or_eq
  · rw [shiftToTargetExponent_small hr ht]
    by_cases hzero : r = 0
    · rw [dif_pos hzero, hzero]
      have hnumber : (0 : ℚ) = (sign.apply 0 : ℚ) * 2 ^ t := by
        cases sign <;> simp only [Sign.apply] <;> push_cast <;> ring
      exact ⟨congrArg some hnumber, trivial⟩
    · rw [dif_neg hzero]
      exact ⟨rfl, hr, ht, hbits⟩
  · rw [shiftToTargetExponent_carry ht]
    refine ⟨congrArg some ?_, Nat.pow_lt_pow_right (by decide) (by decide), Int.le_add_one ht,
      .inl (Nat.le_refl _)⟩
    dsimp only
    rw [zpow_add_one₀ two_ne_zero]
    cases sign <;> simp only [Sign.apply] <;> push_cast <;> ring

theorem apply_mul (sign : Sign) (m : Nat) (q : ℚ) :
    (sign.apply m : ℚ) * q = match sign with
      | .negative => -(m * q)
      | .positive => m * q := by
  cases sign with
  | negative => simp only [Sign.apply, Int.cast_neg, Int.cast_natCast, neg_mul]
  | positive => simp only [Sign.apply, Int.cast_natCast]

/-- Shifted to the exponent that its bits are worth, a number is rounded. -/
theorem rounds_roundWithAccuracy (sign : Sign) {m : Nat} (hm : 0 < m) {e : Int}
    (h : e ≤ Format.binary64.targetExponent (totalExponent m e)) :
    Rounds (sign.apply m * 2 ^ e) (roundWithAccuracy Format.binary64 sign m e .exact) := by
  have hlast := lastBit_mul hm e
  have hshift := shiftToTargetExponent_eq m e
  have hlow : -1074 ≤ Format.binary64.targetExponent (totalExponent m e) := le_max_right ..
  generalize Format.binary64.targetExponent (totalExponent m e) = t at h hlast hshift hlow
  rw [Int.toNat_of_nonneg (by omega), add_sub_cancel] at hshift
  have hhalf := (shifted m (t - e).toNat).halfEven
  generalize ExtendedMantissa.mk m false false >>> (t - e).toNat = em at hshift hhalf
  have hscaled : (m : ℚ) * 2 ^ e / 2 ^ t = m / 2 ^ (t - e).toNat := by
    have hsplit : (2 : ℚ) ^ t = 2 ^ (t - e).toNat * 2 ^ e := by
      rw [← zpow_natCast, ← zpow_add₀ two_ne_zero]
      congr 1
      omega
    rw [hsplit, mul_div_mul_right _ _ (zpow_pos two_pos e).ne']
  rw [← hscaled] at hhalf
  have hround : binary64.round (m * 2 ^ e) = em.roundedMantissa * 2 ^ t := by
    have heq := (halfEven_spec (m * 2 ^ e / 2 ^ t)).unique hhalf
    show Binary64.nearestEven _ = _
    unfold Binary64.nearestEven
    rw [hlast, heq, Int.cast_natCast]
  have hle : em.roundedMantissa ≤ 2 ^ 53 := by
    have hless := Binary64.abs_div_lt ((m : ℚ) * 2 ^ e)
    rw [hlast] at hless
    have hbound := hhalf.abs_le_of_le (k := 2 ^ 53) (by exact_mod_cast hless.le)
    rw [Nat.abs_cast] at hbound
    exact_mod_cast hbound
  have hbits : 2 ^ 52 ≤ em.roundedMantissa ∨ t = -1074 := by
    have hpos : (0 : ℚ) < m * 2 ^ e := mul_pos (by exact_mod_cast hm) (zpow_pos two_pos e)
    refine ((Binary64.le_abs hpos.ne').imp ?_ (hlast.symm.trans ·))
    intro hle
    rw [hlast, abs_of_pos hpos, zpow_add₀ two_ne_zero,
      ← le_div_iff₀ (zpow_pos two_pos t : (0 : ℚ) < 2 ^ t)] at hle
    have hmono := (HalfEven.intCast (α := ℚ) (2 ^ 52)).mono hhalf (by exact_mod_cast hle)
    exact_mod_cast hmono
  obtain ⟨hnumber, hcanonical⟩ := roundWithAccuracy_spec sign m e hshift hle hlow hbits
  refine ⟨hnumber.trans (congrArg some ?_), hcanonical⟩
  rw [apply_mul, apply_mul]
  cases sign with
  | negative => exact (congrArg Neg.neg hround).symm.trans (Binary64.nearestEven_neg _).symm
  | positive => exact hround.symm

/-- The same after the exponent is made small enough. -/
theorem rounds_round (sign : Sign) {m : Nat} (hm : 0 < m) (e : Int) :
    Rounds (sign.apply m * 2 ^ e) (UnpackedFloat.round Format.binary64 sign m e) := by
  unfold UnpackedFloat.round decreaseExponent
  dsimp only
  obtain ⟨k, hk⟩ : ∃ k : Nat,
      (e - Format.binary64.targetExponent (totalExponent m e)).toNat = k := ⟨_, rfl⟩
  have hshift : m <<< k = m * 2 ^ k := Nat.shiftLeft_eq m k
  have hlog : (m * 2 ^ k).log2 = m.log2 + k := by
    refine (Nat.log2_eq_iff (Nat.mul_pos hm (Nat.two_pow_pos k)).ne').mpr ⟨?_, ?_⟩
    · rw [Nat.pow_add]
      exact Nat.mul_le_mul_right _ (Nat.log2_self_le hm.ne')
    · rw [Nat.add_right_comm, Nat.pow_add]
      exact Nat.mul_lt_mul_of_pos_right Nat.lt_log2_self (Nat.two_pow_pos k)
  have htotal : totalExponent (m * 2 ^ k) (e - k) = totalExponent m e := by
    unfold totalExponent
    rw [hlog]
    omega
  have hvalue : (sign.apply m : ℚ) * 2 ^ e =
      sign.apply (m * 2 ^ k : Nat) * 2 ^ (e - k) := by
    have hsplit : (2 : ℚ) ^ e = 2 ^ k * 2 ^ (e - k) := by
      rw [← zpow_natCast, ← zpow_add₀ two_ne_zero, add_sub_cancel]
    rw [apply_mul, apply_mul, hsplit]
    push_cast
    rw [mul_assoc]
  rw [hk, hshift, hvalue]
  refine rounds_roundWithAccuracy sign (Nat.mul_pos hm (Nat.two_pow_pos k)) ?_
  rw [htotal]
  omega

theorem rounds_zero (sign : Sign) : Rounds 0 (.zero sign) :=
  ⟨congrArg some (binary64.round_eq binary64.fits_zero).symm, trivial⟩

theorem rounds_normalize (m : Int) (e : Int) (sign : Sign) :
    Rounds (m * 2 ^ e) (UnpackedFloat.normalize Format.binary64 m e sign) := by
  unfold UnpackedFloat.normalize
  rcases lt_trichotomy m 0 with hm | rfl | hm
  · rw [Int.compare_eq_lt.mpr hm]
    have h := rounds_round .negative (Int.pos_iff_toNat_pos.mp (neg_pos.mpr hm)) e
    simp only [Sign.apply] at h
    rwa [Int.toNat_of_nonneg (by omega), neg_neg] at h
  · rw [Int.cast_zero, zero_mul]
    exact rounds_zero sign
  · rw [Int.compare_eq_gt.mpr hm]
    have h := rounds_round .positive (Int.pos_iff_toNat_pos.mp hm) e
    simp only [Sign.apply] at h
    rwa [Int.toNat_of_nonneg (by omega)] at h

/-! ## Packing -/

theorem unpackSign_packComponents {spec : Format} (sign : Sign)
    (exponent : BitVec spec.exponentBits) (mantissa : BitVec spec.mantissaBitsWithoutImplicit) :
    Sign.ofBitVec (unpackSign (packComponents spec sign exponent mantissa)) = sign := by
  have hsign : unpackSign (packComponents spec sign exponent mantissa) = sign.toBitVec := by
    ext i hi
    have hzero : i = 0 := by omega
    subst hzero
    delta unpackSign packComponents
    simp [BitVec.getLsbD_append, BitVec.getElem_append]
  rw [hsign]
  cases sign <;> rfl

theorem finite_congr {sign : Sign} {m m' : Nat} {e e' : Int} (hm : 0 < m) (hm' : 0 < m')
    (hmantissa : m = m') (hexponent : e = e') :
    UnpackedFloat.finite sign m e hm = .finite sign m' e' hm' := by
  subst hmantissa hexponent
  rfl

theorem toNat_append (mantissa : BitVec 52) :
    (1#1 ++ mantissa).toNat = 2 ^ 52 + mantissa.toNat := by
  rw [BitVec.toNat_append]
  exact (Nat.shiftLeft_add_eq_or_of_lt mantissa.isLt 1).symm

theorem unpack_normal (sign : Sign) {exponent : BitVec 11} (mantissa : BitVec 52)
    (hlast : exponent ≠ -1#11) (hfirst : exponent ≠ 0#11) {m : Nat} {e : Int} (hm : 0 < m)
    (hmantissa : 2 ^ 52 + mantissa.toNat = m) (hexponent : (exponent.toNat : Int) - 1075 = e) :
    UnpackedFloat.unpack Format.binary64 (packComponents Format.binary64 sign exponent mantissa) =
      .finite sign m e hm := by
  unfold UnpackedFloat.unpack
  dsimp only
  rw [unpackExponent_packComponents, if_neg hlast, if_neg hfirst, unpackSign_packComponents]
  refine finite_congr _ _ ?_ hexponent
  rw [unpackMantissa_packComponents, toNat_append, hmantissa]

theorem unpack_subnormal (sign : Sign) {mantissa : BitVec 52} (hnonzero : mantissa ≠ 0#52) {m : Nat}
    (hm : 0 < m) (hmantissa : mantissa.toNat = m) :
    UnpackedFloat.unpack Format.binary64 (packComponents Format.binary64 sign 0#11 mantissa) =
      .finite sign m (-1074) hm := by
  unfold UnpackedFloat.unpack
  dsimp only
  rw [unpackExponent_packComponents, if_neg (by decide), if_pos rfl,
    dif_neg (by rwa [unpackMantissa_packComponents]), unpackSign_packComponents]
  refine finite_congr _ _ ?_ rfl
  rw [unpackMantissa_packComponents, hmantissa]

theorem unpack_pack_zero (sign : Sign) : (Float.Model.pack (.zero sign)).unpack = .zero sign := by
  cases sign <;> rfl

theorem unpack_pack_infinity (sign : Sign) :
    (Float.Model.pack (.infinity sign)).unpack = .infinity sign := by
  cases sign <;> rfl

theorem unpack_pack_notANumber : (Float.Model.pack .notANumber).unpack = .notANumber := rfl

theorem pack_finite (sign : Sign) (m : Nat) (e : Int) (hm : 0 < m) :
    UnpackedFloat.pack Format.binary64 (.finite sign m e hm) =
      if 2 ^ 11 ≤ (e + 1075).toNat + 1 then packedInfinity Format.binary64 sign
      else if m.log2 + 1 = 53 then
        packComponents Format.binary64 sign (BitVec.ofNat 11 (e + 1075).toNat) (BitVec.ofNat 52 m)
      else packComponents Format.binary64 sign 0#11 (BitVec.ofNat 52 m) := by
  have hbiased : e + (Format.binary64.exponentBias : Nat) + (52 : Nat) = e + 1075 := by
    show e + (1023 : Nat) + (52 : Nat) = e + 1075
    omega
  show (if 2 ^ 11 ≤ (e + (Format.binary64.exponentBias : Nat) + (52 : Nat)).toNat + 1 then
      packedInfinity Format.binary64 sign
    else if m.log2 + 1 = 53 then
      packComponents Format.binary64 sign
        (BitVec.ofNat 11 (e + (Format.binary64.exponentBias : Nat) + (52 : Nat)).toNat)
        (BitVec.ofNat 52 m)
    else packComponents Format.binary64 sign 0#11 (BitVec.ofNat 52 m)) = _
  rw [hbiased]

theorem unpack_pack_finite {sign : Sign} {m : Nat} {e : Int} {hm : 0 < m}
    (h : CanonicalFloat (.finite sign m e hm)) (hrange : e ≤ 971) :
    (Float.Model.pack (.finite sign m e hm)).unpack = .finite sign m e hm := by
  obtain ⟨hless, hlow, hbits⟩ := h
  show UnpackedFloat.unpack Format.binary64 (UnpackedFloat.pack Format.binary64 _) = _
  rw [pack_finite, if_neg (by omega)]
  by_cases hnormal : 2 ^ 52 ≤ m
  · have hlog : m.log2 = 52 := (Nat.log2_eq_iff hm.ne').mpr ⟨hnormal, hless⟩
    have hmantissa : (BitVec.ofNat 52 m).toNat = m - 2 ^ 52 := by
      rw [BitVec.toNat_ofNat]
      omega
    have hexponent : (BitVec.ofNat 11 (e + 1075).toNat).toNat = (e + 1075).toNat := by
      rw [BitVec.toNat_ofNat, Nat.mod_eq_of_lt (by omega)]
    rw [if_pos (show m.log2 + 1 = 53 by omega)]
    refine unpack_normal sign _ (fun heq => ?_) (fun heq => ?_) hm ?_ ?_
    · have hall := congrArg BitVec.toNat heq
      rw [hexponent] at hall
      change (e + 1075).toNat = 2047 at hall
      omega
    · have hzero := congrArg BitVec.toNat heq
      rw [hexponent] at hzero
      change (e + 1075).toNat = 0 at hzero
      omega
    · omega
    · omega
  · have hlog : m.log2 < 52 := (Nat.log2_lt hm.ne').mpr (Nat.not_le.mp hnormal)
    have hexponent : e = -1074 := hbits.resolve_left hnormal
    subst hexponent
    have hmantissa : (BitVec.ofNat 52 m).toNat = m := by
      rw [BitVec.toNat_ofNat, Nat.mod_eq_of_lt (Nat.not_le.mp hnormal)]
    rw [if_neg (show ¬ m.log2 + 1 = 53 by omega)]
    refine unpack_subnormal sign (fun heq => ?_) hm hmantissa
    have hzero := congrArg BitVec.toNat heq
    rw [hmantissa] at hzero
    exact hm.ne' hzero

theorem unpack_pack_large (sign : Sign) {m : Nat} {e : Int} (hm : 0 < m) (hlarge : 972 ≤ e) :
    (Float.Model.pack (.finite sign m e hm)).unpack = .infinity sign := by
  have hbiased : e + (Format.binary64.exponentBias : Nat) + (52 : Nat) = e + 1075 := by
    show e + (1023 : Nat) + (52 : Nat) = e + 1075
    omega
  rw [← unpack_pack_infinity]
  show UnpackedFloat.unpack Format.binary64 (UnpackedFloat.pack Format.binary64 _) =
    UnpackedFloat.unpack Format.binary64 (UnpackedFloat.pack Format.binary64 _)
  congr 1
  unfold UnpackedFloat.pack
  dsimp only
  rw [hbiased, if_pos (by omega)]

theorem canonical_normal (sign : Sign) {exponent : BitVec 11} (mantissa : BitVec 52)
    (hlast : exponent ≠ -1#11) (hfirst : exponent ≠ 0#11) (hm : 0 < (1#1 ++ mantissa).toNat) :
    CanonicalFloat (.finite sign (1#1 ++ mantissa).toNat
        (exponent.toNat - ((1023 : Nat) + (52 : Nat))) hm) ∧
      InRange (.finite sign (1#1 ++ mantissa).toNat (exponent.toNat - ((1023 : Nat) + (52 : Nat)))
        hm) := by
  have hnotFirst : exponent.toNat ≠ 0 := fun heq => hfirst (BitVec.eq_of_toNat_eq heq)
  have hnotLast : exponent.toNat ≠ 2047 := fun heq => hlast (BitVec.eq_of_toNat_eq heq)
  have hbits := toNat_append mantissa
  have hmantissa := mantissa.isLt
  have hexponent := exponent.isLt
  unfold CanonicalFloat InRange
  dsimp only
  omega

/-- What a double unpacks to. -/
theorem unpack_canonical (x : Float.Model) : CanonicalFloat x.unpack ∧ InRange x.unpack := by
  obtain ⟨bits, -⟩ := x
  unfold Float.Model.unpack UnpackedFloat.unpack
  dsimp only
  by_cases hlast : @unpackExponent Format.binary64 bits.toBitVec = -1#11
  · rw [if_pos hlast]
    by_cases hzero : @unpackMantissa Format.binary64 bits.toBitVec = 0#52
    · rw [if_pos hzero]
      exact ⟨trivial, trivial⟩
    · rw [if_neg hzero]
      exact ⟨trivial, trivial⟩
  rw [if_neg hlast]
  by_cases hfirst : @unpackExponent Format.binary64 bits.toBitVec = 0#11
  · rw [if_pos hfirst]
    by_cases hzero : @unpackMantissa Format.binary64 bits.toBitVec = 0#52
    · rw [dif_pos hzero]
      exact ⟨trivial, trivial⟩
    · have hmantissa := (@unpackMantissa Format.binary64 bits.toBitVec).isLt
      rw [dif_neg hzero, hfirst]
      exact ⟨⟨hmantissa.trans (by decide), Int.le_refl _, .inr rfl⟩, by
        show (-1074 : Int) ≤ 971
        decide⟩
  · rw [if_neg hfirst]
    exact canonical_normal _ _ hlast hfirst _

/-! ## Results -/

namespace Binary64

/-- The number of a finite double. -/
def value (x : Float) : Option ℚ := numberOf x.toModel.unpack

/-- The number of the double that the exact result `q` gives; it is infinite if there is none. -/
def result (q : ℚ) : Option ℚ :=
  if |binary64.round q| < 2 ^ 1024 then some (binary64.round q) else none

theorem abs_round (q : ℚ) : |binary64.round q| = binary64.round |q| := by
  rcases le_total 0 q with hq | hq
  · rw [abs_of_nonneg hq, abs_of_nonneg (binary64.round_nonneg hq)]
  · rw [abs_of_nonpos hq, abs_of_nonpos (binary64.round_nonpos hq)]
    exact (nearestEven_neg q).symm

/-- What is no larger than a finite double gives one. -/
theorem result_eq {q x : ℚ} (hle : |q| ≤ x) (hx : Binary64 x) (hlimit : x < 2 ^ 1024) :
    result q = some (binary64.round q) := by
  unfold result
  rw [abs_round, if_pos ((binary64.round_le hx hle).trans_lt hlimit)]

theorem result_eq_some {q x : ℚ} (h : result q = some x) :
    x = binary64.round q ∧ |x| < 2 ^ 1024 := by
  unfold result at h
  split at h
  · rename_i hlimit
    cases h
    exact ⟨rfl, hlimit⟩
  · cases h

end Binary64

theorem abs_apply (sign : Sign) (m : Nat) (q : ℚ) : |(sign.apply m : ℚ) * q| = m * |q| := by
  rw [apply_mul]
  cases sign with
  | negative => rw [abs_neg, abs_mul, Nat.abs_cast]
  | positive => rw [abs_mul, Nat.abs_cast]

/-- The exponent is in range when the number is less than `2 ^ 1024`. -/
theorem CanonicalFloat.inRange_iff {sign : Sign} {m : Nat} {e : Int} {hm : 0 < m}
    (h : CanonicalFloat (.finite sign m e hm)) :
    e ≤ 971 ↔ |(sign.apply m : ℚ) * 2 ^ e| < 2 ^ 1024 := by
  obtain ⟨hless, hlow, hbits⟩ := h
  have hunit : (0 : ℚ) < 2 ^ e := zpow_pos two_pos e
  rw [abs_apply, abs_of_pos hunit]
  constructor
  · intro hrange
    have hm : (m : ℚ) < 2 ^ 53 := by exact_mod_cast hless
    have hpower : (2 : ℚ) ^ 53 * 2 ^ e ≤ 2 ^ 1024 := by
      rw [← zpow_natCast, ← zpow_natCast, ← zpow_add₀ two_ne_zero]
      exact zpow_le_zpow_right₀ one_le_two (by push_cast; omega)
    exact (mul_lt_mul_of_pos_right hm hunit).trans_le hpower
  · intro hnumber
    by_contra hlarge
    have hm : (2 : ℚ) ^ 52 ≤ m := by exact_mod_cast hbits.resolve_right (by omega)
    have hpower : (2 : ℚ) ^ 1024 ≤ 2 ^ 52 * 2 ^ e := by
      rw [← zpow_natCast, ← zpow_natCast, ← zpow_add₀ two_ne_zero]
      exact zpow_le_zpow_right₀ one_le_two (by push_cast; omega)
    exact absurd hnumber (not_lt.mpr (hpower.trans (mul_le_mul_of_nonneg_right hm hunit.le)))

/-- A double's own number needs no rounding. -/
theorem CanonicalFloat.rounds {f : UnpackedFloat} {q : ℚ} (h : CanonicalFloat f)
    (hnumber : numberOf f = some q) : Rounds q f := by
  have hfits : Binary64 q := by
    cases f with
    | infinity => cases hnumber
    | notANumber => cases hnumber
    | zero =>
      cases hnumber
      exact binary64.fits_zero
    | finite sign m e hm =>
      cases hnumber
      refine ⟨sign.apply m, e, ?_, h.2.1, rfl⟩
      have hless := h.1
      cases sign <;> simp only [Sign.apply, abs_neg, Nat.abs_cast] <;> exact_mod_cast hless.le
  exact ⟨hnumber.trans (congrArg some (binary64.round_eq hfits).symm), h⟩

theorem Rounds.pack {q : ℚ} {f : UnpackedFloat} (h : Rounds q f) :
    numberOf (Float.Model.pack f).unpack = Binary64.result q ∧
      (Binary64.result q = none → 0 ≤ q →
        (Float.Model.pack f).unpack = .infinity .positive) := by
  obtain ⟨hnumber, hcanonical⟩ := h
  unfold Binary64.result
  cases f with
  | infinity => cases hnumber
  | notANumber => cases hnumber
  | zero sign =>
    have hzero := Option.some.inj hnumber
    rw [← hzero, unpack_pack_zero, abs_zero, if_pos (by positivity)]
    exact ⟨rfl, nofun⟩
  | finite sign m e hm =>
    have hvalue := Option.some.inj hnumber
    rw [← hvalue]
    by_cases hrange : e ≤ 971
    · rw [unpack_pack_finite hcanonical hrange, if_pos (hcanonical.inRange_iff.mp hrange)]
      exact ⟨rfl, nofun⟩
    · rw [unpack_pack_large sign hm (by omega), if_neg (hcanonical.inRange_iff.not.mp hrange)]
      refine ⟨rfl, fun _ hq => ?_⟩
      cases sign with
      | positive => rfl
      | negative =>
        -- It would be less than 0.
        have hnonneg := binary64.round_nonneg hq
        have hpos : (0 : ℚ) < m * 2 ^ e := mul_pos (by exact_mod_cast hm) (zpow_pos two_pos e)
        rw [← hvalue, apply_mul] at hnonneg
        linarith

/-! ## Operations -/

/-- A product has 53 bits or more, or both exponents are the last there is. -/
theorem product_exponent_le {m m' : Nat} {e e' : Int} (hm : 0 < m) (hm' : 0 < m')
    (hbits : 2 ^ 52 ≤ m ∨ e = -1074) (hbits' : 2 ^ 52 ≤ m' ∨ e' = -1074) :
    e + e' ≤ Format.binary64.targetExponent (totalExponent (m * m') (e + e')) := by
  have hmany (h : 2 ^ 52 ≤ m * m') : 52 ≤ (m * m').log2 :=
    (Nat.le_log2 (Nat.mul_pos hm hm').ne').mpr h
  rw [targetExponent_eq, totalExponent]
  rcases hbits with hbits | hbits
  · have := hmany (hbits.trans (Nat.le_mul_of_pos_right m hm'))
    omega
  · rcases hbits' with hbits' | hbits'
    · have := hmany (hbits'.trans (Nat.le_mul_of_pos_left m' hm))
      omega
    · omega

theorem apply_product (sign sign' : Sign) (m m' : Nat) :
    (sign * sign').apply (m * m' : Nat) = sign.apply m * sign'.apply m' := by
  rw [Int.natCast_mul]
  cases sign with
  | negative =>
    cases sign' with
    | negative => exact (neg_mul_neg (m : Int) m').symm
    | positive => exact (neg_mul (m : Int) m').symm
  | positive =>
    cases sign' with
    | negative => exact (mul_neg (m : Int) m').symm
    | positive => rfl

section
variable {x y : UnpackedFloat} {p q : ℚ}

theorem rounds_mul (hx : CanonicalFloat x) (hy : CanonicalFloat y) (hp : numberOf x = some p)
    (hq : numberOf y = some q) : Rounds (p * q) (UnpackedFloat.mul Format.binary64 x y) := by
  cases x with
  | infinity => cases hp
  | notANumber => cases hp
  | zero =>
    cases hp
    rw [zero_mul]
    cases y with
    | infinity => cases hq
    | notANumber => cases hq
    | zero => exact rounds_zero _
    | finite => exact rounds_zero _
  | finite sign m e hm =>
    cases y with
    | infinity => cases hq
    | notANumber => cases hq
    | zero =>
      cases hq
      rw [mul_zero]
      exact rounds_zero _
    | finite sign' m' e' hm' =>
      cases hp
      cases hq
      have hproduct : (sign.apply m : ℚ) * 2 ^ e * (sign'.apply m' * 2 ^ e') =
          (sign * sign').apply (m * m' : Nat) * 2 ^ (e + e') := by
        rw [zpow_add₀ two_ne_zero, apply_product, Int.cast_mul]
        ring
      rw [hproduct]
      exact rounds_roundWithAccuracy _ (Nat.mul_pos hm hm')
        (product_exponent_le hm hm' hx.2.2 hy.2.2)

theorem apply_decreaseExponent (sign : Sign) (m : Nat) {e t : Int} (h : t ≤ e) :
    (sign.apply m : ℚ) * 2 ^ e = (sign.apply (decreaseExponent m e t).1 : ℚ) * 2 ^ t := by
  have hsplit : (2 : ℚ) ^ e = 2 ^ (e - t).toNat * 2 ^ t := by
    rw [← zpow_natCast, ← zpow_add₀ two_ne_zero]
    congr 1
    omega
  unfold decreaseExponent
  dsimp only
  rw [apply_mul, apply_mul, Nat.shiftLeft_eq, hsplit]
  push_cast
  rw [mul_assoc]

theorem rounds_add (hx : CanonicalFloat x) (hy : CanonicalFloat y) (hp : numberOf x = some p)
    (hq : numberOf y = some q) : Rounds (p + q) (UnpackedFloat.add Format.binary64 x y) := by
  cases x with
  | infinity => cases hp
  | notANumber => cases hp
  | zero =>
    cases hp
    rw [zero_add]
    cases y with
    | infinity => cases hq
    | notANumber => cases hq
    | zero =>
      cases hq
      unfold UnpackedFloat.add
      dsimp only
      split <;> exact rounds_zero _
    | finite => exact hy.rounds hq
  | finite sign m e hm =>
    cases y with
    | infinity => cases hq
    | notANumber => cases hq
    | zero =>
      cases hq
      rw [add_zero]
      exact hx.rounds hp
    | finite sign' m' e' hm' =>
      cases hp
      cases hq
      rw [apply_decreaseExponent sign m (min_le_left e e'),
        apply_decreaseExponent sign' m' (min_le_right e e'), ← add_mul, ← Int.cast_add]
      exact rounds_normalize _ _ _

theorem rounds_sub (hx : CanonicalFloat x) (hy : CanonicalFloat y) (hp : numberOf x = some p)
    (hq : numberOf y = some q) : Rounds (p - q) (UnpackedFloat.sub Format.binary64 x y) := by
  cases x with
  | infinity => cases hp
  | notANumber => cases hp
  | zero =>
    cases hp
    rw [zero_sub]
    cases y with
    | infinity => cases hq
    | notANumber => cases hq
    | zero =>
      cases hq
      rw [neg_zero]
      unfold UnpackedFloat.sub
      dsimp only
      split <;> exact rounds_zero _
    | finite sign' m' e' hm' =>
      cases hq
      refine @CanonicalFloat.rounds (.finite (-sign') m' e' hm') _ hy (congrArg some ?_)
      rw [apply_mul, apply_mul]
      cases sign' with
      | negative => exact (neg_neg _).symm
      | positive => rfl
  | finite sign m e hm =>
    cases y with
    | infinity => cases hq
    | notANumber => cases hq
    | zero =>
      cases hq
      rw [sub_zero]
      exact hx.rounds hp
    | finite sign' m' e' hm' =>
      cases hp
      cases hq
      rw [apply_decreaseExponent sign m (min_le_left e e'),
        apply_decreaseExponent sign' m' (min_le_right e e'), ← sub_mul, ← Int.cast_sub]
      exact rounds_normalize _ _ _

end

namespace Binary64

variable {a b : Float} {p q : ℚ}

theorem value_mul (ha : value a = some p) (hb : value b = some q) :
    value (a * b) = result (p * q) :=
  (rounds_mul (unpack_canonical _).1 (unpack_canonical _).1 ha hb).pack.1

theorem value_add (ha : value a = some p) (hb : value b = some q) :
    value (a + b) = result (p + q) :=
  (rounds_add (unpack_canonical _).1 (unpack_canonical _).1 ha hb).pack.1

theorem value_sub (ha : value a = some p) (hb : value b = some q) :
    value (a - b) = result (p - q) :=
  (rounds_sub (unpack_canonical _).1 (unpack_canonical _).1 ha hb).pack.1

theorem value_abs (ha : value a = some p) : value a.abs = some |p| := by
  have hca := unpack_canonical a.toModel
  unfold value at ha
  show numberOf (Float.Model.pack a.toModel.unpack.abs).unpack = _
  generalize a.toModel.unpack = x at ha hca ⊢
  cases x with
  | infinity => cases ha
  | notANumber => cases ha
  | zero =>
    cases ha
    rw [abs_zero]
    exact congrArg numberOf (unpack_pack_zero .positive)
  | finite sign m e hm =>
    cases ha
    show numberOf (Float.Model.pack (.finite .positive m e hm)).unpack = _
    rw [@unpack_pack_finite .positive m e hm hca.1 hca.2]
    refine congrArg some ?_
    rw [abs_apply, abs_of_pos (zpow_pos two_pos e : (0 : ℚ) < 2 ^ e)]
    rfl

/-- Of two magnitudes the one with the larger exponent is larger, else that with the larger
mantissa. -/
theorem compare_magnitudes {sign sign' : Sign} {m m' : Nat} {e e' : Int} {hm : 0 < m} {hm' : 0 < m'}
    (h : CanonicalFloat (.finite sign m e hm)) (h' : CanonicalFloat (.finite sign' m' e' hm')) :
    (compare e e').then (compare m m') = compare ((m : ℚ) * 2 ^ e) (m' * 2 ^ e') := by
  have hunit : (0 : ℚ) < 2 ^ e := zpow_pos two_pos e
  -- The larger exponent.
  have hpast {m m' : Nat} {e e' : Int} (hless : m < 2 ^ 53) (hlow : -1074 ≤ e)
      (hbits : 2 ^ 52 ≤ m' ∨ e' = -1074) (hlt : e < e') : (m : ℚ) * 2 ^ e < m' * 2 ^ e' := by
    have hm : (m : ℚ) < 2 ^ 53 := by exact_mod_cast hless
    have hm' : (2 : ℚ) ^ 52 ≤ m' := by exact_mod_cast hbits.resolve_right (by omega)
    have hpower : (2 : ℚ) ^ 53 * 2 ^ e ≤ 2 ^ 52 * 2 ^ e' := by
      rw [← zpow_natCast, ← zpow_natCast, ← zpow_add₀ two_ne_zero, ← zpow_add₀ two_ne_zero]
      exact zpow_le_zpow_right₀ one_le_two (by push_cast; omega)
    exact (mul_lt_mul_of_pos_right hm (zpow_pos two_pos e)).trans_le
      (hpower.trans (mul_le_mul_of_nonneg_right hm' (zpow_nonneg two_pos.le e')))
  rcases lt_trichotomy e e' with hlt | rfl | hgt
  · rw [compare_lt_iff_lt.mpr hlt, compare_lt_iff_lt.mpr (hpast h.1 h.2.1 h'.2.2 hlt)]
    rfl
  · rw [compare_eq_iff_eq.mpr rfl]
    show compare m m' = _
    rcases lt_trichotomy m m' with hlt | rfl | hgt
    · rw [compare_lt_iff_lt.mpr hlt, compare_lt_iff_lt.mpr
        (mul_lt_mul_of_pos_right (by exact_mod_cast hlt) hunit)]
    · rw [compare_eq_iff_eq.mpr rfl, compare_eq_iff_eq.mpr rfl]
    · rw [compare_gt_iff_gt.mpr hgt, compare_gt_iff_gt.mpr
        (mul_lt_mul_of_pos_right (by exact_mod_cast hgt) hunit)]
  · rw [compare_gt_iff_gt.mpr hgt, compare_gt_iff_gt.mpr (hpast h'.1 h'.2.1 h.2.2 hgt)]
    rfl

theorem compare_neg (x y : ℚ) : compare (-x) (-y) = (compare x y).swap := by
  rcases lt_trichotomy x y with hlt | rfl | hgt
  · rw [compare_lt_iff_lt.mpr hlt, compare_gt_iff_gt.mpr (neg_lt_neg hlt)]
    rfl
  · rw [compare_eq_iff_eq.mpr rfl, compare_eq_iff_eq.mpr rfl]
    rfl
  · rw [compare_gt_iff_gt.mpr hgt, compare_lt_iff_lt.mpr (neg_lt_neg hgt)]
    rfl

theorem compare_numbers {x y : UnpackedFloat} (hx : CanonicalFloat x) (hy : CanonicalFloat y)
    (hp : numberOf x = some p) (hq : numberOf y = some q) : x.compare y = some (compare p q) := by
  have hpos {m : Nat} (hm : 0 < m) (e : Int) : (0 : ℚ) < m * 2 ^ e :=
    mul_pos (by exact_mod_cast hm) (zpow_pos two_pos e)
  cases x with
  | infinity => cases hp
  | notANumber => cases hp
  | zero =>
    cases hp
    cases y with
    | infinity => cases hq
    | notANumber => cases hq
    | zero =>
      cases hq
      rfl
    | finite sign' m' e' hm' =>
      cases hq
      have := hpos hm' e'
      rw [apply_mul]
      cases sign' with
      | negative => exact congrArg some (compare_gt_iff_gt.mpr (by linarith)).symm
      | positive => exact congrArg some (compare_lt_iff_lt.mpr this).symm
  | finite sign m e hm =>
    cases hp
    have h := hpos hm e
    cases y with
    | infinity => cases hq
    | notANumber => cases hq
    | zero =>
      cases hq
      rw [apply_mul]
      cases sign with
      | negative => exact congrArg some (compare_lt_iff_lt.mpr (by linarith)).symm
      | positive => exact congrArg some (compare_gt_iff_gt.mpr h).symm
    | finite sign' m' e' hm' =>
      cases hq
      have h' := hpos hm' e'
      rw [apply_mul, apply_mul]
      have hcompare := compare_magnitudes hx hy
      cases sign with
      | negative =>
        cases sign' with
        | negative =>
          refine congrArg some ?_
          rw [hcompare, compare_neg]
        | positive => exact congrArg some (compare_lt_iff_lt.mpr (by linarith)).symm
      | positive =>
        cases sign' with
        | negative => exact congrArg some (compare_gt_iff_gt.mpr (by linarith)).symm
        | positive => exact congrArg some hcompare

theorem lt_iff (ha : value a = some p) (hb : value b = some q) : a < b ↔ p < q := by
  have hcompare := compare_numbers (unpack_canonical a.toModel).1 (unpack_canonical b.toModel).1
    ha hb
  show decide ((a.toModel.unpack.compare b.toModel.unpack == some .lt) = true) = true ↔ _
  rw [hcompare, decide_eq_true_iff, beq_iff_eq, Option.some.injEq, compare_lt_iff_lt]

/-- A whole number below `2 ^ 32` is a double. -/
theorem fits_toNat (n : UInt32) : Binary64 (n.toNat : ℚ) ∧ (n.toNat : ℚ) < 2 ^ 1024 := by
  have hless := n.toNat_lt
  have hbound : |(n.toNat : Int)| ≤ 2 ^ 53 := by
    rw [Nat.abs_cast]
    omega
  have hsmall : (n.toNat : ℚ) < 2 ^ 32 := by exact_mod_cast hless
  refine ⟨?_, hsmall.trans_le (pow_le_pow_right₀ one_le_two (by norm_num))⟩
  exact_mod_cast intCast (K := ℚ) hbound

theorem value_toFloat (n : UInt32) : value n.toFloat = some (n.toNat : ℚ) := by
  obtain ⟨hfits, hlimit⟩ := fits_toNat n
  have hround := (rounds_normalize n.toNat 0 .positive).pack.1
  rw [zpow_zero, mul_one, Int.cast_natCast, result_eq (Nat.abs_cast _).le hfits hlimit,
    binary64.round_eq hfits] at hround
  exact hround

/-! ## Doubles past all numbers -/

/-- What an operation gives that is not finite: positive infinity, or no number. -/
inductive Past : UnpackedFloat → Prop
  | infinity : Past (.infinity .positive)
  | notANumber : Past .notANumber

variable {f : UnpackedFloat}

theorem Past.unpack_pack (h : Past f) : (Float.Model.pack f).unpack = f := by
  cases h with
  | infinity => exact unpack_pack_infinity _
  | notANumber => exact unpack_pack_notANumber

/-- A product that is too large is infinite. -/
theorem unpack_mul_none (ha : value a = some p) (hb : value b = some q) (hnonneg : 0 ≤ p * q)
    (hnone : result (p * q) = none) : (a * b).toModel.unpack = .infinity .positive :=
  (rounds_mul (unpack_canonical _).1 (unpack_canonical _).1 ha hb).pack.2 hnone hnonneg

theorem unpack_mul_past (ha : value a = some p) (hpos : 0 < p) (hb : b.toModel.unpack = f)
    (h : Past f) : (a * b).toModel.unpack = f := by
  unfold value at ha
  show (Float.Model.pack (UnpackedFloat.mul _ a.toModel.unpack b.toModel.unpack)).unpack = _
  rw [hb]
  generalize a.toModel.unpack = x at ha ⊢
  cases x with
  | infinity => cases ha
  | notANumber => cases ha
  | zero =>
    cases ha
    exact absurd hpos (lt_irrefl _)
  | finite sign m e hm =>
    cases h with
    | notANumber => exact unpack_pack_notANumber
    | infinity =>
      cases sign with
      | positive => exact unpack_pack_infinity _
      | negative =>
        cases ha
        have := mul_pos (Nat.cast_pos.mpr hm) (zpow_pos (two_pos (α := ℚ)) e)
        rw [apply_mul] at hpos
        linarith

theorem unpack_past_mul (ha : a.toModel.unpack = f) (h : Past f) (hb : value b = some q)
    (hpos : 0 < q) : (a * b).toModel.unpack = f := by
  unfold value at hb
  show (Float.Model.pack (UnpackedFloat.mul _ a.toModel.unpack b.toModel.unpack)).unpack = _
  rw [ha]
  generalize b.toModel.unpack = y at hb ⊢
  cases h with
  | notANumber =>
    have hmul : UnpackedFloat.mul Format.binary64 .notANumber y = .notANumber := by
      cases y <;> rfl
    rw [hmul]
    exact unpack_pack_notANumber
  | infinity =>
    cases y with
    | infinity => cases hb
    | notANumber => cases hb
    | zero =>
      cases hb
      exact absurd hpos (lt_irrefl _)
    | finite sign m e hm =>
      cases sign with
      | positive => exact unpack_pack_infinity _
      | negative =>
        cases hb
        have := mul_pos (Nat.cast_pos.mpr hm) (zpow_pos (two_pos (α := ℚ)) e)
        rw [apply_mul] at hpos
        linarith

theorem unpack_add_past (ha : value a = some p) (hb : b.toModel.unpack = f) (h : Past f) :
    (a + b).toModel.unpack = f := by
  unfold value at ha
  show (Float.Model.pack (UnpackedFloat.add _ a.toModel.unpack b.toModel.unpack)).unpack = _
  rw [hb]
  generalize a.toModel.unpack = x at ha ⊢
  have hstays (hadd : UnpackedFloat.add Format.binary64 x f = f) :
      (Float.Model.pack (UnpackedFloat.add Format.binary64 x f)).unpack = f := by
    rw [hadd, h.unpack_pack]
  cases x with
  | infinity => cases ha
  | notANumber => cases ha
  | zero => cases h <;> exact hstays rfl
  | finite => cases h <;> exact hstays rfl

theorem unpack_abs_sub_past (ha : value a = some p) (hb : b.toModel.unpack = f) (h : Past f) :
    (a - b).abs.toModel.unpack = f := by
  unfold value at ha
  show (Float.Model.pack (Float.Model.pack
    (UnpackedFloat.sub _ a.toModel.unpack b.toModel.unpack)).unpack.abs).unpack = _
  rw [hb]
  generalize a.toModel.unpack = x at ha ⊢
  cases h with
  | notANumber =>
    have hsub : UnpackedFloat.sub Format.binary64 x .notANumber = .notANumber := by
      cases x <;> rfl
    rw [hsub, unpack_pack_notANumber]
    exact unpack_pack_notANumber
  | infinity =>
    have hsub : UnpackedFloat.sub Format.binary64 x (.infinity .positive) =
        .infinity .negative := by
      cases x with
      | infinity => cases ha
      | notANumber => cases ha
      | zero => rfl
      | finite => rfl
    rw [hsub, unpack_pack_infinity]
    exact unpack_pack_infinity _

theorem not_lt_past (ha : a.toModel.unpack = f) (hb : b.toModel.unpack = f) (h : Past f) :
    ¬ a < b := by
  show ¬ decide ((a.toModel.unpack.compare b.toModel.unpack == some .lt) = true) = true
  rw [ha, hb]
  cases h <;> decide

theorem not_past_lt (ha : a.toModel.unpack = f) (h : Past f) (hb : value b = some q) : ¬ a < b := by
  unfold value at hb
  show ¬ decide ((a.toModel.unpack.compare b.toModel.unpack == some .lt) = true) = true
  rw [ha]
  generalize b.toModel.unpack = y at hb ⊢
  cases y with
  | infinity => cases hb
  | notANumber => cases hb
  | zero => cases h <;> nofun
  | finite => cases h <;> nofun

theorem negative_infinity_lt (ha : a.toModel.unpack = .infinity .negative) (hb : value b = some q) :
    a < b := by
  unfold value at hb
  show decide ((a.toModel.unpack.compare b.toModel.unpack == some .lt) = true) = true
  rw [ha]
  generalize b.toModel.unpack = y at hb ⊢
  cases y with
  | infinity => cases hb
  | notANumber => cases hb
  | zero => rfl
  | finite => rfl

end Binary64

end WaveformGenerator
