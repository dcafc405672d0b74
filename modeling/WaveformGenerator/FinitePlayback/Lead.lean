import WaveformGenerator.FinitePlayback.Scheduler

/-!
# The required lead (`common/finite_playback.cpp`)

A producer slower than the playback falls behind by its deficit each second. The lead is what it
falls behind by over the whole playback, rounded up, and a margin, and never more than the playback.
-/

namespace WaveformGenerator.FinitePlayback

/-! ## The values of `required_lead` -/

variable (config : Config)

def leadDeficit : UInt64 :=
  if config.measuredRateFramesPerSecond.toUInt64 < playbackSampleRateHz.toUInt64 then
    playbackSampleRateHz.toUInt64 - config.measuredRateFramesPerSecond.toUInt64
  else 0

def leadFractionalNumerator : UInt64 :=
  config.totalFrames % playbackSampleRateHz.toUInt64 * leadDeficit config

def leadFractionalFrames : UInt64 :=
  (leadFractionalNumerator config + playbackSampleRateHz.toUInt64 - 1) /
    playbackSampleRateHz.toUInt64

def leadBase : UInt64 :=
  config.totalFrames / playbackSampleRateHz.toUInt64 * leadDeficit config +
    leadFractionalFrames config

def leadWithoutMargin : UInt64 := min (leadBase config) config.totalFrames

theorem requiredLead_eq : requiredLead config =
    if config.marginFrames ≥ config.totalFrames - leadWithoutMargin config then config.totalFrames
    else leadWithoutMargin config + config.marginFrames := rfl

/-- No value on the way to the required lead leaves 64 bits. -/
structure LeadExact : Prop where
  deficit : (leadDeficit config).toNat = 48000 - config.measuredRateFramesPerSecond.toNat
  numerator : (leadFractionalNumerator config).toNat =
    config.totalFrames.toNat % 48000 * (leadDeficit config).toNat
  fractional : (leadFractionalFrames config).toNat =
    ((leadFractionalNumerator config).toNat + 48000 - 1) / 48000
  base : (leadBase config).toNat =
    config.totalFrames.toNat / 48000 * (leadDeficit config).toNat +
      (leadFractionalFrames config).toNat
  withoutMargin : (leadWithoutMargin config).toNat =
    min (leadBase config).toNat config.totalFrames.toNat
  remaining : (config.totalFrames - leadWithoutMargin config).toNat =
    config.totalFrames.toNat - (leadWithoutMargin config).toNat
  sum : config.marginFrames < config.totalFrames - leadWithoutMargin config →
    (leadWithoutMargin config + config.marginFrames).toNat =
      (leadWithoutMargin config).toNat + config.marginFrames.toNat

theorem playbackSampleRateHz_toNat : playbackSampleRateHz.toUInt64.toNat = 48000 := rfl

theorem leadDeficit_toNat :
    (leadDeficit config).toNat = 48000 - config.measuredRateFramesPerSecond.toNat := by
  unfold leadDeficit
  split <;> rename_i h <;>
    rw [UInt64.lt_iff_toNat_lt, playbackSampleRateHz_toNat, UInt32.toNat_toUInt64] at h
  · rw [UInt64.toNat_sub_of_le _ _ (UInt64.le_iff_toNat_le.mpr (by
      rw [playbackSampleRateHz_toNat, UInt32.toNat_toUInt64]
      omega)), playbackSampleRateHz_toNat, UInt32.toNat_toUInt64]
  · show 0 = _
    omega

theorem leadDeficit_le : (leadDeficit config).toNat ≤ 48000 := by
  rw [leadDeficit_toNat]
  omega

theorem fractionalProduct_le :
    config.totalFrames.toNat % 48000 * (leadDeficit config).toNat ≤ 48000 * 48000 :=
  Nat.mul_le_mul (Nat.le_of_lt (Nat.mod_lt _ (by decide))) (leadDeficit_le config)

theorem leadFractionalNumerator_toNat : (leadFractionalNumerator config).toNat =
    config.totalFrames.toNat % 48000 * (leadDeficit config).toNat := by
  have hproduct := fractionalProduct_le config
  rw [leadFractionalNumerator, UInt64.toNat_mul, UInt64.toNat_mod, playbackSampleRateHz_toNat]
  exact Nat.mod_eq_of_lt (by omega)

theorem leadFractionalFrames_toNat : (leadFractionalFrames config).toNat =
    ((leadFractionalNumerator config).toNat + 48000 - 1) / 48000 := by
  have hproduct := fractionalProduct_le config
  rw [← leadFractionalNumerator_toNat] at hproduct
  have hadd : (leadFractionalNumerator config + playbackSampleRateHz.toUInt64).toNat =
      (leadFractionalNumerator config).toNat + 48000 := by
    rw [UInt64.toNat_add, playbackSampleRateHz_toNat]
    exact Nat.mod_eq_of_lt (by omega)
  have hone : (1 : UInt64).toNat = 1 := rfl
  rw [leadFractionalFrames, UInt64.toNat_div, playbackSampleRateHz_toNat,
    UInt64.toNat_sub_of_le _ _ (UInt64.le_iff_toNat_le.mpr (by rw [hadd, hone]; omega)), hadd, hone]

theorem leadFractionalFrames_le :
    (leadFractionalFrames config).toNat ≤ config.totalFrames.toNat % 48000 := by
  have : config.totalFrames.toNat % 48000 * (leadDeficit config).toNat ≤
      config.totalFrames.toNat % 48000 * 48000 := Nat.mul_le_mul_left _ (leadDeficit_le config)
  rw [leadFractionalFrames_toNat, leadFractionalNumerator_toNat]
  omega

theorem leadBase_toNat : (leadBase config).toNat =
    config.totalFrames.toNat / 48000 * (leadDeficit config).toNat +
      (leadFractionalFrames config).toNat := by
  have htotal := config.totalFrames.toNat_lt
  have hwhole : config.totalFrames.toNat / 48000 * (leadDeficit config).toNat ≤
      config.totalFrames.toNat / 48000 * 48000 := Nat.mul_le_mul_left _ (leadDeficit_le config)
  have hfraction := leadFractionalFrames_le config
  have hmul : (config.totalFrames / playbackSampleRateHz.toUInt64 * leadDeficit config).toNat =
      config.totalFrames.toNat / 48000 * (leadDeficit config).toNat := by
    rw [UInt64.toNat_mul, UInt64.toNat_div, playbackSampleRateHz_toNat]
    exact Nat.mod_eq_of_lt (by omega)
  rw [leadBase, UInt64.toNat_add, hmul]
  exact Nat.mod_eq_of_lt (by omega)

theorem leadExact : LeadExact config := by
  have hwithout : (leadWithoutMargin config).toNat =
      min (leadBase config).toNat config.totalFrames.toNat := toNat_min64 ..
  have hremaining : (config.totalFrames - leadWithoutMargin config).toNat =
      config.totalFrames.toNat - (leadWithoutMargin config).toNat :=
    UInt64.toNat_sub_of_le _ _ (UInt64.le_iff_toNat_le.mpr (by
      rw [hwithout]
      exact Nat.min_le_right ..))
  refine ⟨leadDeficit_toNat config, leadFractionalNumerator_toNat config,
    leadFractionalFrames_toNat config, leadBase_toNat config, hwithout, hremaining, fun h => ?_⟩
  have htotal := config.totalFrames.toNat_lt
  rw [UInt64.lt_iff_toNat_lt, hremaining] at h
  rw [UInt64.toNat_add]
  exact Nat.mod_eq_of_lt (by omega)

/-! ## What the lead is -/

/-- A quotient rounded up, whole multiples apart. -/
theorem ceil_split (total deficit : Nat) :
    total / 48000 * deficit + (total % 48000 * deficit + 48000 - 1) / 48000 =
      (total * deficit + 48000 - 1) / 48000 := by
  have hsplit : total * deficit + 48000 - 1 =
      (total % 48000 * deficit + 48000 - 1) + 48000 * (total / 48000 * deficit) := by
    have := Nat.mod_add_div total 48000
    calc total * deficit + 48000 - 1
        = (total % 48000 + 48000 * (total / 48000)) * deficit + 48000 - 1 := by rw [this]
      _ = _ := by rw [Nat.add_mul, Nat.mul_assoc]; omega
  rw [hsplit, Nat.add_mul_div_left _ _ (by decide), Nat.add_comm]

theorem requiredLead_toNat : (requiredLead config).toNat =
    min config.totalFrames.toNat
      ((config.totalFrames.toNat * (48000 - config.measuredRateFramesPerSecond.toNat) +
        48000 - 1) / 48000 + config.marginFrames.toNat) := by
  have h := leadExact config
  have hbase := h.base
  rw [h.fractional, h.numerator, ceil_split, h.deficit] at hbase
  have hle : (leadWithoutMargin config).toNat = min
      ((config.totalFrames.toNat * (48000 - config.measuredRateFramesPerSecond.toNat) +
        48000 - 1) / 48000) config.totalFrames.toNat := by
    rw [h.withoutMargin, hbase]
  rw [requiredLead_eq]
  split <;> rename_i hmargin
  · rw [ge_iff_le, UInt64.le_iff_toNat_le, h.remaining] at hmargin
    omega
  · rw [ge_iff_le, UInt64.not_le] at hmargin
    rw [h.sum hmargin]
    rw [UInt64.lt_iff_toNat_lt, h.remaining] at hmargin
    omega

example : requiredLead ⟨2880000, 24000, 48000, 4096, 256⟩ = 1488000 := by decide +kernel

/-- The lead covers what a producer falls behind by, over every part of the playback. -/
theorem lead_covers {rate total lead n : Nat} (hrate : rate ≤ 48000) (hn : n ≤ total)
    (hlead : min total ((total * (48000 - rate) + 48000 - 1) / 48000) ≤ lead) :
    n ≤ lead + n * rate / 48000 := by
  have hproduced : n - (n * (48000 - rate) + 48000 - 1) / 48000 ≤ n * rate / 48000 := by
    have hsum : n * (48000 - rate) + n * rate = n * 48000 := by
      rw [← Nat.mul_add]
      congr 1
      omega
    omega
  have hmono : (n * (48000 - rate) + 48000 - 1) / 48000 ≤
      (total * (48000 - rate) + 48000 - 1) / 48000 := by
    have := Nat.mul_le_mul_right (48000 - rate) hn
    exact Nat.div_le_div_right (by omega)
  omega

/-- The required lead is computed exactly, and with it a producer at the measured rate is never
overtaken. -/
theorem requiredLead_sufficient (hrate : config.measuredRateFramesPerSecond.toNat ≤ 48000) :
    LeadExact config ∧
      (requiredLead config).toNat =
        min config.totalFrames.toNat
          ((config.totalFrames.toNat * (48000 - config.measuredRateFramesPerSecond.toNat) +
            48000 - 1) / 48000 + config.marginFrames.toNat) ∧
      ∀ n ≤ config.totalFrames.toNat,
        n ≤ (requiredLead config).toNat +
          n * config.measuredRateFramesPerSecond.toNat / 48000 := by
  refine ⟨leadExact config, requiredLead_toNat config, fun n hn => ?_⟩
  refine lead_covers hrate hn ?_
  rw [requiredLead_toNat]
  omega

/-- A minute at half speed with a second of margin. -/
theorem requiredLead_sufficient_minute :
    let config : Config := ⟨2880000, 24000, 48000, 4096, 256⟩
    LeadExact config ∧
      (requiredLead config).toNat =
        min config.totalFrames.toNat
          ((config.totalFrames.toNat * (48000 - config.measuredRateFramesPerSecond.toNat) +
            48000 - 1) / 48000 + config.marginFrames.toNat) ∧
      ∀ n ≤ config.totalFrames.toNat,
        n ≤ (requiredLead config).toNat +
          n * config.measuredRateFramesPerSecond.toNat / 48000 :=
  requiredLead_sufficient ⟨2880000, 24000, 48000, 4096, 256⟩ (by decide)

end WaveformGenerator.FinitePlayback
