import WaveformGenerator.UsbAudio.Format

/-!
# Missed intervals (`rt1170/usb_audio.hpp`)

The rules over the gap between two completions: its true length out of an 11-bit frame number and
the ticks, what it adds to a count of missed intervals, and how counts that follow that one move.
-/

namespace WaveformGenerator.UsbAudio

def usbFrameNumberModulus : UInt32 := 2048
def usbFrameNumberMask : UInt32 := usbFrameNumberModulus - 1
def usbFrameNumberHalf : UInt32 := usbFrameNumberModulus / 2

/-- The count once the next completion comes `gap` frames after the previous one. -/
def missedAfterGap (missed : IntervalCount) (gap : UsbFrameSpan) : IntervalCount :=
  if gap = 0 then
    if missed = 0 then 0 else missed - 1
  else
    missed + gap - 1

/-- A total that includes the count `part`, once that count has become `updated`. -/
def withPartUpdated (total part updated : IntervalCount) : IntervalCount := total - part + updated

/-- A count moved by the change from `before` to `after`, never below zero. -/
def movedWith (count before after : IntervalCount) : IntervalCount :=
  if after ≥ before then count + (after - before) else count - min count (before - after)

/-- Of the spans congruent to the frame numbers' difference, the one nearest the ticks. -/
def dealiasedGap (aliased : UsbFrameSpan) (ticks : TickSpan) : UsbFrameSpan :=
  if ticks ≤ aliased + usbFrameNumberHalf then
    aliased
  else
    let wraps := (ticks - aliased + usbFrameNumberHalf) / usbFrameNumberModulus
    aliased + wraps * usbFrameNumberModulus

example : dealiasedGap 5 4100 = 4101 := by decide +kernel

/-- The service watchdog's samples during one gap. -/
structure GapSamples where
  hostSkipped : IntervalCount := 0
  unprimed : Bool := false
  deriving DecidableEq, Repr

/-- The part of a gap's missed intervals counted unprimed. -/
def unprimedPart (missed : IntervalCount) (samples : GapSamples) : IntervalCount :=
  if !samples.unprimed then 0 else missed - min missed samples.hostSkipped

/-! ## What the rules compute -/

theorem missedAfterGap_zero (missed : IntervalCount) :
    (missedAfterGap missed 0).toNat = missed.toNat - 1 := by
  rw [missedAfterGap, if_pos rfl]
  split
  · rename_i h
    rw [h]
    rfl
  · rename_i h
    have hpos : 0 < missed.toNat := Nat.pos_of_ne_zero fun h0 => h (UInt32.toNat_inj.mp h0)
    exact UInt32.toNat_sub_of_le _ _ (UInt32.le_iff_toNat_le.mpr hpos)

theorem missedAfterGap_of_pos (missed : IntervalCount) {gap : UsbFrameSpan} (h : 0 < gap.toNat) :
    (missedAfterGap missed gap).toNat = (missed.toNat + (gap.toNat - 1)) % 2 ^ 32 := by
  have hne : gap ≠ 0 := fun h0 => by simp [h0] at h
  have hg := gap.toNat_lt
  have hm := missed.toNat_lt
  rw [missedAfterGap, if_neg hne, UInt32.toNat_sub, UInt32.toNat_add, UInt32.toNat_one]
  omega

/-- No step of `dealiasedGap` leaves 32 bits. -/
structure DealiasExact (aliased ticks : UInt32) : Prop where
  limit : (aliased + usbFrameNumberHalf).toNat = aliased.toNat + usbFrameNumberHalf.toNat
  rounded : ¬ticks ≤ aliased + usbFrameNumberHalf → aliased ≤ ticks ∧
    (ticks - aliased + usbFrameNumberHalf).toNat =
      ticks.toNat - aliased.toNat + usbFrameNumberHalf.toNat
  wrapped : ¬ticks ≤ aliased + usbFrameNumberHalf →
    let wraps := (ticks - aliased + usbFrameNumberHalf) / usbFrameNumberModulus
    (aliased + wraps * usbFrameNumberModulus).toNat =
      aliased.toNat + wraps.toNat * usbFrameNumberModulus.toNat

theorem dealias {gap : Nat} {aliased ticks : UInt32} (hgap : gap < 2 ^ 32)
    (halias : aliased.toNat = gap % 2048) (early : gap < ticks.toNat + 1024)
    (late : ticks.toNat < gap + 1024) :
    (dealiasedGap aliased ticks).toNat = gap ∧ DealiasExact aliased ticks := by
  have hhalf : usbFrameNumberHalf.toNat = 1024 := rfl
  have hmodulus : usbFrameNumberModulus.toNat = 2048 := rfl
  have hticks := ticks.toNat_lt
  have hlimit : (aliased + usbFrameNumberHalf).toNat = gap % 2048 + 1024 := by
    rw [toNat_add32 (by omega), hhalf, halias]
  -- past the half range the ticks are behind no wrap but the gap's own
  have hsum : ¬ticks ≤ aliased + usbFrameNumberHalf → aliased ≤ ticks ∧
      (ticks - aliased + usbFrameNumberHalf).toNat = ticks.toNat - gap % 2048 + 1024 := by
    intro h
    rw [UInt32.le_iff_toNat_le, hlimit] at h
    have hle : aliased ≤ ticks := UInt32.le_iff_toNat_le.mpr (by omega)
    have hsub : (ticks - aliased).toNat = ticks.toNat - gap % 2048 := by
      rw [UInt32.toNat_sub_of_le _ _ hle, halias]
    exact ⟨hle, by rw [toNat_add32 (by omega), hsub, hhalf]⟩
  have hwraps : ¬ticks ≤ aliased + usbFrameNumberHalf →
      ((ticks - aliased + usbFrameNumberHalf) / usbFrameNumberModulus).toNat = gap / 2048 := by
    intro h
    rw [UInt32.toNat_div, (hsum h).2, hmodulus]
    rw [UInt32.le_iff_toNat_le, hlimit] at h
    omega
  have hwrapped : ¬ticks ≤ aliased + usbFrameNumberHalf →
      let wraps := (ticks - aliased + usbFrameNumberHalf) / usbFrameNumberModulus
      (aliased + wraps * usbFrameNumberModulus).toNat = aliased.toNat + wraps.toNat * 2048 := by
    intro h wraps
    rw [UInt32.toNat_add, UInt32.toNat_mul, hmodulus]
    have : wraps.toNat = gap / 2048 := hwraps h
    omega
  refine ⟨?_, by rw [hlimit, halias, hhalf], fun h => ?_, hwrapped⟩
  · unfold dealiasedGap
    split <;> rename_i h
    · rw [UInt32.le_iff_toNat_le, hlimit] at h
      omega
    · rw [hwrapped h, hwraps h, halias]
      omega
  · rw [(hsum h).2, halias, hhalf]
    exact ⟨(hsum h).1, rfl⟩

/-- Every gap that 32 bits hold is exact, and told without a wrap on the way. -/
theorem dealiasedGap_exact (gap : UsbFrameSpan) (ticks : TickSpan)
    (early : gap.toNat < ticks.toNat + 1024) (late : ticks.toNat < gap.toNat + 1024) :
    dealiasedGap (gap % usbFrameNumberModulus) ticks = gap ∧
      DealiasExact (gap % usbFrameNumberModulus) ticks := by
  have halias : (gap % usbFrameNumberModulus).toNat = gap.toNat % 2048 := UInt32.toNat_mod ..
  obtain ⟨hgap, hexact⟩ := dealias gap.toNat_lt halias early late
  exact ⟨UInt32.toNat_inj.mp hgap, hexact⟩

/-- A pause of 3072 frames with the tick a frame behind. -/
theorem dealiasedGap_exact_pause :
    dealiasedGap ((3072 : UInt32) % usbFrameNumberModulus) 3071 = 3072 ∧
      DealiasExact ((3072 : UInt32) % usbFrameNumberModulus) 3071 :=
  dealiasedGap_exact 3072 3071 (by decide) (by decide)

/-! ## Interval numbers read -/

/-- The frame number of an interval, as the stream masks it. -/
theorem toNat_frameNumber (number : Nat) :
    ((UInt16.ofNat (number % 2048)).toUInt32 &&& usbFrameNumberMask).toNat = number % 2048 := by
  have hmask : usbFrameNumberMask.toNat = 2 ^ 11 - 1 := rfl
  have hframe : (UInt16.ofNat (number % 2048)).toNat = number % 2048 := by
    rw [UInt16.toNat_ofNat']
    omega
  rw [UInt32.toNat_and, hmask, Nat.and_two_pow_sub_one_eq_mod, UInt16.toNat_toUInt32, hframe,
    Nat.mod_mod]

/-- The gap between two interval numbers is told exactly. -/
theorem dealiasedGap_numbers {p r : Nat} {last : UsbFrameCount} {ticks : TickSpan} (hle : p ≤ r)
    (hfits : r - p < 2 ^ 32) (early : r - p < ticks.toNat + 1024)
    (late : ticks.toNat < r - p + 1024) (hlast : last.toNat % 2048 = p % 2048) :
    (dealiasedGap ((((UInt16.ofNat (r % 2048)).toUInt32 &&& usbFrameNumberMask) - last) &&&
      usbFrameNumberMask) ticks).toNat = r - p := by
  have hmask : usbFrameNumberMask.toNat = 2 ^ 11 - 1 := rfl
  have hl := last.toNat_lt
  refine (dealias hfits ?_ early late).1
  rw [UInt32.toNat_and, hmask, Nat.and_two_pow_sub_one_eq_mod, UInt32.toNat_sub, toNat_frameNumber]
  omega

end WaveformGenerator.UsbAudio
