import WaveformGenerator.UsbAudio.Gauge

/-!
# Whose the missed intervals are

Each count of missed intervals keeps a part for the device's own, the unprimed ones. A gap raises
both, and a take-back lowers them by what the latest gap still holds; the latest gap apart, the
unprimed part stays within the missed intervals.
-/

namespace WaveformGenerator.UsbAudio

/-- The counts of missed intervals with their unprimed parts. -/
structure Attribution where
  streamMissed : IntervalCount
  streamUnprimed : IntervalCount
  missed : IntervalCount
  unprimed : IntervalCount
  latestGap : LatestGap
  lastUnprimed : IntervalCount
  playMissed : IntervalCount
  playUnprimed : IntervalCount

/-- A call of `withPartUpdated`: its total, and the part taken out of it. -/
structure PartUpdate where
  total : IntervalCount
  part : IntervalCount
  deriving DecidableEq, Repr

/-! ## The calls that a completion makes -/

namespace UacStream

def attribution (s : UacStream) : Attribution where
  streamMissed := s.interval.streamMissed
  streamUnprimed := s.interval.streamUnprimed
  missed := s.counters.missedIntervals
  unprimed := s.counters.unprimedIntervals
  latestGap := s.interval.latestGap
  lastUnprimed := s.counters.lastMiss.unprimed
  playMissed := s.play.missedIntervals
  playUnprimed := s.play.unprimedIntervals

/-- The call in `setStreamUnprimed`. -/
def unprimedUpdate (s : UacStream) : PartUpdate :=
  ⟨s.counters.unprimedIntervals, s.interval.streamUnprimed⟩

/-- The calls in `takeBackLatestGap`. -/
def takeBackUpdates (s : UacStream) : List PartUpdate :=
  if s.interval.latestGap.counted ≠ 0 ∧ s.interval.latestGap.unprimed ≠ 0 then [s.unprimedUpdate]
  else []

/-- The stream once `countMissed` has counted the gap, before it locates it. -/
def recounted (s : UacStream) (elapsed : UsbFrameSpan) : UacStream :=
  let before := s.interval.streamMissed
  let streamMissed := missedAfterGap before elapsed
  { s with
    interval := { s.interval with streamMissed }
    counters := { s.counters with
      missedIntervals := withPartUpdated s.counters.missedIntervals before streamMissed } }

/-- Whether `countMissed` moves an interval of the latest gap into this one. -/
def MovesLatest (s : UacStream) (added : IntervalCount) (samples : GapSamples) : Prop :=
  samples.hostSkipped > added ∧ s.interval.latestGap.counted ≠ 0

instance (s : UacStream) (added : IntervalCount) (samples : GapSamples) :
    Decidable (s.MovesLatest added samples) :=
  inferInstanceAs (Decidable (_ ∧ _))

/-- The calls in `countMissed`. -/
def countUpdates (s : UacStream) (elapsed : UsbFrameSpan) (samples : GapSamples) :
    List PartUpdate :=
  let before := s.interval.streamMissed
  let counted := s.recounted elapsed
  let added := counted.interval.streamMissed - before
  ⟨s.counters.missedIntervals, before⟩ ::
    if counted.interval.streamMissed < before then
      counted.takeBackUpdates
    else if counted.MovesLatest added samples then
      counted.takeBackUpdates ++
        if added + 1 ≠ 0 then [counted.takeBackLatestGap.unprimedUpdate] else []
    else if added ≠ 0 then
      [counted.unprimedUpdate]
    else
      []

/-- The gap that a completion ends, as `trackInterval` tells it. -/
def gapTo (s : UacStream) (completion : Completion) : UsbFrameSpan :=
  dealiasedGap
    (((completion.frame.toUInt32 &&& usbFrameNumberMask) - s.interval.last) &&& usbFrameNumberMask)
    (completion.tick - s.interval.lastTick)

/-- The calls in `trackInterval`. -/
def trackUpdates (s : UacStream) (completion : Completion) : List PartUpdate :=
  if s.interval.valid then s.countUpdates (s.gapTo completion) s.interval.samples else []

theorem countMissed_eq (s : UacStream) (elapsed : UsbFrameSpan) (samples : GapSamples)
    (forPlay : Bool) :
    s.countMissed elapsed samples forPlay =
      let counted := s.recounted elapsed
      let added := counted.interval.streamMissed - s.interval.streamMissed
      if counted.interval.streamMissed < s.interval.streamMissed then
        counted.takeBackLatestGap
      else if counted.MovesLatest added samples then
        if added + 1 ≠ 0 then
          counted.takeBackLatestGap.locateMiss (added + 1) (unprimedPart (added + 1) samples)
            forPlay
        else counted.takeBackLatestGap
      else if added ≠ 0 then
        counted.locateMiss added (unprimedPart added samples) forPlay
      else
        counted := by
  unfold countMissed
  dsimp only
  by_cases hlowered : (s.recounted elapsed).interval.streamMissed < s.interval.streamMissed
  · rw [if_pos hlowered]
    exact if_pos hlowered
  rw [if_neg hlowered]
  refine (if_neg hlowered).trans ?_
  by_cases hmoves : (s.recounted elapsed).MovesLatest
      ((s.recounted elapsed).interval.streamMissed - s.interval.streamMissed) samples
  · have hmoved : samples.hostSkipped >
        missedAfterGap s.interval.streamMissed elapsed - s.interval.streamMissed ∧
          s.interval.latestGap.counted ≠ 0 := hmoves
    rw [if_pos hmoved, if_pos hmoved, if_pos hmoves]
    rfl
  · have hmoved : ¬(samples.hostSkipped >
        missedAfterGap s.interval.streamMissed elapsed - s.interval.streamMissed ∧
          s.interval.latestGap.counted ≠ 0) := hmoves
    rw [if_neg hmoved, if_neg hmoved, if_neg hmoves]
    rfl

end UacStream

/-! ## Counts of intervals -/

theorem toNat_withPartUpdated {total part updated : IntervalCount} (hpart : part.toNat ≤ total.toNat)
    (hfits : total.toNat - part.toNat + updated.toNat < 2 ^ 32) :
    (withPartUpdated total part updated).toNat = total.toNat - part.toNat + updated.toNat := by
  have hsub : (total - part).toNat = total.toNat - part.toNat :=
    UInt32.toNat_sub_of_le _ _ (UInt32.le_iff_toNat_le.mpr hpart)
  rw [withPartUpdated, UInt32.toNat_add, hsub, Nat.mod_eq_of_lt hfits]

theorem toNat_unprimedPart (missed : IntervalCount) (samples : GapSamples) :
    (unprimedPart missed samples).toNat =
      if samples.unprimed then missed.toNat - samples.hostSkipped.toNat else 0 := by
  unfold unprimedPart
  cases samples.unprimed with
  | false => rfl
  | true =>
    have hmin : (min missed samples.hostSkipped).toNat ≤ missed.toNat := by
      rw [toNat_min32]
      exact Nat.min_le_left ..
    have hsub := UInt32.toNat_sub_of_le _ _ (UInt32.le_iff_toNat_le.mpr hmin)
    rw [if_neg (by decide), if_pos rfl, hsub, toNat_min32]
    omega

/-! ## The invariant -/

namespace Attribution

/-- The unprimed parts stay within the counts, the latest gap's apart or not. -/
structure Sound (a : Attribution) : Prop where
  gap : a.latestGap.unprimed.toNat ≤ a.latestGap.counted.toNat
  gapPart : a.latestGap.unprimed.toNat ≤ a.streamUnprimed.toNat
  outsideGap : a.streamUnprimed.toNat + a.latestGap.counted.toNat ≤
    a.streamMissed.toNat + a.latestGap.unprimed.toNat
  streamPart : a.streamUnprimed.toNat ≤ a.unprimed.toNat
  earlierStreams : a.unprimed.toNat + a.streamMissed.toNat ≤
    a.missed.toNat + a.streamUnprimed.toNat
  located : a.latestGap.counted ≠ 0 → a.lastUnprimed = a.latestGap.unprimed
  play : a.playUnprimed.toNat ≤ a.playMissed.toNat

variable {a b : Attribution}

theorem Sound.stream_le (h : a.Sound) : a.streamUnprimed.toNat ≤ a.streamMissed.toNat := by
  have := h.gap
  have := h.outsideGap
  omega

theorem Sound.missedPart (h : a.Sound) : a.streamMissed.toNat ≤ a.missed.toNat := by
  have := h.streamPart
  have := h.earlierStreams
  omega

theorem Sound.sinceBoot_le (h : a.Sound) : a.unprimed.toNat ≤ a.missed.toNat := by
  have := h.stream_le
  have := h.earlierStreams
  omega

/-- Another play begins, with nothing missed. -/
theorem Sound.restarted (h : a.Sound) : Sound { a with playMissed := 0, playUnprimed := 0 } :=
  ⟨h.gap, h.gapPart, h.outsideGap, h.streamPart, h.earlierStreams, h.located, Nat.le_refl _⟩

/-- What taking one interval out of the latest gap makes of `a`. -/
structure TakenBack (a b : Attribution) : Prop where
  streamMissed : b.streamMissed = a.streamMissed
  missed : b.missed = a.missed
  counted : b.latestGap.counted.toNat + 1 = a.latestGap.counted.toNat
  gap : b.latestGap.unprimed.toNat = a.latestGap.unprimed.toNat - 1
  streamUnprimed : b.streamUnprimed.toNat + a.latestGap.unprimed.toNat =
    a.streamUnprimed.toNat + b.latestGap.unprimed.toNat
  unprimed : b.unprimed.toNat + a.latestGap.unprimed.toNat =
    a.unprimed.toNat + b.latestGap.unprimed.toNat
  located : b.latestGap.counted ≠ 0 → b.lastUnprimed = b.latestGap.unprimed
  playMissed : b.playMissed = a.playMissed
  playUnprimed : b.playUnprimed = a.playUnprimed

end Attribution

/-! ## One step each -/

/-- A latest gap that counts an interval gives one up, an unprimed one first. -/
theorem UacStream.takeBackLatestGap_takenBack {s : UacStream}
    (hcounted : s.interval.latestGap.counted ≠ 0)
    (hgap : s.attribution.latestGap.unprimed.toNat ≤ s.attribution.latestGap.counted.toNat)
    (hgapPart : s.attribution.latestGap.unprimed.toNat ≤ s.attribution.streamUnprimed.toNat)
    (hstream : s.attribution.streamUnprimed.toNat ≤ s.attribution.unprimed.toNat) :
    s.attribution.TakenBack s.takeBackLatestGap.attribution := by
  have hcountedPos : s.interval.latestGap.counted.toNat ≠ 0 := fun h =>
    hcounted (UInt32.toNat_inj.mp h)
  have hcountedNext := missedAfterGap_zero s.interval.latestGap.counted
  have hunprimedNext := missedAfterGap_zero s.interval.latestGap.unprimed
  have hstreamNext := missedAfterGap_zero s.interval.streamUnprimed
  have hfits := s.counters.unprimedIntervals.toNat_lt
  change s.interval.latestGap.unprimed.toNat ≤ s.interval.latestGap.counted.toNat at hgap
  change s.interval.latestGap.unprimed.toNat ≤ s.interval.streamUnprimed.toNat at hgapPart
  change s.interval.streamUnprimed.toNat ≤ s.counters.unprimedIntervals.toNat at hstream
  have htotal : (withPartUpdated s.counters.unprimedIntervals s.interval.streamUnprimed
      (missedAfterGap s.interval.streamUnprimed 0)).toNat = _ :=
    toNat_withPartUpdated hstream (by omega)
  have hzero : (0 : IntervalCount).toNat = 0 := rfl
  unfold takeBackLatestGap
  dsimp only
  rw [if_neg hcounted]
  by_cases hunprimed : s.interval.latestGap.unprimed = 0
  · rw [if_neg (not_not.mpr hunprimed), if_neg (not_not.mpr hunprimed)]
    have hunprimedZero : s.interval.latestGap.unprimed.toNat = 0 := by rw [hunprimed]; rfl
    split
    · rename_i hlast
      rw [hlast, hzero] at hcountedNext
      refine ⟨rfl, rfl, ?_, ?_, ?_, ?_, fun h => absurd rfl h, rfl, rfl⟩
      · show 0 + 1 = s.interval.latestGap.counted.toNat
        omega
      · show 0 = s.interval.latestGap.unprimed.toNat - 1
        omega
      · show s.interval.streamUnprimed.toNat + s.interval.latestGap.unprimed.toNat =
          s.interval.streamUnprimed.toNat + 0
        omega
      · show s.counters.unprimedIntervals.toNat + s.interval.latestGap.unprimed.toNat =
          s.counters.unprimedIntervals.toNat + 0
        omega
    · refine ⟨rfl, rfl, ?_, ?_, rfl, rfl, fun _ => rfl, rfl, rfl⟩
      · show (missedAfterGap s.interval.latestGap.counted 0).toNat + 1 =
          s.interval.latestGap.counted.toNat
        omega
      · show s.interval.latestGap.unprimed.toNat = s.interval.latestGap.unprimed.toNat - 1
        omega
  · have hunprimedPos : s.interval.latestGap.unprimed.toNat ≠ 0 := fun h =>
      hunprimed (UInt32.toNat_inj.mp h)
    rw [if_pos hunprimed, if_pos hunprimed]
    split
    · rename_i hlast
      rw [hlast, hzero] at hcountedNext
      refine ⟨rfl, rfl, ?_, ?_, ?_, ?_, fun h => absurd rfl h, rfl, rfl⟩
      · show 0 + 1 = s.interval.latestGap.counted.toNat
        omega
      · show 0 = s.interval.latestGap.unprimed.toNat - 1
        omega
      · show (missedAfterGap s.interval.streamUnprimed 0).toNat +
          s.interval.latestGap.unprimed.toNat = s.interval.streamUnprimed.toNat + 0
        omega
      · show (withPartUpdated s.counters.unprimedIntervals s.interval.streamUnprimed
          (missedAfterGap s.interval.streamUnprimed 0)).toNat +
          s.interval.latestGap.unprimed.toNat = s.counters.unprimedIntervals.toNat + 0
        omega
    · refine ⟨rfl, rfl, ?_, hunprimedNext, ?_, ?_, fun _ => rfl, rfl, rfl⟩
      · show (missedAfterGap s.interval.latestGap.counted 0).toNat + 1 =
          s.interval.latestGap.counted.toNat
        omega
      · show (missedAfterGap s.interval.streamUnprimed 0).toNat +
          s.interval.latestGap.unprimed.toNat = s.interval.streamUnprimed.toNat +
            (missedAfterGap s.interval.latestGap.unprimed 0).toNat
        omega
      · show (withPartUpdated s.counters.unprimedIntervals s.interval.streamUnprimed
          (missedAfterGap s.interval.streamUnprimed 0)).toNat +
          s.interval.latestGap.unprimed.toNat = s.counters.unprimedIntervals.toNat +
            (missedAfterGap s.interval.latestGap.unprimed 0).toNat
        omega

/-- What locating a gap of `added` intervals, `part` of them unprimed, makes of `a`. -/
structure Attribution.Located (added part : IntervalCount) (a b : Attribution) : Prop where
  streamMissed : b.streamMissed = a.streamMissed
  missed : b.missed = a.missed
  counted : b.latestGap.counted = added
  gap : b.latestGap.unprimed = part
  streamUnprimed : b.streamUnprimed.toNat = a.streamUnprimed.toNat + part.toNat
  unprimed : b.unprimed.toNat = a.unprimed.toNat + part.toNat
  located : b.lastUnprimed = part
  playMissed : b.playMissed = a.playMissed
  playUnprimed : b.playUnprimed = a.playUnprimed

theorem UacStream.locateMiss_located {s : UacStream} (added part : IntervalCount) (forPlay : Bool)
    (hstream : s.attribution.streamUnprimed.toNat ≤ s.attribution.unprimed.toNat)
    (hfits : s.attribution.unprimed.toNat + part.toNat < 2 ^ 32) :
    s.attribution.Located added part (s.locateMiss added part forPlay).attribution := by
  change s.interval.streamUnprimed.toNat ≤ s.counters.unprimedIntervals.toNat at hstream
  change s.counters.unprimedIntervals.toNat + part.toNat < 2 ^ 32 at hfits
  have hsum : (s.interval.streamUnprimed + part).toNat =
      s.interval.streamUnprimed.toNat + part.toNat := toNat_add32 (by omega)
  refine ⟨rfl, rfl, rfl, rfl, hsum, ?_, rfl, rfl, rfl⟩
  show (withPartUpdated s.counters.unprimedIntervals s.interval.streamUnprimed
    (s.interval.streamUnprimed + part)).toNat = s.counters.unprimedIntervals.toNat + part.toNat
  rw [toNat_withPartUpdated hstream (by omega), hsum]
  omega

/-- What counting a gap can do: take an interval back, move one and locate the gap, locate it, or
leave the intervals as they are. -/
theorem UacStream.countMissed_cases (s : UacStream) {elapsed : UsbFrameSpan} (samples : GapSamples)
    (forPlay : Bool) (hfits : s.interval.streamMissed.toNat + (elapsed.toNat - 1) < 2 ^ 32) :
    let counted := s.recounted elapsed
    let first : PartUpdate := ⟨s.counters.missedIntervals, s.interval.streamMissed⟩
    (elapsed = 0 ∧ counted.interval.streamMissed.toNat + 1 = s.interval.streamMissed.toNat ∧
      s.countMissed elapsed samples forPlay = counted.takeBackLatestGap ∧
      s.countUpdates elapsed samples = first :: counted.takeBackUpdates) ∨
    ∃ added : IntervalCount, added.toNat = elapsed.toNat - 1 ∧
      counted.interval.streamMissed.toNat = s.interval.streamMissed.toNat + added.toNat ∧
      ((counted.MovesLatest added samples ∧ (added + 1).toNat = added.toNat + 1 ∧
          (unprimedPart (added + 1) samples).toNat = 0 ∧
          s.countMissed elapsed samples forPlay =
            counted.takeBackLatestGap.locateMiss (added + 1) (unprimedPart (added + 1) samples)
              forPlay ∧
          s.countUpdates elapsed samples = first ::
            (counted.takeBackUpdates ++ [counted.takeBackLatestGap.unprimedUpdate])) ∨
        (added ≠ 0 ∧
          s.countMissed elapsed samples forPlay =
            counted.locateMiss added (unprimedPart added samples) forPlay ∧
          s.countUpdates elapsed samples = [first, counted.unprimedUpdate]) ∨
        (added = 0 ∧ s.countMissed elapsed samples forPlay = counted ∧
          s.countUpdates elapsed samples = [first])) := by
  intro counted first
  have hcountMissed := s.countMissed_eq elapsed samples forPlay
  obtain ⟨updates, hupdates⟩ : ∃ updates, s.countUpdates elapsed samples = updates := ⟨_, rfl⟩
  rw [hupdates]
  unfold countUpdates at hupdates
  dsimp only at hcountMissed hupdates
  have hstream : counted.interval.streamMissed =
      missedAfterGap s.interval.streamMissed elapsed := rfl
  by_cases hlowered : counted.interval.streamMissed < s.interval.streamMissed
  · rw [if_pos hlowered] at hcountMissed hupdates
    rw [UInt32.lt_iff_toNat_lt, hstream] at hlowered
    have hzero : elapsed.toNat = 0 := by
      by_contra hpos
      rw [missedAfterGap_of_pos _ (Nat.pos_of_ne_zero hpos), Nat.mod_eq_of_lt hfits] at hlowered
      omega
    have helapsed : elapsed = 0 := UInt32.toNat_inj.mp hzero
    rw [helapsed, missedAfterGap_zero] at hlowered
    refine .inl ⟨helapsed, ?_, hcountMissed, hupdates.symm⟩
    rw [hstream, helapsed, missedAfterGap_zero]
    omega
  · rw [if_neg hlowered] at hcountMissed hupdates
    obtain ⟨added, hadded⟩ : ∃ added, added =
      counted.interval.streamMissed - s.interval.streamMissed := ⟨_, rfl⟩
    have hle := UInt32.not_lt.mp hlowered
    have hsub := UInt32.toNat_sub_of_le _ _ hle
    rw [← hadded] at hcountMissed hupdates hsub
    rw [UInt32.le_iff_toNat_le] at hle
    have hcount : added.toNat = elapsed.toNat - 1 := by
      by_cases hzero : elapsed.toNat = 0
      · have helapsed : elapsed = 0 := UInt32.toNat_inj.mp hzero
        rw [hstream, helapsed, missedAfterGap_zero] at hsub
        omega
      · rw [hstream, missedAfterGap_of_pos _ (Nat.pos_of_ne_zero hzero),
          Nat.mod_eq_of_lt hfits] at hsub
        omega
    refine .inr ⟨added, hcount, by omega, ?_⟩
    by_cases hmoves : counted.MovesLatest added samples
    · have hskips : added.toNat < samples.hostSkipped.toNat := UInt32.lt_iff_toNat_lt.mp hmoves.1
      have hskipped := samples.hostSkipped.toNat_lt
      have hone : (added + 1).toNat = added.toNat + 1 := by
        rw [toNat_add32 (by rw [UInt32.toNat_one]; omega), UInt32.toNat_one]
      have hpos : added + 1 ≠ 0 := fun h => by
        rw [h] at hone
        cases hone
      rw [if_pos hmoves, if_pos hpos] at hcountMissed hupdates
      refine .inl ⟨hmoves, hone, ?_, hcountMissed, hupdates.symm⟩
      rw [toNat_unprimedPart, hone]
      split
      · omega
      · rfl
    rw [if_neg hmoves] at hcountMissed hupdates
    by_cases hpos : added ≠ 0
    · rw [if_pos hpos] at hcountMissed hupdates
      exact .inr (.inl ⟨hpos, hcountMissed, hupdates.symm⟩)
    · rw [if_neg hpos] at hcountMissed hupdates
      exact .inr (.inr ⟨not_not.mp hpos, hcountMissed, hupdates.symm⟩)

/-! ## A gap counted -/

namespace Attribution

variable {a b c d : Attribution}

/-- `b` is `a` with other counts of missed intervals. -/
structure Recounted (a b : Attribution) : Prop where
  streamUnprimed : b.streamUnprimed = a.streamUnprimed
  unprimed : b.unprimed = a.unprimed
  latestGap : b.latestGap = a.latestGap
  lastUnprimed : b.lastUnprimed = a.lastUnprimed
  playMissed : b.playMissed = a.playMissed
  playUnprimed : b.playUnprimed = a.playUnprimed

/-- One interval less, taken out of the latest gap. -/
theorem Sound.lowered (h : a.Sound) (hcounts : a.Recounted b)
    (hstream : b.streamMissed.toNat + 1 = a.streamMissed.toNat)
    (hmissed : b.missed.toNat + 1 = a.missed.toNat) (htaken : b.TakenBack c) : c.Sound := by
  obtain ⟨hgap, hgapPart, houtside, hpart, hearlier, -, hplay⟩ := h
  obtain ⟨hstreamMissed, hboot, hcounted, hunprimed, hstreamPart, hbootPart, hlocated, hplayMissed,
    hplayUnprimed⟩ := htaken
  rw [hcounts.latestGap] at hcounted hunprimed hstreamPart hbootPart
  rw [hcounts.streamUnprimed] at hstreamPart
  rw [hcounts.unprimed] at hbootPart
  refine ⟨by omega, by omega, ?_, by omega, ?_, hlocated, ?_⟩
  · rw [hstreamMissed]
    omega
  · rw [hstreamMissed, hboot]
    omega
  · rw [hplayMissed, hplayUnprimed, hcounts.playMissed, hcounts.playUnprimed]
    exact hplay

/-- A gap of more intervals is located, its unprimed part among them. -/
theorem Sound.raised (h : a.Sound) (hcounts : a.Recounted b) {added part : IntervalCount}
    (hstream : b.streamMissed.toNat = a.streamMissed.toNat + added.toNat)
    (hmissed : b.missed.toNat = a.missed.toNat + added.toNat) (hle : part.toNat ≤ added.toNat)
    (hlocated : b.Located added part c) : c.Sound := by
  have hstreamLe := h.stream_le
  obtain ⟨hgap, hgapPart, houtside, hpart, hearlier, -, hplay⟩ := h
  obtain ⟨hstreamMissed, hboot, hcounted, hunprimed, hstreamPart, hbootPart, hlast, hplayMissed,
    hplayUnprimed⟩ := hlocated
  rw [hcounts.streamUnprimed] at hstreamPart
  rw [hcounts.unprimed] at hbootPart
  refine ⟨?_, ?_, ?_, by omega, ?_, fun _ => hlast.trans hunprimed.symm, ?_⟩
  · rw [hcounted, hunprimed]
    exact hle
  · rw [hunprimed]
    omega
  · rw [hcounted, hunprimed, hstreamMissed]
    omega
  · rw [hstreamMissed, hboot]
    omega
  · rw [hplayMissed, hplayUnprimed, hcounts.playMissed, hcounts.playUnprimed]
    exact hplay

/-- An interval of the latest gap moves into the one located, which is all the host's. -/
theorem Sound.moved (h : a.Sound) (hcounts : a.Recounted b) {added one part : IntervalCount}
    (hstream : b.streamMissed.toNat = a.streamMissed.toNat + added.toNat)
    (hmissed : b.missed.toNat = a.missed.toNat + added.toNat) (htaken : b.TakenBack c)
    (hone : one.toNat = added.toNat + 1) (hnone : part.toNat = 0)
    (hlocated : c.Located one part d) : d.Sound := by
  have hstreamLe := h.stream_le
  obtain ⟨hgap, hgapPart, houtside, hpart, hearlier, -, hplay⟩ := h
  obtain ⟨hstreamTaken, hbootTaken, hcountedTaken, hunprimedTaken, hstreamPartTaken,
    hbootPartTaken, -, hplayMissedTaken, hplayUnprimedTaken⟩ := htaken
  obtain ⟨hstreamMissed, hboot, hcounted, hunprimed, hstreamPart, hbootPart, hlast, hplayMissed,
    hplayUnprimed⟩ := hlocated
  rw [hcounts.latestGap] at hcountedTaken hunprimedTaken hstreamPartTaken hbootPartTaken
  rw [hcounts.streamUnprimed] at hstreamPartTaken
  rw [hcounts.unprimed] at hbootPartTaken
  refine ⟨?_, ?_, ?_, by omega, ?_, fun _ => hlast.trans hunprimed.symm, ?_⟩
  · rw [hunprimed, hnone]
    exact Nat.zero_le _
  · rw [hunprimed, hnone]
    exact Nat.zero_le _
  · rw [hcounted, hunprimed, hstreamMissed, hstreamTaken]
    omega
  · rw [hstreamMissed, hboot, hstreamTaken, hbootTaken]
    omega
  · rw [hplayMissed, hplayUnprimed, hplayMissedTaken, hplayUnprimedTaken, hcounts.playMissed,
      hcounts.playUnprimed]
    exact hplay

end Attribution

namespace UacStream

variable {s : UacStream}

theorem recounted_recounted (s : UacStream) (elapsed : UsbFrameSpan) :
    s.attribution.Recounted (s.recounted elapsed).attribution :=
  ⟨rfl, rfl, rfl, rfl, rfl, rfl⟩

/-- What the latest gap counts is there to be taken back. -/
theorem takenBack_of_recounted (h : s.attribution.Sound) (elapsed : UsbFrameSpan)
    (hcounted : s.interval.latestGap.counted ≠ 0) :
    (s.recounted elapsed).attribution.TakenBack
      (s.recounted elapsed).takeBackLatestGap.attribution :=
  takeBackLatestGap_takenBack hcounted h.gap h.gapPart h.streamPart

/-- The calls of `takeBackLatestGap` take no more out of a total than it holds. -/
theorem part_le_of_mem_takeBackUpdates (h : s.attribution.Sound) {elapsed : UsbFrameSpan}
    {update : PartUpdate} (hmem : update ∈ (s.recounted elapsed).takeBackUpdates) :
    update.part.toNat ≤ update.total.toNat := by
  unfold takeBackUpdates at hmem
  split at hmem
  · rw [List.mem_singleton.mp hmem]
    exact h.streamPart
  · cases hmem

theorem countMissed_sound (h : s.attribution.Sound) {elapsed : UsbFrameSpan} (samples : GapSamples)
    (forPlay : Bool)
    (htakes : elapsed = 0 → s.interval.streamMissed ≠ 0 → s.interval.latestGap.counted ≠ 0)
    (hfits : s.counters.missedIntervals.toNat + (elapsed.toNat - 1) < 2 ^ 32) :
    (s.countMissed elapsed samples forPlay).attribution.Sound ∧
      ∀ update ∈ s.countUpdates elapsed samples, update.part.toNat ≤ update.total.toNat := by
  have hpart : s.interval.streamMissed.toNat ≤ s.counters.missedIntervals.toNat := h.missedPart
  have hcounts := s.recounted_recounted elapsed
  have hsinceBoot : s.counters.unprimedIntervals.toNat ≤ s.counters.missedIntervals.toNat :=
    h.sinceBoot_le
  -- The count since boot moves as the stream's does.
  have hmissed : (s.recounted elapsed).interval.streamMissed.toNat ≤
      s.interval.streamMissed.toNat + (elapsed.toNat - 1) →
      (s.recounted elapsed).counters.missedIntervals.toNat =
        s.counters.missedIntervals.toNat - s.interval.streamMissed.toNat +
          (s.recounted elapsed).interval.streamMissed.toNat := fun hle =>
    toNat_withPartUpdated hpart (by
      change (missedAfterGap s.interval.streamMissed elapsed).toNat ≤ _ at hle
      omega)
  have hstreamFits : s.interval.streamMissed.toNat + (elapsed.toNat - 1) < 2 ^ 32 := by omega
  rcases s.countMissed_cases samples forPlay hstreamFits with
    ⟨hzero, hstream, hcounted, hupdates⟩ | ⟨added, hadded, hstream, hcases⟩
  · have hsome : s.interval.streamMissed ≠ 0 := fun hnone => by
      rw [hnone] at hstream
      cases hstream
    have htaken := takenBack_of_recounted h elapsed (htakes hzero hsome)
    have hboot := hmissed (by omega)
    rw [hcounted, hupdates]
    refine ⟨h.lowered hcounts hstream ?_ htaken, fun update hmem => ?_⟩
    · show (s.recounted elapsed).counters.missedIntervals.toNat + 1 =
        s.counters.missedIntervals.toNat
      omega
    · rcases List.mem_cons.mp hmem with rfl | hmem
      · exact hpart
      · exact part_le_of_mem_takeBackUpdates h hmem
  have hboot : (s.recounted elapsed).attribution.missed.toNat =
      s.attribution.missed.toNat + added.toNat := by
    have := hmissed (by omega)
    show (s.recounted elapsed).counters.missedIntervals.toNat =
      s.counters.missedIntervals.toNat + added.toNat
    omega
  rcases hcases with ⟨hmoves, hone, hnone, hcounted, hupdates⟩ | ⟨-, hcounted, hupdates⟩ |
    ⟨hadds, hcounted, hupdates⟩
  · have htaken := takenBack_of_recounted h elapsed hmoves.2
    -- The call that locates the gap comes after the one that takes back.
    have hcalled : (s.recounted elapsed).takeBackLatestGap.attribution.streamUnprimed.toNat ≤
        (s.recounted elapsed).takeBackLatestGap.attribution.unprimed.toNat := by
      have htook := htaken.streamUnprimed
      have htookBoot := htaken.unprimed
      have hstreamPart := h.streamPart
      rw [hcounts.streamUnprimed] at htook
      rw [hcounts.unprimed] at htookBoot
      omega
    have hlocated := locateMiss_located (added + 1) (unprimedPart (added + 1) samples)
      forPlay hcalled (by
        rw [hnone]
        exact UInt32.toNat_lt _)
    rw [hcounted, hupdates]
    refine ⟨h.moved hcounts hstream hboot htaken hone hnone hlocated, fun update hmem => ?_⟩
    rcases List.mem_cons.mp hmem with rfl | hmem
    · exact hpart
    rcases List.mem_append.mp hmem with hmem | hmem
    · exact part_le_of_mem_takeBackUpdates h hmem
    · rw [List.mem_singleton.mp hmem]
      exact hcalled
  · have hle : (unprimedPart added samples).toNat ≤ added.toNat := by
      rw [toNat_unprimedPart]
      split <;> omega
    have hlocated := locateMiss_located (s := s.recounted elapsed) added
      (unprimedPart added samples) forPlay h.streamPart (by
        show s.counters.unprimedIntervals.toNat + _ < _
        omega)
    rw [hcounted, hupdates]
    refine ⟨h.raised hcounts hstream hboot hle hlocated, fun update hmem => ?_⟩
    rcases List.mem_cons.mp hmem with rfl | hmem
    · exact hpart
    · rw [List.mem_singleton.mp hmem]
      exact h.streamPart
  · rw [hadds, UInt32.toNat_zero] at hstream hboot
    rw [hcounted, hupdates]
    refine ⟨⟨h.gap, h.gapPart, ?_, h.streamPart, ?_, h.located, h.play⟩, fun update hmem => ?_⟩
    · have houtside := h.outsideGap
      change (s.recounted elapsed).interval.streamMissed.toNat = s.attribution.streamMissed.toNat
        at hstream
      show s.attribution.streamUnprimed.toNat + s.attribution.latestGap.counted.toNat ≤
        (s.recounted elapsed).interval.streamMissed.toNat + s.attribution.latestGap.unprimed.toNat
      omega
    · have hearlier := h.earlierStreams
      change (s.recounted elapsed).interval.streamMissed.toNat = s.attribution.streamMissed.toNat
        at hstream
      show s.attribution.unprimed.toNat + (s.recounted elapsed).interval.streamMissed.toNat ≤
        (s.recounted elapsed).attribution.missed.toNat + s.attribution.streamUnprimed.toNat
      omega
    · rw [List.mem_singleton.mp hmem]
      exact hpart

/-- After a gap that a late read ends, what the stream has missed is in part its latest gap's. -/
theorem countMissed_holds {elapsed : UsbFrameSpan} (samples : GapSamples) (forPlay : Bool)
    (hfits : s.interval.streamMissed.toNat + (elapsed.toNat - 1) < 2 ^ 32) (hpos : elapsed ≠ 0)
    (hholds : elapsed = 1 → s.interval.streamMissed ≠ 0 → s.interval.latestGap.counted ≠ 0) :
    (s.countMissed elapsed samples forPlay).interval.streamMissed ≠ 0 →
      (s.countMissed elapsed samples forPlay).interval.latestGap.counted ≠ 0 := by
  intro hsome
  rcases s.countMissed_cases samples forPlay hfits with
    ⟨hzero, -⟩ | ⟨added, hadded, hstream, hcases⟩
  · exact absurd hzero hpos
  rcases hcases with ⟨-, hone, -, hcounted, -⟩ | ⟨hadds, hcounted, -⟩ | ⟨hadds, hcounted, -⟩
  · rw [hcounted]
    show added + 1 ≠ 0
    intro hnone
    rw [hnone] at hone
    cases hone
  · rw [hcounted]
    exact hadds
  · rw [hcounted] at hsome ⊢
    rw [hadds, UInt32.toNat_zero] at hadded hstream
    have hpositive : elapsed.toNat ≠ 0 := fun h => hpos (UInt32.toNat_inj.mp h)
    refine hholds (UInt32.toNat_inj.mp ?_) fun hnone => hsome (UInt32.toNat_inj.mp ?_)
    · rw [UInt32.toNat_one]
      omega
    · rw [hstream, hnone, Nat.add_zero]

/-! ## A completion tracked -/

/-- What the gap that a completion ends needs: that the take-back finds its late read, and that the
count since boot does not come round. -/
structure Countable (s : UacStream) (elapsed : UsbFrameSpan) : Prop where
  takes : elapsed = 0 → s.interval.streamMissed ≠ 0 → s.interval.latestGap.counted ≠ 0
  fits : s.counters.missedIntervals.toNat + (elapsed.toNat - 1) < 2 ^ 32

theorem countPlayMissed_sound (h : s.attribution.Sound) (elapsed : UsbFrameSpan)
    (streamUnprimedBefore : IntervalCount) :
    (s.countPlayMissed elapsed streamUnprimedBefore).attribution.Sound := by
  refine ⟨h.gap, h.gapPart, h.outsideGap, h.streamPart, h.earlierStreams, h.located, ?_⟩
  show (min _ (missedAfterGap s.play.missedIntervals elapsed)).toNat ≤
    (missedAfterGap s.play.missedIntervals elapsed).toNat
  rw [toNat_min32]
  exact Nat.min_le_right ..

theorem judgeGap_sound (h : s.attribution.Sound) {elapsed : UsbFrameSpan} (samples : GapSamples)
    (hcountable : s.Countable elapsed) : (s.judgeGap elapsed samples).attribution.Sound := by
  have hjudged : (s.judgesForPlay elapsed).2.attribution.Sound := h
  have hcounted := (countMissed_sound hjudged samples (s.judgesForPlay elapsed).1
    hcountable.takes hcountable.fits).1
  unfold judgeGap
  dsimp only
  split
  · exact countPlayMissed_sound hcounted ..
  · exact hcounted

theorem judgeGap_interval (s : UacStream) (elapsed : UsbFrameSpan) (samples : GapSamples) :
    (s.judgeGap elapsed samples).interval =
      ((s.judgesForPlay elapsed).2.countMissed elapsed samples
        (s.judgesForPlay elapsed).1).interval := by
  unfold judgeGap
  dsimp only
  split <;> rfl

/-- The stream as `trackInterval` has it when it judges the gap. -/
def gapEnded (s : UacStream) (completion : Completion) : UacStream :=
  { s with
    interval := { s.interval with
      samples := {}
      last := s.interval.last + s.gapTo completion
      lastTick := completion.tick }
    counters := { s.counters with maxGap := max s.counters.maxGap (s.gapTo completion) }
    play := { s.play with missUnconfirmed := false } }

theorem trackInterval_next (hvalid : s.interval.valid = true) (completion : Completion) :
    s.trackInterval completion =
      (s.gapEnded completion).judgeGap (s.gapTo completion) s.interval.samples := by
  unfold trackInterval
  dsimp only
  exact if_neg (by rw [hvalid]; exact Bool.false_ne_true)

theorem trackInterval_first (hvalid : s.interval.valid = false) (completion : Completion) :
    s.trackInterval completion =
      { s with
        interval :=
          { last := completion.frame.toUInt32 &&& usbFrameNumberMask
            lastTick := completion.tick
            valid := true }
        play := { s.play with missUnconfirmed := false } } := by
  unfold trackInterval
  dsimp only
  exact if_pos (by rw [hvalid]; rfl)

theorem trackInterval_sound (h : s.attribution.Sound) {completion : Completion}
    (hcountable : s.interval.valid = true → s.Countable (s.gapTo completion)) :
    (s.trackInterval completion).attribution.Sound ∧
      ∀ update ∈ s.trackUpdates completion, update.part.toNat ≤ update.total.toNat := by
  unfold trackUpdates
  cases hvalid : s.interval.valid with
  | false =>
    rw [trackInterval_first hvalid]
    refine ⟨⟨Nat.le_refl _, Nat.zero_le _, Nat.le_refl _, Nat.zero_le _, ?_, fun h => absurd rfl h,
      h.play⟩, nofun⟩
    exact h.sinceBoot_le
  | true =>
    have hcountable := hcountable hvalid
    have hended : (s.gapEnded completion).attribution.Sound := h
    have hcounted : (s.gapEnded completion).Countable (s.gapTo completion) :=
      ⟨hcountable.takes, hcountable.fits⟩
    rw [trackInterval_next hvalid]
    refine ⟨judgeGap_sound hended s.interval.samples hcounted, ?_⟩
    exact (countMissed_sound h s.interval.samples false hcountable.takes hcountable.fits).2

/-! ## A completion -/

/-- A data completion is tracked, from a stream that counts as this one does. -/
theorem commit_tracks (completion : Completion) (level : ByteCount) (hhears : s.hears = true) :
    ∃ noted : UacStream, noted.attribution = s.attribution ∧ noted.interval = s.interval ∧
      (s.commit completion level).attribution = (noted.trackInterval completion).attribution ∧
      (s.commit completion level).interval = (noted.trackInterval completion).interval := by
  have hconfirmed : ((s.noteProgress completion.tick).confirmLoaded level).1 =
      if s.inFlight then chunkFrames else 0 := rfl
  obtain ⟨noted, hnoted⟩ : ∃ noted, noted =
    ((s.noteProgress completion.tick).confirmLoaded level).2.noteMismatch completion.sent
      (if s.inFlight then chunkFrames else 0) := ⟨_, rfl⟩
  have hattribution : noted.attribution = s.attribution := by
    rw [hnoted]
    exact noteMismatch_kept _ _ _ fun _ _ => rfl
  have hinterval : noted.interval = s.interval := by
    rw [hnoted]
    exact noteMismatch_kept (f := fun noted => noted.interval) _ _ _ fun _ _ => rfl
  have hstate : noted.counters.state = s.counters.state := by
    rw [hnoted]
    exact noteMismatch_kept (f := fun noted => noted.counters.state) _ _ _ fun _ _ => rfl
  have hprimer : ¬(noted.counters.state = .priming ∧
      (if s.inFlight then chunkFrames else 0) = 0) := by
    rintro ⟨hpriming, hzero⟩
    rw [hstate] at hpriming
    unfold hears at hhears
    rw [hpriming] at hhears
    rw [if_pos hhears] at hzero
    cases hzero
  refine ⟨{ noted with counters := { noted.counters with
    shortPackets :=
      if completion.sent ≠ packetBytes noted.counters.format then noted.counters.shortPackets + 1
      else noted.counters.shortPackets
    state := .streaming } }, hattribution, hinterval, ?_, ?_⟩
  all_goals
    unfold commit
    dsimp only
    rw [hconfirmed, ← hnoted, if_neg hprimer]
  · exact (retireWithin_credits ..).kept fun _ _ => rfl
  · exact (retireWithin_credits ..).kept (f := fun s => s.interval) fun _ _ => rfl

/-- Another one moves none of the counts. -/
theorem commit_primer (completion : Completion) (level : ByteCount)
    (hopen : s.counters.state ≠ .closed) (hhears : s.hears = false) :
    (s.commit completion level).attribution = s.attribution ∧
      (s.commit completion level).interval = s.interval := by
  have hprimer : s.counters.state = .priming ∧ s.inFlight = false := by
    unfold hears at hhears
    cases hstate : s.counters.state with
    | closed => exact absurd hstate hopen
    | priming => exact ⟨rfl, by rw [hstate] at hhears; exact hhears⟩
    | streaming =>
      rw [hstate] at hhears
      cases hhears
  have hconfirmed : ((s.noteProgress completion.tick).confirmLoaded level).1 = 0 := by
    show (if s.inFlight then chunkFrames else 0) = 0
    rw [hprimer.2]
    rfl
  have hstate : (((s.noteProgress completion.tick).confirmLoaded level).2.noteMismatch
      completion.sent 0).counters.state = .priming :=
    (noteMismatch_kept (f := fun noted => noted.counters.state) _ _ _ fun _ _ => rfl).trans
      hprimer.1
  unfold commit
  dsimp only
  rw [hconfirmed, if_pos ⟨hstate, rfl⟩]
  exact ⟨noteMismatch_kept _ _ _ fun _ _ => rfl,
    noteMismatch_kept (f := fun noted => noted.interval) _ _ _ fun _ _ => rfl⟩

end UacStream

end WaveformGenerator.UsbAudio
