import WaveformGenerator.UsbAudio.Bus
import WaveformGenerator.UsbAudio.Kept

/-!
# What the counts of missed intervals see

The stream's count and the play's move only with a tracked completion, by the gap it ends and by
whether the play has frames pending.
-/

namespace WaveformGenerator.UsbAudio

/-- The stream as its counts of missed intervals see it. -/
structure Gauge where
  last : UsbFrameCount
  lastTick : TickCount
  valid : Bool
  streamMissed : IntervalCount
  missedIntervals : IntervalCount
  playMissed : IntervalCount
  missUnconfirmed : Bool
  playJudged : Bool

namespace UacStream

variable (s : UacStream)

def gauge : Gauge where
  last := s.interval.last
  lastTick := s.interval.lastTick
  valid := s.interval.valid
  streamMissed := s.interval.streamMissed
  missedIntervals := s.counters.missedIntervals
  playMissed := s.play.missedIntervals
  missUnconfirmed := s.play.missUnconfirmed
  playJudged := s.playJudged

end UacStream

namespace Gauge

/-- Whether the play judges a gap of `elapsed`, given whether it has frames pending. -/
def judges (g : Gauge) (pending : Bool) (elapsed : UsbFrameSpan) : Bool :=
  pending || (g.playJudged && elapsed == 0)

/-- The gauge once a gap of `elapsed` is judged. -/
def judge (g : Gauge) (pending : Bool) (elapsed : UsbFrameSpan) : Gauge :=
  let streamMissed := missedAfterGap g.streamMissed elapsed
  let playMissed := missedAfterGap g.playMissed elapsed
  { g with
    streamMissed
    missedIntervals := withPartUpdated g.missedIntervals g.streamMissed streamMissed
    playJudged := g.judges pending elapsed
    playMissed := if g.judges pending elapsed then playMissed else g.playMissed
    missUnconfirmed :=
      if g.judges pending elapsed then decide (playMissed > g.playMissed) else g.missUnconfirmed }

/-- The gauge once a completion with the frame number `number` is tracked. -/
def track (g : Gauge) (pending : Bool) (number : UInt32) (tick : TickCount) : Gauge :=
  if !g.valid then
    { g with
      last := number
      lastTick := tick
      valid := true
      streamMissed := 0
      missUnconfirmed := false }
  else
    let elapsed := dealiasedGap ((number - g.last) &&& usbFrameNumberMask) (tick - g.lastTick)
    { g with
      last := g.last + elapsed
      lastTick := tick
      missUnconfirmed := false }.judge pending elapsed

variable {g : Gauge}

theorem track_first (hvalid : g.valid = false) (pending : Bool) (number : UInt32)
    (tick : TickCount) :
    g.track pending number tick =
      { g with
        last := number
        lastTick := tick
        valid := true
        streamMissed := 0
        missUnconfirmed := false } := by
  rw [track, hvalid]
  rfl

theorem track_next (hvalid : g.valid = true) (pending : Bool) (number : UInt32)
    (tick : TickCount) :
    g.track pending number tick =
      { g with
        last := g.last +
          dealiasedGap ((number - g.last) &&& usbFrameNumberMask) (tick - g.lastTick)
        lastTick := tick
        missUnconfirmed := false }.judge pending
          (dealiasedGap ((number - g.last) &&& usbFrameNumberMask) (tick - g.lastTick)) :=
  if_neg (by rw [hvalid]; exact Bool.false_ne_true)

end Gauge

/-! ## A gap judged -/

namespace UacStream

variable (s : UacStream)

@[simp] theorem gauge_takeBackLatestGap : s.takeBackLatestGap.gauge = s.gauge := by
  unfold takeBackLatestGap
  dsimp only
  split
  · rfl
  split
  · split <;> rfl
  · split <;> rfl

@[simp] theorem gauge_locateMiss (added unprimed : IntervalCount) (forPlay : Bool) :
    (s.locateMiss added unprimed forPlay).gauge = s.gauge := rfl

theorem gauge_countMissed (elapsed : UsbFrameSpan) (samples : GapSamples) (forPlay : Bool) :
    (s.countMissed elapsed samples forPlay).gauge =
      { s.gauge with
        streamMissed := missedAfterGap s.gauge.streamMissed elapsed
        missedIntervals := withPartUpdated s.gauge.missedIntervals s.gauge.streamMissed
          (missedAfterGap s.gauge.streamMissed elapsed) } := by
  unfold countMissed
  dsimp only
  split
  · rw [gauge_takeBackLatestGap]
    rfl
  split
  · split
    · rw [gauge_locateMiss, gauge_takeBackLatestGap]
      rfl
    · rw [gauge_takeBackLatestGap]
      rfl
  · split <;> rfl

theorem gauge_judgeGap (elapsed : UsbFrameSpan) (samples : GapSamples) :
    (s.judgeGap elapsed samples).gauge =
      s.gauge.judge (decide (s.play.pendingFrames ≠ 0)) elapsed := by
  have hjudges : s.gauge.judges (decide (s.play.pendingFrames ≠ 0)) elapsed =
      (s.judgesForPlay elapsed).1 := rfl
  have hjudged : (s.judgesForPlay elapsed).2.gauge =
      { s.gauge with playJudged := (s.judgesForPlay elapsed).1 } := rfl
  unfold judgeGap Gauge.judge
  rw [hjudges]
  generalize s.judgesForPlay elapsed = judged at hjudged ⊢
  obtain ⟨forPlay, judged⟩ := judged
  dsimp only at hjudged ⊢
  have hcounted := judged.gauge_countMissed elapsed samples forPlay
  rw [hjudged] at hcounted
  dsimp only at hcounted
  generalize judged.countMissed elapsed samples forPlay = counted at hcounted ⊢
  cases forPlay with
  | false =>
    rw [if_neg Bool.false_ne_true, if_neg Bool.false_ne_true, if_neg Bool.false_ne_true]
    exact hcounted
  | true =>
    rw [if_pos rfl, if_pos rfl, if_pos rfl]
    have hplay : (counted.countPlayMissed elapsed judged.interval.streamUnprimed).gauge =
        { counted.gauge with
          playMissed := missedAfterGap counted.gauge.playMissed elapsed
          missUnconfirmed :=
            decide (missedAfterGap counted.gauge.playMissed elapsed > counted.gauge.playMissed) } :=
      rfl
    rw [hplay, hcounted]

theorem gauge_trackInterval (completion : Completion) :
    (s.trackInterval completion).gauge =
      s.gauge.track (decide (s.play.pendingFrames ≠ 0))
        (completion.frame.toUInt32 &&& usbFrameNumberMask) completion.tick := by
  unfold trackInterval Gauge.track
  dsimp only
  have hvalid : s.gauge.valid = s.interval.valid := rfl
  rw [hvalid]
  split
  · rfl
  · rw [gauge_judgeGap]
    rfl

/-! ## Completions -/

@[simp] theorem gauge_noteMismatch (reported : ByteCount) (confirmed : FrameCount) :
    (s.noteMismatch reported confirmed).gauge = s.gauge :=
  s.noteMismatch_kept reported confirmed fun _ _ => rfl

theorem gauge_retireWithin (limit : Nat) (s : UacStream) :
    (retireWithin limit s).gauge = s.gauge :=
  (s.retireWithin_credits limit).kept fun _ _ => rfl

/-- Whether a completion of this stream is one of its data completions. -/
def hears : Bool :=
  match s.counters.state with
  | .closed => false
  | .priming => s.inFlight
  | .streaming => true

theorem gauge_commit (completion : Completion) (level : ByteCount)
    (hopen : s.counters.state ≠ .closed) :
    (s.commit completion level).gauge =
      if s.hears then
        s.gauge.track (decide (s.play.pendingFrames ≠ 0))
          (completion.frame.toUInt32 &&& usbFrameNumberMask) completion.tick
      else s.gauge := by
  have hconfirmed : ((s.noteProgress completion.tick).confirmLoaded level).1 =
      if s.inFlight then chunkFrames else 0 := rfl
  have hgauge := gauge_noteMismatch ((s.noteProgress completion.tick).confirmLoaded level).2
    completion.sent (if s.inFlight then chunkFrames else 0)
  have hpending : (((s.noteProgress completion.tick).confirmLoaded level).2.noteMismatch
      completion.sent (if s.inFlight then chunkFrames else 0)).play.pendingFrames =
        s.play.pendingFrames :=
    noteMismatch_kept (f := fun noted => noted.play.pendingFrames) _ _ _ fun _ _ => rfl
  have hstate : (((s.noteProgress completion.tick).confirmLoaded level).2.noteMismatch
      completion.sent (if s.inFlight then chunkFrames else 0)).counters.state =
        s.counters.state :=
    noteMismatch_kept (f := fun noted => noted.counters.state) _ _ _ fun _ _ => rfl
  unfold commit
  dsimp only
  rw [hconfirmed]
  generalize ((s.noteProgress completion.tick).confirmLoaded level).2.noteMismatch
    completion.sent (if s.inFlight then chunkFrames else 0) = noted at hgauge hpending hstate ⊢
  rw [hstate]
  have hprimer : (s.counters.state = .priming ∧ (if s.inFlight then chunkFrames else 0) = 0) ↔
      s.hears = false := by
    unfold hears
    cases hs : s.counters.state with
    | closed => exact absurd hs hopen
    | priming => cases s.inFlight <;> decide
    | streaming => simp
  by_cases hhears : s.hears = true
  · rw [if_pos hhears, if_neg (mt hprimer.mp (by simp [hhears]))]
    have htracked := fun noted' => gauge_trackInterval noted' completion
    refine (gauge_retireWithin ..).trans ((htracked _).trans ?_)
    show noted.gauge.track (decide (noted.play.pendingFrames ≠ 0)) _ _ = _
    rw [hgauge, hpending]
    rfl
  · rw [if_neg hhears, if_pos (hprimer.mpr (by simpa using hhears))]
    exact hgauge

/-! ## Chunks queued -/

theorem gauge_topUpWithin {φ σ : Type} [InFifo φ] [FrameSource σ] (limit : Nat)
    (feed : Feed φ σ) : (topUpWithin limit feed).stream.gauge = feed.stream.gauge :=
  (topUpWithin_queues limit feed).kept fun _ _ => rfl

end UacStream

end WaveformGenerator.UsbAudio
