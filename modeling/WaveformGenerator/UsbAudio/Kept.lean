import WaveformGenerator.UsbAudio.Stream

/-!
# What a completion's parts leave alone

Judging a gap moves the counts of missed intervals and what locates them. Retiring a record moves
the records and the play's sent prefix, a mismatch its own marks, a top-up the queued chunks.
-/

namespace WaveformGenerator.UsbAudio.UacStream

/-! ## Judging a gap -/

/-- `s` with the counts of missed intervals, and what locates them, of `t`. -/
def withCounts (s t : UacStream) : UacStream :=
  { s with
    interval := t.interval
    playJudged := t.playJudged
    counters := { s.counters with
      missedIntervals := t.counters.missedIntervals
      unprimedIntervals := t.counters.unprimedIntervals
      lastMiss := t.counters.lastMiss
      maxGap := t.counters.maxGap }
    play := { s.play with
      missedIntervals := t.play.missedIntervals
      unprimedIntervals := t.play.unprimedIntervals
      firstMissFrameIndex := t.play.firstMissFrameIndex
      missUnconfirmed := t.play.missUnconfirmed } }

/-- `t` differs from `s` in those alone. -/
def Recounts (s t : UacStream) : Prop := t = s.withCounts t

variable {s t u : UacStream}

theorem Recounts.trans (h : s.Recounts t) (h' : t.Recounts u) : s.Recounts u := by
  unfold Recounts at *
  rw [h] at h'
  exact h'

/-- What does not read the counts is kept. -/
theorem Recounts.kept {α : Type} {f : UacStream → α} (h : s.Recounts t)
    (hf : ∀ s t : UacStream, f (s.withCounts t) = f s) : f t = f s :=
  (congrArg f h).trans (hf s t)

theorem takeBackLatestGap_recounts (s : UacStream) : s.Recounts s.takeBackLatestGap := by
  unfold takeBackLatestGap
  dsimp only
  split
  · rfl
  split
  · split <;> rfl
  · split <;> rfl

theorem locateMiss_recounts (s : UacStream) (added unprimed : IntervalCount) (forPlay : Bool) :
    s.Recounts (s.locateMiss added unprimed forPlay) := rfl

theorem countMissed_recounts (s : UacStream) (elapsed : UsbFrameSpan) (samples : GapSamples)
    (forPlay : Bool) : s.Recounts (s.countMissed elapsed samples forPlay) := by
  unfold countMissed
  dsimp only
  split
  · refine Recounts.trans ?_ (takeBackLatestGap_recounts _)
    rfl
  split
  · split
    · refine Recounts.trans (Recounts.trans ?_ (takeBackLatestGap_recounts _))
        (locateMiss_recounts ..)
      rfl
    · refine Recounts.trans ?_ (takeBackLatestGap_recounts _)
      rfl
  · split
    · rfl
    · rfl

theorem judgeGap_recounts (s : UacStream) (elapsed : UsbFrameSpan) (samples : GapSamples) :
    s.Recounts (s.judgeGap elapsed samples) := by
  have hjudged : s.Recounts (s.judgesForPlay elapsed).2 := rfl
  have hcounted := hjudged.trans
    (countMissed_recounts _ elapsed samples (s.judgesForPlay elapsed).1)
  unfold judgeGap
  dsimp only
  split
  · exact hcounted.trans rfl
  · exact hcounted

theorem trackInterval_recounts (s : UacStream) (completion : Completion) :
    s.Recounts (s.trackInterval completion) := by
  unfold trackInterval
  dsimp only
  split
  · rfl
  · refine Recounts.trans ?_ (judgeGap_recounts ..)
    rfl

/-! ## Retiring records -/

/-- `s` with the records and the play's sent prefix of `t`. -/
def withCredit (s t : UacStream) : UacStream :=
  { s with
    records := t.records
    play := { s.play with
      format := t.play.format
      fileFrames := t.play.fileFrames
      firstFrameIndex := t.play.firstFrameIndex
      firstFrameSof := t.play.firstFrameSof
      lastFrameIndex := t.play.lastFrameIndex
      crc32Left := t.play.crc32Left
      crc32Right := t.play.crc32Right
      pendingFrames := t.play.pendingFrames } }

/-- `t` differs from `s` in those alone. -/
def Credits (s t : UacStream) : Prop := t = s.withCredit t

theorem Credits.trans (h : s.Credits t) (h' : t.Credits u) : s.Credits u := by
  unfold Credits at *
  rw [h] at h'
  exact h'

/-- What reads neither the records nor the sent prefix is kept. -/
theorem Credits.kept {α : Type} {f : UacStream → α} (h : s.Credits t)
    (hf : ∀ s t : UacStream, f (s.withCredit t) = f s) : f t = f s :=
  (congrArg f h).trans (hf s t)

theorem apply_credits (s : UacStream) (record : ChunkRecord) : s.Credits (s.apply record) := by
  unfold apply
  dsimp only
  split
  · rfl
  · split <;> rfl

theorem retireWithin_credits (limit : Nat) (s : UacStream) : s.Credits (retireWithin limit s) := by
  induction limit generalizing s with
  | zero => rfl
  | succ limit ih =>
    unfold retireWithin
    cases s.records.front with
    | none => rfl
    | some oldest =>
      dsimp only
      split
      · rfl
      · have hpopped : (s.apply oldest).Credits
            { s.apply oldest with records := (s.apply oldest).records.pop } := rfl
        exact ((s.apply_credits oldest).trans hpopped).trans (ih _)

/-! ## Noting a mismatch -/

/-- `s` with the mismatches of `t`. -/
def withMismatches (s t : UacStream) : UacStream :=
  { s with
    counters := { s.counters with sentMismatches := t.counters.sentMismatches }
    playMismatched := t.playMismatched }

/-- What does not read the mismatches is kept. -/
theorem noteMismatch_kept {α : Type} {f : UacStream → α} (s : UacStream) (reported : ByteCount)
    (confirmed : FrameCount) (hf : ∀ s t : UacStream, f (s.withMismatches t) = f s) :
    f (s.noteMismatch reported confirmed) = f s := by
  have hnoted : s.noteMismatch reported confirmed =
      s.withMismatches (s.noteMismatch reported confirmed) := by
    unfold noteMismatch
    dsimp only
    split <;> rfl
  rw [hnoted]
  exact hf ..

/-! ## Queueing chunks -/

/-- `s` with what queueing chunks moves as in `t`. -/
def withQueued (s t : UacStream) : UacStream :=
  { s with
    records := t.records
    queuedCrcs := t.queuedCrcs
    chunk := t.chunk
    startAt := t.startAt
    counters := { s.counters with
      framesQueued := t.counters.framesQueued
      sourceFrames := t.counters.sourceFrames
      rejectedChunks := t.counters.rejectedChunks }
    play := { s.play with pendingFrames := t.play.pendingFrames } }

/-- `t` differs from `s` in those alone. -/
def Queues (s t : UacStream) : Prop := t = s.withQueued t

theorem Queues.trans (h : s.Queues t) (h' : t.Queues u) : s.Queues u := by
  unfold Queues at *
  rw [h] at h'
  exact h'

/-- What does not read the queued chunks is kept. -/
theorem Queues.kept {α : Type} {f : UacStream → α} (h : s.Queues t)
    (hf : ∀ s t : UacStream, f (s.withQueued t) = f s) : f t = f s :=
  (congrArg f h).trans (hf s t)

theorem startReached_queues (s : UacStream) : s.Queues s.startReached.2 := by
  unfold startReached
  split
  · rfl
  · split <;> rfl

theorem fill_queues {σ : Type} [FrameSource σ] (s : UacStream) (source : σ) :
    s.Queues (s.fill source).2.1 := by
  unfold fill
  dsimp only
  split
  · split
    · exact s.startReached_queues.trans rfl
    · exact s.startReached_queues.trans rfl
  · rfl

theorem queueChunk_queues {φ : Type} [InFifo φ] (s : UacStream) (fifo : φ)
    (fileFrames : FrameCount) : s.Queues (s.queueChunk fifo fileFrames).2.1 := by
  unfold queueChunk
  dsimp only
  split
  · rfl
  · split <;> rfl

theorem topUpWithin_queues {φ σ : Type} [InFifo φ] [FrameSource σ] (limit : Nat)
    (feed : Feed φ σ) : feed.stream.Queues (topUpWithin limit feed).stream := by
  induction limit generalizing feed with
  | zero => rfl
  | succ limit ih =>
    unfold topUpWithin
    dsimp only
    split
    · have hqueued := (fill_queues feed.stream feed.source).trans
        (queueChunk_queues (feed.stream.fill feed.source).2.1 feed.fifo
          (feed.stream.fill feed.source).1)
      split
      · exact hqueued.trans (ih _)
      · exact hqueued.trans rfl
    · rfl

end WaveformGenerator.UsbAudio.UacStream
