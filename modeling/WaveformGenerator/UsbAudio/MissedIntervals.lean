import WaveformGenerator.Player.LoopedItem
import WaveformGenerator.UsbAudio.Tracking

/-!
# Missed intervals, counted and confirmed

What the counts promise over every run whose completions can be dated, and where late reads still
mislead them.
-/

namespace WaveformGenerator.UsbAudio.Watch

variable {σ : Type} [FrameSource σ]

/-- A completion read on time, or one interval late. -/
def completion (interval : Nat) (late : Bool) (frames : FrameCount) : TimedOp ZeroSource :=
  .txDone 384 ⟨interval, late, .ofNat interval⟩ ⟨frames⟩

/-- A play begins on a new stream. -/
def playBegins : List (TimedOp ZeroSource) :=
  [.other .configure rfl, .other (.open pcm24Stereo) rfl, .other .acceptPlay rfl,
    .other (.arm 0 0 none) rfl]

/-! ## The stream's count -/

/-- The stream's count is at most one high, for its latest read, and at most one low, for its
first. -/
theorem run_accurate (ops : List (TimedOp σ)) (timely : Timely {} ops) :
    let w := run {} ops
    w.bus.stream.counters.missedIntervals =
        w.missedBefore + w.bus.stream.interval.streamMissed ∧
      (Reading.Fits w.reads → ∀ newest ∈ w.reads.head?, ∀ oldest ∈ w.reads.getLast?,
        Reading.skipped w.reads + newest.late.toNat ≤
            w.bus.stream.interval.streamMissed.toNat + oldest.late.toNat ∧
          w.bus.stream.interval.streamMissed.toNat ≤
            Reading.skipped w.reads + newest.late.toNat) := by
  intro w
  have t : w.Tracks := Tracks.initial.run timely
  exact ⟨t.count, t.accurate⟩

/-- A late first read, a skip, and a late read taken back. -/
def firstReadLate : List (TimedOp ZeroSource) :=
  playBegins ++ [completion 0 false 48, completion 1 true 48, completion 2 false 48,
    completion 5 true 48, completion 6 false 48]

theorem run_accurate_firstReadLate :
    Reading.skipped (run {} firstReadLate).reads + false.toNat ≤
        (run {} firstReadLate).bus.stream.interval.streamMissed.toNat + true.toNat ∧
      (run {} firstReadLate).bus.stream.interval.streamMissed.toNat ≤
        Reading.skipped (run {} firstReadLate).reads + false.toNat := by
  have hfits : Reading.Fits (run {} firstReadLate).reads := by decide +kernel
  have hnewest : ⟨6, false, 6⟩ ∈ (run {} firstReadLate).reads.head? := by decide +kernel
  have holdest : ⟨1, true, 1⟩ ∈ (run {} firstReadLate).reads.getLast? := by decide +kernel
  have haccurate := run_accurate firstReadLate (by decide +kernel)
  generalize run {} firstReadLate = w at hfits hnewest holdest haccurate ⊢
  exact haccurate.2 hfits _ hnewest _ holdest

/-- Two gaps of 3 * 10^9 intervals: the count comes round. -/
theorem count_comes_round :
    let ops := playBegins ++ [completion 0 false 0, completion 1 false 0,
      completion 3000000001 false 0, completion 6000000001 false 0]
    Timely {} ops ∧
      (run {} ops).reads.head? = some ⟨6000000001, false, .ofNat 6000000001⟩ ∧
      (run {} ops).reads.getLast? = some ⟨1, false, 1⟩ ∧
      Reading.skipped (run {} ops).reads = 5999999998 ∧
      (run {} ops).bus.stream.interval.streamMissed.toNat = 1705032702 := by
  decide +kernel

/-! ## The play's count -/

/-- The confirmed count exceeds the intervals skipped over the judged gaps by no more than the late
reads left in it, except right after a late read that followed a counted late one. -/
theorem run_confirmed (ops : List (TimedOp σ)) (timely : Timely {} ops) :
    let w := run {} ops
    w.judged.passedOn = false →
      (confirmedMissed w.bus.stream.play).toNat ≤ w.judged.skipped + w.judged.leftLate ∧
      (w.judged.skipped = 0 → w.judged.leftLate = 0 →
        ∀ watch usbRoute asserts, Player.loopedAnomaly watch usbRoute w.bus.stream asserts ≠
          some .missedInterval) := by
  intro w hpassed
  have t : w.Tracks := Tracks.initial.run timely
  have hconfirmed : (confirmedMissed w.bus.stream.play).toNat ≤
      w.judged.skipped + w.judged.leftLate := t.bounds.confirmed hpassed
  refine ⟨hconfirmed, fun hskipped hleft => ?_⟩
  have hzero : confirmedMissed w.bus.stream.play = 0 := by
    rw [hskipped, hleft] at hconfirmed
    exact UInt32.toNat_inj.mp (Nat.le_zero.mp hconfirmed)
  exact Player.loopedAnomaly_ne_missedInterval hzero

/-- A skip, and a late read between timely ones. -/
def lateReadAlone : List (TimedOp ZeroSource) :=
  playBegins ++ [completion 0 false 48, completion 1 false 48, completion 2 false 48,
    completion 4 false 48, completion 5 true 48, completion 6 false 48]

theorem run_confirmed_lateReadAlone :
    (confirmedMissed (run {} lateReadAlone).bus.stream.play).toNat ≤
      (run {} lateReadAlone).judged.skipped + (run {} lateReadAlone).judged.leftLate :=
  (run_confirmed lateReadAlone (by decide +kernel) (by decide +kernel)).1

/-- Two late reads in a row. -/
def lateReadsInRow : List (TimedOp ZeroSource) :=
  playBegins ++ [completion 0 false 48, completion 1 false 48, completion 2 true 48,
    completion 3 true 48]

/-- A late read of the completion that confirms the last file frame, then a skip. -/
def lateReadLast : List (TimedOp ZeroSource) :=
  playBegins ++ [completion 0 false 48, completion 1 false 0, completion 2 false 0,
    completion 3 true 0, completion 5 false 0]

/-- A miss is confirmed though the judged gaps skipped nothing. -/
theorem late_read_confirmed :
    (Timely {} lateReadLast ∧ (run {} lateReadLast).judged.skipped = 0 ∧
      confirmedMissed (run {} lateReadLast).bus.stream.play = 1) ∧
    (Timely {} lateReadsInRow ∧ Reading.skipped (run {} lateReadsInRow).reads = 0 ∧
      (run {} lateReadsInRow).judged.skipped = 0 ∧
      confirmedMissed (run {} lateReadsInRow).bus.stream.play = 1 ∧
      Player.loopedAnomaly { looped := true } true (run {} lateReadsInRow).bus.stream 0 =
        some .missedInterval) := by
  decide +kernel

end WaveformGenerator.UsbAudio.Watch
