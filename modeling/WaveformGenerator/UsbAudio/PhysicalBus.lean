import WaveformGenerator.Lib.Guarded
import WaveformGenerator.UsbAudio.Attribution
import WaveformGenerator.UsbAudio.BusRun

/-!
# Runs on the physical bus

Completions come in bus intervals, in order, and each handler reads the number of an interval no
earlier than its own and no later than the next completion's. Alongside a run stands the newest
such reading of the open stream.
-/

namespace WaveformGenerator.UsbAudio

/-- A data completion's bus interval, the interval number its handler read, and the tick. -/
structure Poll where
  interval : Nat
  number : Nat
  tick : TickCount
  deriving DecidableEq

namespace Poll

/-- What the controller reports of it, with the `sent` bytes. -/
def completion (r : Poll) (sent : ByteCount) : Completion where
  sent := sent
  frame := .ofNat (r.number % 2048)
  tick := r.tick

/-- `r` comes in a later interval than `p`, whose number was read by then. -/
def Before (p r : Poll) : Prop := p.interval < r.interval ∧ p.number ≤ r.interval

/-- The ticks tell the gap from `p` to `r`. -/
def Told (p r : Poll) : Prop :=
  r.number - p.number < 2 ^ 32 ∧ r.number - p.number < (r.tick - p.tick).toNat + 1024 ∧
    (r.tick - p.tick).toNat < r.number - p.number + 1024

instance (p r : Poll) : Decidable (p.Before r) := inferInstanceAs (Decidable (_ ∧ _))

instance (p r : Poll) : Decidable (p.Told r) := inferInstanceAs (Decidable (_ ∧ _ ∧ _))

end Poll

/-- An operation, a completion with its reading. -/
inductive PolledOp (σ : Type)
  | txDone (sent : ByteCount) (poll : Poll) (source : σ)
  | other (op : Op σ) (isOther : ∀ completion source, op ≠ .txDone completion source)

def PolledOp.toOp {σ : Type} : PolledOp σ → Op σ
  | .txDone sent poll source => .txDone (poll.completion sent) source
  | .other op _ => op

structure PolledBus where
  bus : Bus := {}
  /-- The newest reading of the open stream's data completions. -/
  newest : Option Poll := none

namespace PolledBus

variable {σ : Type}

/-- The newest reading after the operation. -/
def note (w : PolledBus) : PolledOp σ → Option Poll
  | .txDone _ r _ => if w.bus.stream.hears then some r else w.newest
  | .other (.open format) _ =>
    if w.bus.stream.configured ∧ format ∈ streamFormats then none else w.newest
  | .other .. => w.newest

theorem note_txDone (w : PolledBus) (sent : ByteCount) (r : Poll) (source : σ) :
    w.note (.txDone sent r source) = if w.bus.stream.hears then some r else w.newest := rfl

theorem note_open (w : PolledBus) (format : StreamFormat)
    (isOther : ∀ completion (source : σ), Op.open format ≠ .txDone completion source) :
    w.note (.other (.open format) isOther) =
      if w.bus.stream.configured ∧ format ∈ streamFormats then none else w.newest := rfl

section

variable [FrameSource σ]

def step (w : PolledBus) (op : PolledOp σ) : PolledBus where
  bus := w.bus.step op.toOp
  newest := w.note op

def run (w : PolledBus) (ops : List (PolledOp σ)) : PolledBus := ops.foldl step w

end

/-- The operation keeps to the bus: a data completion reads a number of its own interval or later,
and comes after the one before it. -/
def Physical (w : PolledBus) : PolledOp σ → Prop
  | .txDone _ r _ => w.bus.stream.hears = true →
    r.interval ≤ r.number ∧ ∀ p ∈ w.newest, p.Before r
  | .other .. => True

/-- The ticks tell the gap that it ends. -/
def Told (w : PolledBus) : PolledOp σ → Prop
  | .txDone _ r _ => w.bus.stream.hears = true → ∀ p ∈ w.newest, p.Told r
  | .other .. => True

/-- The gap does not bring the count since boot round. -/
def Fits (w : PolledBus) : PolledOp σ → Prop
  | .txDone _ r _ => w.bus.stream.hears = true → ∀ p ∈ w.newest,
    w.bus.stream.counters.missedIntervals.toNat + (r.number - p.number - 1) < 2 ^ 32
  | .other .. => True

instance (w : PolledBus) : (op : PolledOp σ) → Decidable (w.Physical op)
  | .txDone _ r _ => inferInstanceAs (Decidable (w.bus.stream.hears = true →
    r.interval ≤ r.number ∧ ∀ p ∈ w.newest, p.Before r))
  | .other .. => .isTrue trivial

instance (w : PolledBus) : (op : PolledOp σ) → Decidable (w.Told op)
  | .txDone _ r _ =>
    inferInstanceAs (Decidable (w.bus.stream.hears = true → ∀ p ∈ w.newest, p.Told r))
  | .other .. => .isTrue trivial

instance (w : PolledBus) : (op : PolledOp σ) → Decidable (w.Fits op)
  | .txDone _ r _ => inferInstanceAs (Decidable (w.bus.stream.hears = true → ∀ p ∈ w.newest,
    w.bus.stream.counters.missedIntervals.toNat + (r.number - p.number - 1) < 2 ^ 32))
  | .other .. => .isTrue trivial

/-- All three. -/
def Admits (w : PolledBus) (op : PolledOp σ) : Prop := w.Physical op ∧ w.Told op ∧ w.Fits op

instance (w : PolledBus) (op : PolledOp σ) : Decidable (w.Admits op) :=
  inferInstanceAs (Decidable (_ ∧ _ ∧ _))

variable {w : PolledBus}

/-! ## The invariant -/

/-- The stream has heard the newest reading, its counts keep their parts, and while that reading is
of a later interval than its own, the latest gap counts one of what the stream has missed. -/
structure Tracks (w : PolledBus) : Prop where
  valid : w.bus.stream.interval.valid = w.newest.isSome
  last : ∀ p ∈ w.newest, w.bus.stream.interval.last.toNat % 2048 = p.number % 2048 ∧
    w.bus.stream.interval.lastTick = p.tick
  sound : w.bus.stream.attribution.Sound
  holds : ∀ p ∈ w.newest, p.interval < p.number → w.bus.stream.interval.streamMissed ≠ 0 →
    w.bus.stream.interval.latestGap.counted ≠ 0

theorem Tracks.initial : Tracks {} where
  valid := rfl
  last := nofun
  sound := ⟨Nat.le_refl _, Nat.le_refl _, Nat.le_refl _, Nat.le_refl _, Nat.le_refl _,
    fun h => absurd rfl h, Nat.le_refl _⟩
  holds := nofun

/-- What moves neither the interval, but for its samples, nor the counts keeps the readings. -/
theorem Tracks.kept (t : w.Tracks) {bus : Bus}
    (hinterval : { bus.stream.interval with samples := {} } =
      { w.bus.stream.interval with samples := {} }) (hsound : bus.stream.attribution.Sound) :
    Tracks { w with bus } := by
  have hvalid : bus.stream.interval.valid = w.bus.stream.interval.valid :=
    (congrArg IntervalTracker.valid hinterval :)
  have hlast : bus.stream.interval.last = w.bus.stream.interval.last :=
    (congrArg IntervalTracker.last hinterval :)
  have htick : bus.stream.interval.lastTick = w.bus.stream.interval.lastTick :=
    (congrArg IntervalTracker.lastTick hinterval :)
  have hmissed : bus.stream.interval.streamMissed = w.bus.stream.interval.streamMissed :=
    (congrArg IntervalTracker.streamMissed hinterval :)
  have hlatest : bus.stream.interval.latestGap = w.bus.stream.interval.latestGap :=
    (congrArg IntervalTracker.latestGap hinterval :)
  refine ⟨hvalid.trans t.valid, ?_, hsound, ?_⟩
  · rw [hlast, htick]
    exact t.last
  · rw [hmissed, hlatest]
    exact t.holds

/-- The gap to a reading is that of the numbers read. -/
theorem Tracks.gap (t : w.Tracks) {p r : Poll} (hnewest : p ∈ w.newest) (hbefore : p.Before r)
    (hread : r.interval ≤ r.number) (htold : p.Told r) (sent : ByteCount) :
    (w.bus.stream.gapTo (r.completion sent)).toNat = r.number - p.number := by
  obtain ⟨hlast, htick⟩ := t.last p hnewest
  have hearly := htold.2.1
  have hlate := htold.2.2
  rw [← htick] at hearly hlate
  exact dealiasedGap_numbers (hbefore.2.trans hread) htold.1 hearly hlate hlast

/-- A gap of zero frames comes only after a reading of a later interval, whose count it finds in the
latest gap. -/
theorem Tracks.countable (t : w.Tracks) {sent : ByteCount} {r : Poll} {source : σ}
    (hadmits : w.Admits (.txDone sent r source)) (hhears : w.bus.stream.hears = true)
    (hvalid : w.bus.stream.interval.valid = true) :
    w.bus.stream.Countable (w.bus.stream.gapTo (r.completion sent)) := by
  obtain ⟨hphysical, htold, hfits⟩ := hadmits
  rw [t.valid] at hvalid
  obtain ⟨p, hnewest⟩ := Option.isSome_iff_exists.mp hvalid
  obtain ⟨hread, hbefore⟩ := hphysical hhears
  have hgap := t.gap hnewest (hbefore p hnewest) hread (htold hhears p hnewest) sent
  refine ⟨fun hzero => t.holds p hnewest ?_, ?_⟩
  · have hlater := (hbefore p hnewest).1
    have hnumber := (hbefore p hnewest).2
    rw [hzero, UInt32.toNat_zero] at hgap
    omega
  · rw [hgap]
    exact hfits hhears p hnewest

/-- The stream's first data completion is heard. -/
theorem Tracks.first {s : UacStream} (hsound : s.attribution.Sound)
    (hvalid : s.interval.valid = false) {r : Poll} {sent : ByteCount} {bus : Bus}
    (hcounts : bus.stream.attribution = (s.trackInterval (r.completion sent)).attribution)
    (hinterval : bus.stream.interval = (s.trackInterval (r.completion sent)).interval) :
    Tracks { bus, newest := some r } := by
  have htracked : (s.trackInterval (r.completion sent)).attribution.Sound :=
    (UacStream.trackInterval_sound hsound fun h =>
      absurd (hvalid.symm.trans h) Bool.false_ne_true).1
  rw [UacStream.trackInterval_first hvalid] at hcounts hinterval htracked
  refine ⟨?_, ?_, ?_, ?_⟩
  · rw [hinterval]
    rfl
  · rintro _ ⟨⟩
    rw [hinterval]
    refine ⟨?_, rfl⟩
    show ((UInt16.ofNat (r.number % 2048)).toUInt32 &&& usbFrameNumberMask).toNat % 2048 = _
    rw [toNat_frameNumber, Nat.mod_mod]
  · rw [hcounts]
    exact htracked
  · rintro _ ⟨⟩ - hsome
    rw [hinterval] at hsome
    exact absurd rfl hsome

/-- Each later one ends a gap. -/
theorem Tracks.next {s : UacStream} (hsound : s.attribution.Sound)
    (hvalid : s.interval.valid = true) {p r : Poll} {sent : ByteCount}
    (hlast : s.interval.last.toNat % 2048 = p.number % 2048) (hbefore : p.Before r)
    (hread : r.interval ≤ r.number)
    (hgap : (s.gapTo (r.completion sent)).toNat = r.number - p.number)
    (hcountable : s.Countable (s.gapTo (r.completion sent)))
    (hholds : p.interval < p.number → s.interval.streamMissed ≠ 0 →
      s.interval.latestGap.counted ≠ 0) {bus : Bus}
    (hcounts : bus.stream.attribution = (s.trackInterval (r.completion sent)).attribution)
    (hinterval : bus.stream.interval = (s.trackInterval (r.completion sent)).interval) :
    Tracks { bus, newest := some r } := by
  have htracked := (UacStream.trackInterval_sound hsound fun _ => hcountable).1
  rw [UacStream.trackInterval_next hvalid] at hcounts hinterval htracked
  rw [UacStream.judgeGap_interval] at hinterval
  obtain ⟨ended, hended⟩ : ∃ ended, ended = (s.gapEnded (r.completion sent)).judgesForPlay
    (s.gapTo (r.completion sent)) := ⟨_, rfl⟩
  have hjudged : ended.2.interval = (s.gapEnded (r.completion sent)).interval := by
    rw [hended]
    rfl
  have hgauge := ended.2.gauge_countMissed (s.gapTo (r.completion sent)) s.interval.samples ended.1
  rw [← hended] at hinterval
  have hkept : ∀ {α : Type} (f : Gauge → α), (∀ g streamMissed missedIntervals,
      f { g with streamMissed, missedIntervals } = f g) →
      f (ended.2.countMissed (s.gapTo (r.completion sent)) s.interval.samples ended.1).gauge =
        f ended.2.gauge := fun f hf => by
    rw [hgauge]
    exact hf ..
  refine ⟨?_, ?_, ?_, ?_⟩
  · rw [hinterval]
    refine (hkept Gauge.valid fun _ _ _ => rfl).trans ?_
    show ended.2.interval.valid = true
    rw [hjudged]
    exact hvalid
  · rintro _ ⟨⟩
    rw [hinterval]
    refine ⟨?_, (hkept Gauge.lastTick fun _ _ _ => rfl).trans ?_⟩
    · have hlastKept : (ended.2.countMissed (s.gapTo (r.completion sent)) s.interval.samples
          ended.1).interval.last = s.interval.last + s.gapTo (r.completion sent) :=
        (hkept Gauge.last fun _ _ _ => rfl).trans (congrArg IntervalTracker.last hjudged)
      have hfitsGap := (s.gapTo (r.completion sent)).toNat_lt
      have hle := hbefore.2
      rw [hlastKept, UInt32.toNat_add, hgap]
      omega
    · exact congrArg IntervalTracker.lastTick hjudged
  · rw [hcounts]
    exact htracked
  · rintro _ ⟨⟩ hlate
    have hlater := hbefore.1
    have hnumber := hbefore.2
    rw [hinterval]
    have hstream : ended.2.interval.streamMissed = s.interval.streamMissed :=
      (congrArg IntervalTracker.streamMissed hjudged).trans rfl
    have hlatest : ended.2.interval.latestGap = s.interval.latestGap :=
      (congrArg IntervalTracker.latestGap hjudged).trans rfl
    have hpart := hsound.missedPart
    have hfits := hcountable.fits
    change s.interval.streamMissed.toNat ≤ s.counters.missedIntervals.toNat at hpart
    refine UacStream.countMissed_holds _ _ ?_ (fun hzero => ?_) fun hone => ?_
    · rw [hstream]
      omega
    · rw [hzero, UInt32.toNat_zero] at hgap
      omega
    · rw [hstream, hlatest]
      refine hholds ?_
      rw [hone, UInt32.toNat_one] at hgap
      omega

/-- Another stream opens, with nothing heard. -/
theorem Tracks.opened {s : UacStream} (hsound : s.attribution.Sound) {format : StreamFormat}
    {bus : Bus} (hqueues : (s.opened format).Queues bus.stream) :
    Tracks { bus, newest := none } := by
  have hcounts := hqueues.kept (f := UacStream.attribution) fun _ _ => rfl
  have hinterval : bus.stream.interval = {} :=
    hqueues.kept (f := UacStream.interval) fun _ _ => rfl
  refine ⟨?_, nofun, ?_, nofun⟩
  · rw [hinterval]
    rfl
  · rw [hcounts]
    exact ⟨Nat.le_refl _, Nat.le_refl _, Nat.le_refl _, Nat.zero_le _, hsound.sinceBoot_le,
      fun h => absurd rfl h, hsound.play⟩

/-! ## Every operation -/

variable [FrameSource σ]

/-- The stream after a completion is the one committed, but for the chunks queued. -/
theorem txDone_stream (completion : Completion) (source : σ)
    (hopen : w.bus.stream.counters.state ≠ .closed) :
    (w.bus.stream.commit completion
        (InFifo.queued (⟨w.bus.fifo.packets.tail⟩ : TinyUsbFifo))).Queues
      (w.bus.step (.txDone completion source)).stream := by
  show UacStream.Queues _
    (w.bus.stream.onTxDone (⟨w.bus.fifo.packets.tail⟩ : TinyUsbFifo) source completion).stream
  rw [UacStream.onTxDone, if_neg hopen]
  exact UacStream.topUpWithin_queues _ _

theorem Tracks.txDone (t : w.Tracks) {sent : ByteCount} {r : Poll} {source : σ}
    (hadmits : w.Admits (.txDone sent r source)) : (w.step (.txDone sent r source)).Tracks := by
  by_cases hclosed : w.bus.stream.counters.state = .closed
  · have hhears : w.bus.stream.hears = false := by
      rw [UacStream.hears, hclosed]
    have hkept : (w.bus.step (PolledOp.txDone sent r source).toOp).stream = w.bus.stream := by
      show (w.bus.stream.onTxDone (⟨w.bus.fifo.packets.tail⟩ : TinyUsbFifo) source _).stream = _
      rw [UacStream.onTxDone, if_pos hclosed]
    rw [step, note_txDone, hhears]
    exact t.kept (by rw [hkept]) (by rw [hkept]; exact t.sound)
  have hstream := w.txDone_stream (r.completion sent) source hclosed
  have hcounts := hstream.kept (f := UacStream.attribution) fun _ _ => rfl
  have hinterval := hstream.kept (f := UacStream.interval) fun _ _ => rfl
  rw [step, note_txDone]
  by_cases hhears : w.bus.stream.hears = true
  · rw [if_pos hhears]
    obtain ⟨noted, hnotedCounts, hnotedInterval, hcommitCounts, hcommitInterval⟩ :=
      UacStream.commit_tracks (r.completion sent)
        (InFifo.queued (⟨w.bus.fifo.packets.tail⟩ : TinyUsbFifo)) hhears
    have hcounts := hcounts.trans hcommitCounts
    have hinterval := hinterval.trans hcommitInterval
    have hsound : noted.attribution.Sound := by
      rw [hnotedCounts]
      exact t.sound
    cases hvalid : noted.interval.valid with
    | false => exact .first hsound hvalid hcounts hinterval
    | true =>
      have hwas : w.bus.stream.interval.valid = true := by rw [← hnotedInterval, hvalid]
      obtain ⟨p, hnewest⟩ := Option.isSome_iff_exists.mp (t.valid.symm.trans hwas)
      obtain ⟨hread, hbefore⟩ := hadmits.1 hhears
      have hgapTo : noted.gapTo (r.completion sent) =
          w.bus.stream.gapTo (r.completion sent) := by
        unfold UacStream.gapTo
        rw [hnotedInterval]
      have hgap := t.gap hnewest (hbefore p hnewest) hread (hadmits.2.1 hhears p hnewest) sent
      obtain ⟨htakes, hfits⟩ := t.countable hadmits hhears hwas
      refine .next hsound hvalid ?_ (hbefore p hnewest) hread ?_ ⟨?_, ?_⟩ ?_ hcounts hinterval
      · rw [hnotedInterval]
        exact (t.last p hnewest).1
      · rw [hgapTo]
        exact hgap
      · rw [hgapTo, hnotedInterval]
        exact htakes
      · have hmissed : noted.counters.missedIntervals = w.bus.stream.counters.missedIntervals :=
          congrArg Attribution.missed hnotedCounts
        rw [hgapTo, hmissed]
        exact hfits
      · rw [hnotedInterval]
        exact t.holds p hnewest
  · have hprimer := UacStream.commit_primer (r.completion sent)
      (InFifo.queued (⟨w.bus.fifo.packets.tail⟩ : TinyUsbFifo)) hclosed (by simpa using hhears)
    rw [if_neg hhears]
    refine t.kept (congrArg (fun i : IntervalTracker => { i with samples := {} })
      (hinterval.trans hprimer.2)) ?_
    show (w.bus.step (.txDone (r.completion sent) source)).stream.attribution.Sound
    rw [hcounts, hprimer.1]
    exact t.sound

theorem Tracks.step (t : w.Tracks) {op : PolledOp σ} (hadmits : w.Admits op) :
    (w.step op).Tracks := by
  cases op with
  | txDone sent r source => exact t.txDone hadmits
  | other op isOther =>
    have hs := t.sound
    cases op with
    | configure => exact t.kept rfl hs
    | deconfigure => exact t.kept rfl hs
    | close => exact t.kept rfl hs
    | txDone completion source => exact absurd rfl (isOther completion source)
    | «open» format =>
      rw [PolledBus.step, note_open]
      by_cases hopens : w.bus.stream.configured = true ∧ format ∈ streamFormats
      · have hbus := Bus.step_open (σ := σ) hopens.1 hopens.2
        rw [if_pos hopens]
        refine Tracks.opened t.sound (?_ : (w.bus.stream.opened format).Queues _)
        show (w.bus.stream.opened format).Queues (w.bus.step (.open format)).stream
        rw [hbus]
        exact UacStream.topUpWithin_queues ..
      · have hbus := Bus.step_open_refused (σ := σ) hopens
        rw [if_neg hopens]
        refine t.kept ?_ ?_
        · show { (w.bus.step (.open format)).stream.interval with samples := {} } = _
          rw [hbus]
        · show (w.bus.step (.open format)).stream.attribution.Sound
          rw [hbus]
          exact hs
    | acceptPlay =>
      by_cases hclosed : w.bus.stream.counters.state = .closed
      · have hbus : w.bus.step (.acceptPlay : Op σ) = w.bus := by
          unfold Bus.step UacStream.acceptPlay
          dsimp only
          rw [if_pos hclosed]
          rfl
        refine t.kept ?_ ?_
        · show { (w.bus.step .acceptPlay).stream.interval with samples := {} } = _
          rw [hbus]
        · show (w.bus.step .acceptPlay).stream.attribution.Sound
          rw [hbus]
          exact hs
      · have hstream : (w.bus.step (.acceptPlay : Op σ)).stream =
            { w.bus.stream.restartPlay w.bus.stream.counters.framesSent with
              playOpens := w.bus.stream.counters.opens } := by
          unfold Bus.step UacStream.acceptPlay
          dsimp only
          rw [if_neg hclosed]
          rfl
        refine t.kept ?_ ?_
        · show { (w.bus.step .acceptPlay).stream.interval with samples := {} } = _
          rw [hstream]
          rfl
        · show (w.bus.step .acceptPlay).stream.attribution.Sound
          rw [hstream]
          exact hs.restarted
    | clearPlay => exact t.kept rfl hs.restarted
    | arm now stallTimeout start =>
      refine t.kept ?_ ?_
      · show { (w.bus.stream.arm now stallTimeout start).2.interval with samples := {} } = _
        unfold UacStream.arm
        split <;> rfl
      · show (w.bus.stream.arm now stallTimeout start).2.attribution.Sound
        unfold UacStream.arm
        split <;> exact hs
    | disarm => exact t.kept rfl hs
    | onWatchdog transfer =>
      refine t.kept ?_ ?_
      · show { (w.bus.stream.onWatchdog transfer).interval with samples := {} } = _
        unfold UacStream.onWatchdog
        split <;> rfl
      · show (w.bus.stream.onWatchdog transfer).attribution.Sound
        unfold UacStream.onWatchdog
        split <;> exact hs

theorem Tracks.run (t : w.Tracks) {ops : List (PolledOp σ)}
    (admits : Guarded.Runs Admits PolledBus.step w ops) : (w.run ops).Tracks :=
  admits.invariant (fun _ _ t hadmits => t.step hadmits) t

/-! ## What the counts keep -/

/-- In every run on the bus whose gaps the ticks tell and which does not bring the count since boot
round, each count keeps its unprimed part, the latest gap its own, a take-back finds the late read
it undoes, and no update takes more out of a total than it holds. -/
theorem run_attributed (ops : List (PolledOp σ))
    (admits : Guarded.Runs Admits PolledBus.step {} ops) :
    let w := PolledBus.run {} ops
    let s := w.bus.stream
    (s.interval.streamUnprimed ≤ s.interval.streamMissed ∧
      s.counters.unprimedIntervals ≤ s.counters.missedIntervals ∧
      s.play.unprimedIntervals ≤ s.play.missedIntervals) ∧
    s.interval.latestGap.unprimed ≤ s.interval.latestGap.counted ∧
    (s.interval.latestGap.counted ≠ 0 →
      s.counters.lastMiss.unprimed = s.interval.latestGap.unprimed) ∧
    ∀ sent r (source : σ), w.Admits (.txDone sent r source) → s.hears = true →
      (s.interval.valid = true → s.gapTo (r.completion sent) = 0 →
        missedAfterGap s.interval.streamMissed 0 < s.interval.streamMissed →
        1 ≤ s.interval.latestGap.counted) ∧
      ∀ update ∈ s.trackUpdates (r.completion sent), update.part ≤ update.total := by
  intro w s
  have t : w.Tracks := Tracks.initial.run admits
  have hsound := t.sound
  refine ⟨⟨UInt32.le_iff_toNat_le.mpr hsound.stream_le, UInt32.le_iff_toNat_le.mpr
    hsound.sinceBoot_le, UInt32.le_iff_toNat_le.mpr hsound.play⟩,
    UInt32.le_iff_toNat_le.mpr hsound.gap, hsound.located, fun sent r source hadmits hhears => ?_⟩
  have hcountable : s.interval.valid = true → s.Countable (s.gapTo (r.completion sent)) :=
    t.countable hadmits hhears
  refine ⟨fun hheard hzero hlowers => ?_, fun update hmem => ?_⟩
  · have hsome : s.interval.streamMissed ≠ 0 := fun hnone => by
      rw [hnone] at hlowers
      exact absurd hlowers (by decide)
    have hcounts := (hcountable hheard).takes hzero hsome
    rw [UInt32.le_iff_toNat_le, UInt32.toNat_one]
    exact Nat.one_le_iff_ne_zero.mpr fun h => hcounts (UInt32.toNat_inj.mp h)
  · exact UInt32.le_iff_toNat_le.mpr
      ((UacStream.trackInterval_sound hsound hcountable).2 update hmem)

/-- A completion of an armed play, read at `number`. -/
def polled (interval number tick : Nat) (frames : FrameCount) : PolledOp ZeroSource :=
  .txDone 384 ⟨interval, number, .ofNat tick⟩ ⟨frames⟩

def expired : PolledOp ZeroSource := .other (.onWatchdog .unprimed) nofun

def playing : List (PolledOp ZeroSource) :=
  [.other .configure nofun, .other (.open pcm24Stereo) nofun, .other .acceptPlay nofun,
    .other (.arm 0 0 none) nofun]

/-- A held-off gap, then a read four intervals late, which the next completion catches up with. -/
def heldOff : List (PolledOp ZeroSource) :=
  playing ++ [polled 0 0 0 48, polled 1 1 1 48, expired, polled 4 4 4 48, polled 5 9 9 48]

theorem run_attributed_heldOff :
    ((PolledBus.run {} heldOff).bus.stream.trackUpdates ((⟨9, 9, 9⟩ : Poll).completion 384)).all
      (fun update => decide (update.part ≤ update.total)) = true := by
  have hattributed := run_attributed heldOff (by decide +kernel)
  have hadmits : (PolledBus.run {} heldOff).Admits
      (PolledOp.txDone 384 ⟨9, 9, 9⟩ (⟨48⟩ : ZeroSource)) := by decide +kernel
  have hhears : (PolledBus.run {} heldOff).bus.stream.hears = true := by decide +kernel
  generalize PolledBus.run {} heldOff = w at hattributed hadmits hhears ⊢
  have hparts := (hattributed.2.2.2 384 ⟨9, 9, 9⟩ ⟨48⟩ hadmits hhears).2
  exact List.all_eq_true.mpr fun update hmem => decide_eq_true (hparts update hmem)

/-- Two gaps of 3 * 10^9 intervals, the first held off. -/
def comesRound : List (PolledOp ZeroSource) :=
  playing ++ [polled 0 0 0 0, polled 1 1 1 0, expired, polled 3000000001 3000000001 3000000001 0,
    polled 6000000001 6000000001 6000000001 0]

/-- Skips, and then gaps of 2048 intervals in which the ticks stand still. -/
def untold : List (PolledOp ZeroSource) :=
  playing ++ [polled 0 0 0 0, polled 1 1 1 0, polled 4 4 4 0, polled 5 6 6 0, polled 2054 2054 6 0]

/-- The counts fall below their unprimed parts once they come round, and a gap that the ticks do not
tell is taken back where there is nothing to take. -/
theorem attribution_lost :
    (Guarded.Runs (fun w op => w.Physical op ∧ w.Told op) PolledBus.step {} comesRound ∧
      (PolledBus.run {} comesRound).bus.stream.interval.streamMissed <
        (PolledBus.run {} comesRound).bus.stream.interval.streamUnprimed ∧
      (PolledBus.run {} comesRound).bus.stream.counters.missedIntervals <
        (PolledBus.run {} comesRound).bus.stream.counters.unprimedIntervals) ∧
    (Guarded.Runs (fun w op => w.Physical op ∧ w.Fits op) PolledBus.step {} untold ∧
      (PolledBus.run {} untold).Physical (polled 4102 4102 6 0) ∧
      (PolledBus.run {} untold).bus.stream.gapTo ((⟨4102, 4102, 6⟩ : Poll).completion 384) = 0 ∧
      missedAfterGap (PolledBus.run {} untold).bus.stream.interval.streamMissed 0 <
        (PolledBus.run {} untold).bus.stream.interval.streamMissed ∧
      (PolledBus.run {} untold).bus.stream.interval.latestGap.counted = 0) := by
  decide +kernel

end PolledBus

end WaveformGenerator.UsbAudio
