import WaveformGenerator.SignalLab.LiveControl

/-!
# The fade stage (`signal-lab/src/fade.cpp`)

A schedule yields the start frames of fades one after another. `process` cuts each block into
segments at the starts and the ends of the fades, and multiplies each segment by the gain of every
fade that is active in it. Its loops are bounded here by a number of turns; a run that would need
more, or that would touch a sample outside the block, ends in a `FadeFault` in place of a result.
-/

namespace WaveformGenerator.SignalLab

def maxEvents : Nat := 32
def maxActiveFades : Nat := 8

inductive FadeSchedule
  | explicitStarts
  | periodic
  | poisson
  deriving DecidableEq, Repr

section
variable (R : Type) [Det R]

structure Window where
  startSeconds : R := 0.0
  hasDuration : Bool := false
  durationSeconds : R := 0.0

structure FadeParams where
  depthDb : R := 0.0
  rectangular : Bool := false
  explicitShape : Bool := false
  attackMs : R := 0.0
  holdMs : R := 0.0
  recoveryMs : R := 0.0
  durationMs : R := 0.0
  schedule : FadeSchedule := .periodic
  startsSeconds : Vector R maxEvents := .replicate maxEvents 0.0
  startCount : UInt32 := 0
  hasFirst : Bool := false
  firstSeconds : R := 0.0
  periodSeconds : R := 10.0
  hasCount : Bool := false
  count : UInt32 := 0
  ratePerSec : R := 0.0
  window : Window R := {}

end

/-- What a stage is prepared with, as far as a fade reads it. -/
structure StageContext where
  totalFrames : UInt64 := 0
  seed : UInt64 := 0
  index : UInt32 := 0
  streamId : UInt32 := 0

structure StageRandomKey where
  seed : UInt64
  index : UInt32

def streamIdentityDomain : UInt64 := 0x5746475354524D31

def resolveStageRandomKey (masterSeed : UInt64) (stageIndex streamId : UInt32) : StageRandomKey :=
  if streamId = 0 then ⟨masterSeed, stageIndex⟩
  else ⟨(Pcg32.splitmix64 (masterSeed ^^^ streamIdentityDomain ^^^ streamId.toUInt64)).1, 0⟩

def StageContext.randomKey (context : StageContext) : StageRandomKey :=
  resolveStageRandomKey context.seed context.index context.streamId

variable {R : Type} [Det R]

/-- The window's start and end; the end is `unboundedFrames` when it is open. -/
def resolveWindow (window : Window R) (totalFrames : UInt64) : UInt64 × UInt64 :=
  let start := Det.secondsToFrames window.startSeconds sampleRateHz
  let «end» :=
    if window.hasDuration then
      let «end» := start + Det.secondsToFrames window.durationSeconds sampleRateHz
      if totalFrames ≠ 0 ∧ «end» > totalFrames then totalFrames else «end»
    else
      if totalFrames ≠ 0 then totalFrames else unboundedFrames
  (start, if «end» < start then start else «end»)

/-! ## Validation -/

def maximumSeconds : R := 1000000000.0

def inRange (value low high : R) : Bool :=
  Det.isFinite value && !Det.lt value low && !Det.lt high value

def validWindow (window : Window R) : Bool :=
  inRange window.startSeconds 0.0 maximumSeconds &&
    (!window.hasDuration || inRange window.durationSeconds 0.0 maximumSeconds)

def invalidScenario (message : String) : Status := { code := .invalidConfiguration, message }

/-- The explicit start times that are read. -/
def FadeParams.starts (p : FadeParams R) : List R := p.startsSeconds.toList.take p.startCount.toNat

/-- The fade case of `validate_scenario`. -/
def validateFade (p : FadeParams R) : Status :=
  if p.startCount.toNat > maxEvents || !inRange p.depthDb 0.0 120.0 || !validWindow p.window ||
      !inRange p.attackMs 0.0 maximumSeconds || !inRange p.holdMs 0.0 maximumSeconds ||
      !inRange p.recoveryMs 0.0 maximumSeconds || !inRange p.durationMs 0.0 maximumSeconds ||
      !inRange p.firstSeconds 0.0 maximumSeconds then
    invalidScenario "invalid fade shape or event count"
  else
    match p.schedule with
    | .explicitStarts =>
      if p.starts.all (inRange · 0.0 maximumSeconds) then .success
      else invalidScenario "invalid fade start time"
    | .periodic =>
      if inRange p.periodSeconds (1.0 / Det.ofInt sampleRateHz.toNat) maximumSeconds then .success
      else invalidScenario "invalid fade period"
    | .poisson =>
      if inRange p.ratePerSec 0.000001 (Det.ofInt sampleRateHz.toNat) then .success
      else invalidScenario "invalid fade rate"

/-! ## The stage -/

section
variable (R)

/-- What `prepare` fixes for the whole stream. -/
structure FadeSetup where
  params : FadeParams R
  attack : UInt64
  hold : UInt64
  recovery : UInt64
  length : UInt64
  depthScale : R
  windowStart : UInt64
  windowEnd : UInt64
  totalFrames : UInt64

/-- The schedule's place: the next start, or that there is none. -/
structure FadeArrivals where
  rng : Pcg32
  position : R
  nextPeriodic : UInt64
  explicitIndex : Nat := 0
  emitted : UInt32 := 0
  pending : UInt64 := 0
  exhausted : Bool := false
  scheduled : UInt32 := 0

structure FadeImpairment where
  setup : FadeSetup R
  arrivals : FadeArrivals R
  /-- The used part of `active_`: the start frames of the active fades. -/
  active : List UInt64 := []
  applied : UInt32 := 0
  dropped : UInt32 := 0
  componentFrames : UInt64 := 0
  minimumGain : R := 1.0

end

namespace FadeSetup

/-- The explicit starts from `explicitIndex` on: those past the stream's end are skipped. -/
def advanceExplicit (setup : FadeSetup R) : List R → FadeArrivals R → FadeArrivals R
  | [], arrivals => { arrivals with exhausted := true }
  | seconds :: rest, arrivals =>
    let frame := Det.secondsToFrames seconds sampleRateHz
    let arrivals := { arrivals with explicitIndex := arrivals.explicitIndex + 1 }
    if setup.totalFrames = 0 ∨ frame < setup.totalFrames then
      { arrivals with pending := frame, scheduled := arrivals.scheduled + 1 }
    else
      setup.advanceExplicit rest arrivals

def advancePoisson (setup : FadeSetup R) (arrivals : FadeArrivals R) : FadeArrivals R :=
  let (gap, rng) : R × Pcg32 := arrivals.rng.exponential
    (Det.ofInt sampleRateHz.toNat / setup.params.ratePerSec)
  let arrivals : FadeArrivals R := { arrivals with position := arrivals.position + gap, rng }
  let rounded := Det.roundHalfEven arrivals.position
  if Det.lt (Det.ofFrames setup.windowEnd) rounded || rounded == Det.ofFrames setup.windowEnd ||
      Det.lt rounded 0.0 then
    { arrivals with exhausted := true }
  else
    { arrivals with pending := Det.toUInt64 rounded, scheduled := arrivals.scheduled + 1 }

def period (setup : FadeSetup R) : UInt64 :=
  Det.secondsToFrames setup.params.periodSeconds sampleRateHz

def advancePeriodic (setup : FadeSetup R) (arrivals : FadeArrivals R) : FadeArrivals R :=
  if setup.period = 0 ∨ arrivals.nextPeriodic ≥ setup.windowEnd ∨
      (setup.params.hasCount ∧ arrivals.emitted ≥ setup.params.count) ∨
      (setup.totalFrames ≠ 0 ∧ arrivals.nextPeriodic ≥ setup.totalFrames) then
    { arrivals with exhausted := true }
  else
    { arrivals with
      pending := arrivals.nextPeriodic
      nextPeriodic := arrivals.nextPeriodic + setup.period
      emitted := arrivals.emitted + 1
      scheduled := arrivals.scheduled + 1 }

def advancePending (setup : FadeSetup R) (arrivals : FadeArrivals R) : FadeArrivals R :=
  match setup.params.schedule with
  | .explicitStarts =>
    setup.advanceExplicit (setup.params.starts.drop arrivals.explicitIndex) arrivals
  | .poisson => setup.advancePoisson arrivals
  | .periodic => setup.advancePeriodic arrivals

/-- The gain of a fade in its frame `u`. -/
def gain (setup : FadeSetup R) (u : UInt64) : R :=
  let depth : R :=
    if u < setup.attack then
      0.5 * (1.0 - Det.cos (Det.pi * Det.ofFrames u / Det.ofFrames setup.attack))
    else if u ≥ setup.attack + setup.hold then
      0.5 * (1.0 + Det.cos
        (Det.pi * (Det.ofFrames (u - setup.attack - setup.hold) / Det.ofFrames setup.recovery)))
    else
      1.0
  Det.exp (setup.depthScale * depth)

end FadeSetup

namespace FadeImpairment

def fadeTooShort : Status :=
  { code := .invalidConfiguration, message := "fade duration must span at least one sample" }

/-- The frames of attack, hold and recovery. -/
def shape (p : FadeParams R) : UInt64 × UInt64 × UInt64 :=
  let (attack, hold, recovery) :=
    if p.explicitShape then
      (Det.secondsToFrames (p.attackMs / 1000.0) sampleRateHz,
        Det.secondsToFrames (p.holdMs / 1000.0) sampleRateHz,
        Det.secondsToFrames (p.recoveryMs / 1000.0) sampleRateHz)
    else
      let total := Det.secondsToFrames (p.durationMs / 1000.0) sampleRateHz
      if p.rectangular then (0, total, 0) else (total / 4, total - total / 4 - total / 4, total / 4)
  if p.rectangular then (0, hold + (attack + recovery), 0) else (attack, hold, recovery)

def prepare (p : FadeParams R) (context : StageContext) : Result (FadeImpairment R) :=
  let (attack, hold, recovery) := shape p
  let length := attack + hold + recovery
  if length = 0 then
    .error fadeTooShort
  else
    let (windowStart, windowEnd) := resolveWindow p.window context.totalFrames
    let key := context.randomKey
    let setup : FadeSetup R :=
      { params := p, attack, hold, recovery, length
        depthScale := -p.depthDb * (Det.ln10 / 20.0)
        windowStart, windowEnd
        totalFrames := context.totalFrames }
    let arrivals : FadeArrivals R :=
      { rng := Pcg32.reseed key.seed 8 key.index
        position := Det.ofFrames windowStart
        nextPeriodic :=
          if p.hasFirst then Det.secondsToFrames p.firstSeconds sampleRateHz else windowStart }
    .ok { setup, arrivals := setup.advancePending arrivals }

end FadeImpairment

/-! ## Processing -/

/-- What ends a run here: a touched sample outside the block, or a loop that has not come to its end
within its turns. -/
inductive FadeFault
  | outside
  | unfinished
  deriving DecidableEq, Repr

/-- What `process` leaves behind, with the cursor and the segment end of each pass. -/
structure FadeBlock (R : Type) [Det R] where
  stage : FadeImpairment R
  block : List R
  passes : List (UInt64 × UInt64) := []

namespace FadeImpairment

/-- The fades that have not ended at the cursor. -/
def retire (f : FadeImpairment R) (cursor : UInt64) : FadeImpairment R :=
  { f with active := f.active.filter fun start => decide (start + f.setup.length > cursor) }

/-- The pending start is taken, or dropped for want of a slot, and the next one is pending. -/
def take (f : FadeImpairment R) : FadeImpairment R :=
  let f :=
    if f.active.length < maxActiveFades then
      { f with active := f.active ++ [f.arrivals.pending], applied := f.applied + 1 }
    else
      { f with dropped := f.dropped + 1 }
  { f with arrivals := f.setup.advancePending f.arrivals }

/-- Takes the starts up to the cursor. -/
def takeDue (cursor : UInt64) : Nat → FadeImpairment R → Except FadeFault (FadeImpairment R)
  | 0, _ => .error .unfinished
  | turns + 1, f =>
    if !f.arrivals.exhausted && decide (f.arrivals.pending ≤ cursor) then
      takeDue cursor turns f.take
    else
      .ok f

/-- The first of the block's end, the pending start and the active fades' ends. -/
def segmentEnd (f : FadeImpairment R) (blockEnd : UInt64) : UInt64 :=
  f.active.foldl
    (fun segmentEnd start =>
      if start + f.setup.length < segmentEnd then start + f.setup.length else segmentEnd)
    (if !f.arrivals.exhausted && decide (f.arrivals.pending < blockEnd) then f.arrivals.pending
      else blockEnd)

/-- One sample of the block is multiplied by the gain of the fade that began at `start`. -/
def scaleFrame (first start absolute : UInt64) (out : FadeBlock R) :
    Except FadeFault (FadeBlock R) :=
  let index := (absolute - first).toNat
  match out.block[index]? with
  | none => .error .outside
  | some sample =>
    let gain := out.stage.setup.gain (absolute - start)
    .ok { out with
      block := out.block.set index (Det.single (sample * gain))
      stage := { out.stage with
        componentFrames := out.stage.componentFrames + 1
        minimumGain := if Det.lt gain out.stage.minimumGain then gain
          else out.stage.minimumGain } }

/-- The next `count` frames from `absolute` on. -/
def scaleFrames (first start : UInt64) :
    Nat → UInt64 → FadeBlock R → Except FadeFault (FadeBlock R)
  | 0, _, out => .ok out
  | count + 1, absolute, out => do
    let out ← scaleFrame first start absolute out
    scaleFrames first start count (absolute + 1) out

/-- The segment, by each active fade in turn. -/
def scaleSegment (first cursor segmentEnd : UInt64) :
    List UInt64 → FadeBlock R → Except FadeFault (FadeBlock R)
  | [], out => .ok out
  | start :: rest, out => do
    let out ← scaleFrames first start (segmentEnd.toNat - cursor.toNat) cursor out
    scaleSegment first cursor segmentEnd rest out

/-- One pass of the segment loop. -/
def pass (turns : Nat) (first blockEnd cursor : UInt64) (out : FadeBlock R) :
    Except FadeFault (UInt64 × FadeBlock R) := do
  let f ← takeDue cursor turns (out.stage.retire cursor)
  let segmentEnd := f.segmentEnd blockEnd
  let out ← scaleSegment first cursor segmentEnd f.active
    { out with stage := f, passes := out.passes ++ [(cursor, segmentEnd)] }
  .ok (segmentEnd, out)

def segments (turns : Nat) (first blockEnd : UInt64) :
    Nat → UInt64 → FadeBlock R → Except FadeFault (FadeBlock R)
  | 0, _, _ => .error .unfinished
  | passes + 1, cursor, out =>
    if cursor < blockEnd then do
      let (cursor, out) ← pass turns first blockEnd cursor out
      segments turns first blockEnd passes cursor out
    else
      .ok out

/-- A block, each of whose loops has `turns` turns. -/
def process (turns : Nat) (f : FadeImpairment R) (block : List R) (firstInputFrame : UInt64) :
    Except FadeFault (FadeBlock R) :=
  segments turns firstInputFrame (firstInputFrame + .ofNat block.length) turns firstInputFrame
    { stage := f, block }

/-- The stream cut into blocks, from the frame `first` on. -/
def processBlocks (turns : Nat) :
    FadeImpairment R → UInt64 → List (List R) → Except FadeFault (List (FadeBlock R))
  | _, _, [] => .ok []
  | f, first, block :: blocks => do
    let out ← f.process turns block first
    let rest ← processBlocks turns out.stage (first + .ofNat block.length) blocks
    .ok (out :: rest)

end FadeImpairment

end WaveformGenerator.SignalLab
