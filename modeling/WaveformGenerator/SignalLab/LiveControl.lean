import WaveformGenerator.Common.Status
import WaveformGenerator.Lib.Insertion
import WaveformGenerator.SignalLab.Det

/-!
# The live controller (`signal-lab/src/live_control.cpp`)

Controls are queued for absolute output frames, captured in the order they were accepted, and
applied by `process` before the frame they name. `process` returns, beside the block it leaves
behind, the `Act`s its loop went through: which event it applied at which frame, and which frames
it emitted.
-/

namespace WaveformGenerator.SignalLab

def sampleRateHz : UInt32 := 48000
def engineCapacityFrames : Nat := 2304
def unboundedFrames : UInt64 := 0xFFFFFFFFFFFFFFFF

def livePendingCapacity : Nat := 64
def liveCaptureCapacity : Nat := 128
def liveSweepCapacity : Nat := 16
def liveStaticCapacity : Nat := 12
def liveCwCapacity : Nat := 4

def staticTauFrames : UInt64 := 960
def staticLengthFrames : UInt64 := 8 * staticTauFrames

inductive ControlKind
  | cwEnable
  | cwFrequency
  | cwCi
  | staticEnable
  | staticRate
  | staticPeak
  | fadeNow
  deriving DecidableEq, Repr

structure ControlEvent (R : Type) where
  frame : UInt64 := 0
  kind : ControlKind := .cwEnable
  value : R
  durationFrames : UInt64 := 0
  oscillator : UInt32 := 0

structure ControlSweep (R : Type) where
  firstFrame : UInt64 := 0
  kind : ControlKind := .cwFrequency
  values : Vector R liveSweepCapacity
  count : Nat := 0
  stepFrames : UInt64 := 0
  fadeDurationFrames : UInt64 := 0
  oscillator : UInt32 := 0

namespace ControlRefusal

def notConfigured : Status := { code := .unavailable, message := "not_configured" }
def invalidEvent : Status := { code := .invalidArgument, message := "invalid_event" }
def lateEvent : Status := { code := .timeout, message := "late_event" }
def pendingFull : Status := { code := .busy, message := "pending_full" }
def captureFull : Status := { code := .bufferTooSmall, message := "capture_full" }

end ControlRefusal

def notConfigured : Status :=
  { code := .unavailable, message := "live controller is not configured" }

def refused (message : String) : Status := { code := .invalidArgument, message }

section
variable (R : Type) [Det R]

structure LiveOscillatorState where
  enabled : Bool := false
  frequencyHz : R := 1800.0
  ciDb : R := 3.0

structure LiveState where
  cw : List (LiveOscillatorState R) := .replicate liveCwCapacity {}
  staticEnabled : Bool := false
  staticRatePerSecond : R := 1.0
  staticPeakDb : R := 20.0
  fadeActive : Bool := false
  fadeDepthDb : R := 0.0
  fadeStartFrame : UInt64 := 0
  fadeDurationFrames : UInt64 := 0

structure LiveStats where
  frames : UInt64 := 0
  outputDigest : UInt64 := 0
  clippedSamples : UInt64 := 0
  staticEventsStarted : UInt64 := 0
  staticEventsDropped : UInt64 := 0
  controlsAccepted : UInt32 := 0
  controlsApplied : UInt32 := 0
  peak : R := 0.0
  outputEnergy : R := 0.0

structure StaticCrash where
  endFrame : UInt64 := 0
  amplitude : R := 0.0
  envelope : R := 0.0
  phase : R := 0.0
  active : Bool := false

/-- `capture` is the used part of `capture_`, `pending` that of `pending_`: places in `capture`. -/
structure LiveController where
  configured : Bool := false
  seed : UInt64 := 0
  referenceRms : R := 0.0
  state : LiveState R := {}
  stats : LiveStats R := {}
  capture : List (ControlEvent R) := []
  pending : List Nat := []
  cwPhase : List R := .replicate liveCwCapacity 0.0
  cwStep : List R := .replicate liveCwCapacity 0.0
  cwAmplitude : List R := .replicate liveCwCapacity 0.0
  nextStaticFrame : UInt64 := unboundedFrames
  staticDecay : R := 0.0
  staticScheduleRng : Pcg32 := {}
  staticPhaseRng : Pcg32 := {}
  crashes : List (StaticCrash R) := .replicate liveStaticCapacity {}
  digest : StreamDigest := {}

end

/-- What the loop of `process` does, in order. -/
inductive Act (R : Type)
  | apply (frame : UInt64) (event : ControlEvent R)
  | emit (frame : UInt64)

namespace LiveController

variable {R : Type} [Det R]

def inRange (value minimum maximum : R) : Bool :=
  Det.isFinite value && !Det.lt value minimum && !Det.lt maximum value

def cwStepOf (frequencyHz : R) : R :=
  Det.twoPi * frequencyHz / Det.ofInt sampleRateHz.toNat

def cwAmplitudeOf (referenceRms ciDb : R) : R :=
  Det.sqrt 2.0 * referenceRms * Det.dbToAmplitude (-ciDb)

def reset (c : LiveController R) (seed : UInt64) (referenceRms : R) : LiveController R × Status :=
  if !Det.isFinite referenceRms || !Det.lt 0.0 referenceRms || Det.lt 32768.0 referenceRms then
    (c, refused "live reference RMS must be finite and in (0, 32768]")
  else
    let state : LiveState R := {}
    let digest : StreamDigest := {}
    ({ configured := true
       seed
       referenceRms
       state
       stats := { outputDigest := digest.hash }
       cwStep := state.cw.map fun oscillator => cwStepOf oscillator.frequencyHz
       cwAmplitude := state.cw.map fun oscillator => cwAmplitudeOf referenceRms oscillator.ciDb
       staticDecay := Det.exp (-1.0 / Det.ofFrames staticTauFrames)
       staticScheduleRng := .reseed seed 0x4C530001 0
       staticPhaseRng := .reseed seed 0x4C530002 0
       digest }, .success)

/-! ## Queueing -/

def validate (c : LiveController R) (event : ControlEvent R) : Status :=
  if !c.configured then ControlRefusal.notConfigured
  else if event.frame < c.stats.frames then ControlRefusal.lateEvent
  else if event.kind ≠ .fadeNow ∧ event.durationFrames ≠ 0 then ControlRefusal.invalidEvent
  else
    let cwControl := event.kind = .cwEnable ∨ event.kind = .cwFrequency ∨ event.kind = .cwCi
    if (cwControl ∧ liveCwCapacity ≤ event.oscillator.toNat) ∨
        (¬cwControl ∧ event.oscillator ≠ 0) then
      ControlRefusal.invalidEvent
    else
      let valid := match event.kind with
        | .cwEnable | .staticEnable => event.value == 0.0 || event.value == 1.0
        | .cwFrequency =>
          Det.isFinite event.value && Det.lt 0.0 event.value &&
            Det.lt event.value (Det.ofInt sampleRateHz.toNat / 2.0)
        | .cwCi => inRange event.value (-120.0) 120.0
        | .staticRate => inRange event.value 0.001 1000.0
        | .staticPeak => inRange event.value (-120.0) 60.0
        | .fadeNow =>
          inRange event.value 0.0 120.0 && event.durationFrames != 0 &&
            event.durationFrames ≤ unboundedFrames - event.frame
      if valid then .success else ControlRefusal.invalidEvent

/-- The captured event a place in `capture` names. -/
def captured (c : LiveController R) (place : Nat) : ControlEvent R :=
  c.capture.getD place { value := 0.0 }

/-- The event goes in front of the pending ones that are later than it. -/
def insert (c : LiveController R) (event : ControlEvent R) : LiveController R :=
  let captureIndex := c.capture.length
  let c := { c with capture := c.capture ++ [event] }
  let later := fun place => decide (event.frame < (c.captured place).frame)
  { c with
    pending := Insertion.insertBack later captureIndex c.pending
    stats := { c.stats with controlsAccepted := c.stats.controlsAccepted + 1 } }

def enqueue (c : LiveController R) (event : ControlEvent R) : LiveController R × Status :=
  let valid := c.validate event
  if !valid.isOk then (c, valid)
  else if c.pending.length = livePendingCapacity then (c, ControlRefusal.pendingFull)
  else if c.capture.length = liveCaptureCapacity then (c, ControlRefusal.captureFull)
  else (c.insert event, .success)

end LiveController

section
variable {R : Type} [Det R]

/-- Event `index` of a sweep. -/
def ControlSweep.event (sweep : ControlSweep R) (index : Nat) : ControlEvent R :=
  { frame := sweep.firstFrame + UInt64.ofNat index * sweep.stepFrames
    kind := sweep.kind
    value := sweep.values[index]?.getD 0.0
    durationFrames := sweep.fadeDurationFrames
    oscillator := sweep.oscillator }

end

namespace LiveController

variable {R : Type} [Det R]

/-- The first event that `validate` refuses, as it refuses it. -/
def validateAll (c : LiveController R) : List (ControlEvent R) → Status
  | [] => .success
  | event :: events =>
    let valid := c.validate event
    if !valid.isOk then valid else c.validateAll events

def insertAll (c : LiveController R) : List (ControlEvent R) → LiveController R
  | [] => c
  | event :: events => (c.insert event).insertAll events

def enqueueSweep (c : LiveController R) (sweep : ControlSweep R) : LiveController R × Status :=
  if !c.configured then (c, ControlRefusal.notConfigured)
  else if sweep.count = 0 ∨ liveSweepCapacity < sweep.count ∨ sweep.stepFrames = 0 ∨
      (sweep.kind ≠ .cwFrequency ∧ sweep.kind ≠ .cwCi ∧ sweep.kind ≠ .fadeNow) ∨
      (unboundedFrames - sweep.firstFrame) / sweep.stepFrames < UInt64.ofNat (sweep.count - 1) then
    (c, ControlRefusal.invalidEvent)
  else
    let events := (List.range sweep.count).map sweep.event
    let valid := c.validateAll events
    if !valid.isOk then (c, valid)
    else if livePendingCapacity - c.pending.length < sweep.count then
      (c, ControlRefusal.pendingFull)
    else if liveCaptureCapacity - c.capture.length < sweep.count then
      (c, ControlRefusal.captureFull)
    else (c.insertAll events, .success)

/-! ## Applying an event -/

/-- `delay` frames after `frame`, or never where the counter would overflow. -/
def frameAfter (frame delay : UInt64) : UInt64 :=
  if unboundedFrames.toNat - frame.toNat < delay.toNat then unboundedFrames else frame + delay

def scheduleStatic (c : LiveController R) (afterFrame : UInt64) : LiveController R :=
  let drawn :=
    c.staticScheduleRng.exponential (Det.ofInt sampleRateHz.toNat / c.state.staticRatePerSecond)
  let rounded := Det.roundHalfEven drawn.1
  let delay := if Det.lt rounded 1.0 then 1 else Det.toUInt64 rounded
  { c with
    staticScheduleRng := drawn.2
    nextStaticFrame := frameAfter afterFrame delay }

def setCw (c : LiveController R) (oscillator : UInt32)
    (set : LiveOscillatorState R → LiveOscillatorState R) : LiveController R :=
  { c with state := { c.state with cw := c.state.cw.modify oscillator.toNat set } }

/-- The switch of `apply`. -/
def applyKind (c : LiveController R) (event : ControlEvent R) : LiveController R :=
  match event.kind with
  | .cwEnable => c.setCw event.oscillator ({ · with enabled := event.value == 1.0 })
  | .cwFrequency =>
    { c.setCw event.oscillator ({ · with frequencyHz := event.value }) with
      cwStep := c.cwStep.set event.oscillator.toNat (cwStepOf event.value) }
  | .cwCi =>
    { c.setCw event.oscillator ({ · with ciDb := event.value }) with
      cwAmplitude :=
        c.cwAmplitude.set event.oscillator.toNat (cwAmplitudeOf c.referenceRms event.value) }
  | .staticEnable =>
    let c := if event.value == 1.0 && !c.state.staticEnabled then c.scheduleStatic event.frame
      else c
    let c := { c with state := { c.state with staticEnabled := event.value == 1.0 } }
    if c.state.staticEnabled then c
    else
      { c with
        nextStaticFrame := unboundedFrames
        crashes := c.crashes.map ({ · with active := false }) }
  | .staticRate =>
    let c := { c with state := { c.state with staticRatePerSecond := event.value } }
    if c.state.staticEnabled then c.scheduleStatic event.frame else c
  | .staticPeak => { c with state := { c.state with staticPeakDb := event.value } }
  | .fadeNow =>
    { c with
      state :=
        { c.state with
          fadeActive := true
          fadeDepthDb := event.value
          fadeStartFrame := event.frame
          fadeDurationFrames := event.durationFrames } }

def apply (c : LiveController R) (event : ControlEvent R) : LiveController R :=
  let c := c.applyKind event
  { c with stats := { c.stats with controlsApplied := c.stats.controlsApplied + 1 } }

/-! ## One sample -/

def fadeGain (c : LiveController R) (frame : UInt64) : R × LiveController R :=
  if !c.state.fadeActive then (1.0, c)
  else
    let elapsed := frame - c.state.fadeStartFrame
    if c.state.fadeDurationFrames ≤ elapsed then
      (1.0, { c with state := { c.state with fadeActive := false } })
    else
      let attack := c.state.fadeDurationFrames / 4
      let holdEnd := c.state.fadeDurationFrames - attack
      let depth : R :=
        if elapsed < attack then
          0.5 * (1.0 - Det.cos (Det.pi * Det.ofFrames elapsed / Det.ofFrames attack))
        else if holdEnd ≤ elapsed then
          0.5 * (1.0 + Det.cos (Det.pi * Det.ofFrames (elapsed - holdEnd) / Det.ofFrames attack))
        else 1.0
      (Det.dbToAmplitude (-c.state.fadeDepthDb * depth), c)

def wrapPhase (phase : R) : R :=
  if Det.lt Det.twoPi phase || phase == Det.twoPi then phase - Det.twoPi else phase

/-- The free-running CW bank: what it adds to the sample, and the bank at the next frame. -/
def cwBank (c : LiveController R) (sample : R) : R × LiveController R :=
  let sample := (List.range liveCwCapacity).foldl (fun sample oscillator =>
    if (c.state.cw[oscillator]?.getD {}).enabled then
      sample + c.cwAmplitude[oscillator]?.getD 0.0 * Det.sin (c.cwPhase[oscillator]?.getD 0.0)
    else sample) sample
  let advance := fun phase step => wrapPhase (phase + step)
  (sample, { c with cwPhase := c.cwPhase.zipWith advance c.cwStep })

/-- A new crash of the drawn phase goes into the free slot, or is dropped without one. -/
def placeCrash (c : LiveController R) (frame : UInt64) (phase : R) (staticPhaseRng : Pcg32) :
    LiveController R :=
  match c.crashes.findIdx? (!·.active) with
  | some slot =>
    { c with
      staticPhaseRng
      crashes := c.crashes.set slot
        { endFrame := frameAfter frame staticLengthFrames
          amplitude := c.referenceRms * Det.dbToAmplitude c.state.staticPeakDb
          envelope := 1.0
          phase
          active := true }
      stats := { c.stats with staticEventsStarted := c.stats.staticEventsStarted + 1 } }
  | none =>
    { c with
      staticPhaseRng
      stats := { c.stats with staticEventsDropped := c.stats.staticEventsDropped + 1 } }

def startCrash (c : LiveController R) (frame : UInt64) : LiveController R :=
  let drawn := c.staticPhaseRng.uniform
  (c.placeCrash frame (drawn.1 * Det.twoPi) drawn.2).scheduleStatic frame

def expire (frame : UInt64) (crash : StaticCrash R) : StaticCrash R :=
  if crash.active ∧ crash.endFrame ≤ frame then { crash with active := false } else crash

/-- An active crash at the next frame. -/
def advance (decay : R) (crash : StaticCrash R) : StaticCrash R :=
  if crash.active then
    { crash with
      envelope := crash.envelope * decay
      phase := wrapPhase (crash.phase + Det.twoPi * 1700.0 / Det.ofInt sampleRateHz.toNat) }
  else crash

def staticSample (c : LiveController R) (frame : UInt64) : R × LiveController R :=
  if !c.state.staticEnabled then (0.0, c)
  else
    let c := { c with crashes := c.crashes.map (expire frame) }
    let c := if frame = c.nextStaticFrame then c.startCrash frame else c
    let sum := fun (value : R) (crash : StaticCrash R) =>
      if crash.active then value + crash.amplitude * crash.envelope * Det.cos crash.phase
      else value
    (c.crashes.foldl sum 0.0, { c with crashes := c.crashes.map (advance c.staticDecay) })

/-- What the two `process` overloads do differently with a sample of type `X`. -/
structure SamplePath (R X : Type) where
  load : X → R
  /-- The saturated sample, and whether it was clipped. -/
  store : R → X × Bool
  emitted : X → R
  digest : StreamDigest → X → StreamDigest

def pcm16Path : SamplePath R Int16 where
  load := fun x => Det.ofInt x.toInt / 32768.0
  store := fun sample =>
    let scaled := sample * 32768.0
    let rounded := Det.roundHalfEven scaled
    let rounded := if Det.lt rounded (-32768.0) then -32768.0
      else if Det.lt 32767.0 rounded then 32767.0 else rounded
    (Int16.ofInt (Det.toInt rounded), Det.lt scaled (-32768.0) || Det.lt 32767.0 scaled)
  emitted := fun x => Det.ofInt x.toInt / 32768.0
  digest := .updatePcm16

def floatPath : SamplePath R R where
  load := id
  store := fun sample =>
    let minimum : R := -1.0
    let maximum : R := Det.pcm24Max / Det.pcm24Scale
    let clipped := Det.lt sample minimum || Det.lt maximum sample
    (Det.single (if Det.lt sample minimum then minimum
      else if Det.lt maximum sample then maximum else sample), clipped)
  emitted := fun x => Det.ofInt (Det.quantizePcm24 x) / Det.pcm24Scale
  digest := .updateFloat

section
variable {X : Type} (path : SamplePath R X)

/-- The counters after the sample `y` was stored. -/
def countSample (c : LiveController R) (y : X) (clipped : Bool) : LiveController R :=
  let emitted := path.emitted y
  let magnitude := Det.single (if Det.lt emitted 0.0 then -emitted else emitted)
  { c with
    stats :=
      { c.stats with
        clippedSamples := c.stats.clippedSamples + if clipped then 1 else 0
        peak := if Det.lt c.stats.peak magnitude then magnitude else c.stats.peak
        outputEnergy := c.stats.outputEnergy + emitted * emitted } }

/-- The part of the loop body after the controls: the sample `x` of frame `absolute`. -/
def mix (c : LiveController R) (absolute : UInt64) (x : X) : LiveController R × X :=
  let faded := c.fadeGain absolute
  let banked := faded.2.cwBank (path.load x * faded.1)
  let crackled := banked.2.staticSample absolute
  let stored := path.store (banked.1 + crackled.1)
  (crackled.2.countSample path stored.1 stored.2, stored.1)

/-- The shift of `pending_` that takes its first entry out. -/
def setPending (c : LiveController R) (pending : List Nat) : LiveController R := { c with pending }

/-- Applies the pending events of frame `absolute`, the first of `pending` for as long as it is
one; returns them beside the controller. -/
def applyDue (absolute : UInt64) :
    List Nat → LiveController R → LiveController R × List (ControlEvent R)
  | [], c => (c, [])
  | place :: pending, c =>
    if (c.captured place).frame = absolute then
      let rest := applyDue absolute pending ((c.apply (c.captured place)).setPending pending)
      (rest.1, c.captured place :: rest.2)
    else (c, [])

/-- The loop of `process`, from sample `index` of the block on. -/
def processLoop (index : UInt64) :
    List X → LiveController R → LiveController R × List X × List (Act R)
  | [], c => (c, [], [])
  | x :: pcm, c =>
    let absolute := c.stats.frames + index
    let applied := applyDue absolute c.pending c
    let mixed := applied.1.mix path absolute x
    let rest := processLoop (index + 1) pcm mixed.1
    (rest.1, mixed.2 :: rest.2.1, applied.2.map (.apply absolute) ++ .emit absolute :: rest.2.2)

/-- What `process` does after its loop over a block that is now `pcm`. -/
def closeBlock (c : LiveController R) (pcm : List X) : LiveController R :=
  let digest := pcm.foldl path.digest c.digest
  let frames := c.stats.frames + UInt64.ofNat pcm.length
  let c := { c with digest, stats := { c.stats with outputDigest := digest.hash, frames } }
  if c.state.fadeActive && c.state.fadeDurationFrames ≤ frames - c.state.fadeStartFrame then
    { c with state := { c.state with fadeActive := false } }
  else c

def processBlock (c : LiveController R) (pcm : List X) :
    LiveController R × List X × List (Act R) :=
  let looped := processLoop path 0 pcm c
  (looped.1.closeBlock path looped.2.1, looped.2)

end

/-- A block argument: a null pointer with a frame count, or the samples. -/
inductive Block (X : Type)
  | null (frames : Nat)
  | samples (pcm : List X)

namespace Block

variable {X : Type}

def frames : Block X → Nat
  | null frames => frames
  | samples pcm => pcm.length

def pcm : Block X → List X
  | null _ => []
  | samples pcm => pcm

def isNull : Block X → Bool
  | null _ => true
  | samples _ => false

end Block

/-- What a `process` call leaves: the controller, the block, the verdict and the acts. -/
structure Processed (R X : Type) [Det R] where
  controller : LiveController R
  pcm : List X
  status : Status
  acts : List (Act R)

/-- The checks the two overloads make first, up to the text of the refusal. -/
def admits (c : LiveController R) {X : Type} (block : Block X) (message : String) : Status :=
  if !c.configured then notConfigured
  else if (block.isNull ∧ block.frames ≠ 0) ∨ engineCapacityFrames < block.frames ∨
      unboundedFrames - c.stats.frames < UInt64.ofNat block.frames then
    refused message
  else .success

def processPcm16 (c : LiveController R) (block : Block Int16) : Processed R Int16 :=
  let status := c.admits block "invalid live PCM block or output timeline overflow"
  if !status.isOk then ⟨c, block.pcm, status, []⟩
  else
    let processed := c.processBlock pcm16Path block.pcm
    ⟨processed.1, processed.2.1, .success, processed.2.2⟩

def processFloat (c : LiveController R) (block : Block R) : Processed R R :=
  let status := c.admits block "invalid live float block or output timeline overflow"
  if !status.isOk then ⟨c, block.pcm, status, []⟩
  else if block.pcm.any (!Det.isFinite ·) then
    ⟨c, block.pcm, refused "nonfinite live sample", []⟩
  else
    let processed := c.processBlock floatPath block.pcm
    ⟨processed.1, processed.2.1, .success, processed.2.2⟩

end LiveController

end WaveformGenerator.SignalLab
