import Mathlib.Algebra.Group.Nat.Defs
import Mathlib.Algebra.GroupWithZero.Nat
import WaveformGenerator.Lib.Insertion
import WaveformGenerator.Lib.Splice
import WaveformGenerator.SignalLab.Fade

/-!
# The sample slip stage (`signal-lab/src/sample_slip.cpp`)

Deleted and duplicated runs of samples. The events are placed in input frames; `process` emits the
samples of a block into the scratch storage and keeps the last ones for duplicates to come. Frames
are 64-bit counts, and a sum of them that may wrap is written with its modulus.
-/

namespace WaveformGenerator.SignalLab

def maxSlipLength : Nat := 1024

structure SlipEvent (R : Type) [Det R] where
  atSeconds : R := 0.0
  duplicate : Bool := false
  lengthSamples : UInt32 := 0

structure SampleSlipParams (R : Type) [Det R] where
  events : Vector (SlipEvent R) maxEvents := .replicate maxEvents {}
  eventCount : UInt32 := 0

structure PlannedSlip where
  frame : Nat
  duplicate : Bool
  length : Nat
  deriving DecidableEq, Repr

/-- A planned slip as a splice of the stream. -/
def PlannedSlip.splice (slip : PlannedSlip) : Splice := ⟨slip.frame, slip.duplicate, slip.length⟩

/-- The stage, with the used parts of its arrays. -/
structure SampleSlipImpairment (α : Type) where
  planned : List PlannedSlip := []
  cursor : Nat := 0
  deleteRemaining : Nat := 0
  maxLength : Nat := 1
  history : List α := []
  scheduled : UInt32 := 0
  applied : UInt32 := 0
  dropped : UInt32 := 0
  componentFrames : UInt64 := 0
  deriving DecidableEq, Repr

namespace SampleSlipImpairment

def refused (message : String) : Status := { code := .invalidConfiguration, message }

def badStorage : Status := refused "sample_slip needs scratch storage and at most 32 events"
def badLength : Status :=
  refused "sample_slip length_samples must be in 1..1024 for the streaming engine"
def noHistory : Status :=
  refused "sample_slip duplicate needs length_samples previously emitted frames"
def tooDense : Status :=
  refused "sample_slip duplicates exceed 256 output frames in a 2048-input-frame window"

/-! ## Preparing -/

variable {R : Type} [Det R]

/-- The slip of an event. -/
def slipOf (event : SlipEvent R) : PlannedSlip :=
  ⟨(Det.secondsToFrames event.atSeconds sampleRateHz).toNat, event.duplicate,
    event.lengthSamples.toNat⟩

/-- The events in stable order of their frames. -/
def plan : List (SlipEvent R) → List PlannedSlip → Result (List PlannedSlip)
  | [], planned => .ok planned
  | event :: events, planned =>
    let slip := slipOf event
    if slip.length = 0 ∨ maxSlipLength < slip.length then .error badLength
    else
      plan events
        (Insertion.insertBack (fun other => decide (slip.frame < other.frame)) slip planned)

/-- A count of delivered samples, as far as a slip may reach back. -/
def raised (history more : Nat) : Nat :=
  if maxSlipLength - history ≤ more then maxSlipLength else history + more

/-- Which events are duplicates that get applied. -/
def simulate (totalFrames : Nat) : List PlannedSlip → Nat → Nat → Result (List Bool)
  | [], _, _ => .ok []
  | event :: events, consumed, history =>
    if totalFrames ≠ 0 ∧ totalFrames ≤ event.frame then
      .ok (List.replicate (event :: events).length false)
    else if event.frame < consumed then
      (simulate totalFrames events consumed history).map (false :: ·)
    else
      let history := raised history (event.frame - consumed)
      if event.duplicate then
        if history < event.length then .error noHistory
        else (simulate totalFrames events event.frame (raised history event.length)).map (true :: ·)
      else
        let consumed :=
          if unboundedFrames.toNat - event.frame < event.length then unboundedFrames.toNat
          else event.frame + event.length
        (simulate totalFrames events consumed history).map (false :: ·)

def engineBlockFrames : Nat := 2048
def engineSlackFrames : Nat := 256

/-- The duplicated frames of the events from one on, within a block of it. -/
def expansion (first : PlannedSlip) : List (PlannedSlip × Bool) → Nat
  | [] => 0
  | (event, applied) :: events =>
    if event.frame - first.frame < engineBlockFrames then
      (if applied then event.length else 0) + expansion first events
    else 0

def overfull : List (PlannedSlip × Bool) → Bool
  | [] => false
  | (event, applied) :: events =>
    (applied && decide (engineSlackFrames < expansion event ((event, applied) :: events))) ||
      overfull events

def validateSchedule (planned : List PlannedSlip) (totalFrames : Nat) : Status :=
  match simulate totalFrames planned 0 0 with
  | .error status => status
  | .ok appliedDuplicates =>
    if overfull (planned.zip appliedDuplicates) then tooDense else .success

variable {α : Type}

/-- `prepare`, for storage that may be missing and a stream that may be of unknown length, 0. -/
def prepare (p : SampleSlipParams R) (scratch : Bool) (totalFrames : UInt64) :
    Result (SampleSlipImpairment α) :=
  if !scratch ∨ maxEvents < p.eventCount.toNat then .error badStorage
  else
    match plan (p.events.toList.take p.eventCount.toNat) [] with
    | .error status => .error status
    | .ok planned =>
      let schedule := validateSchedule planned totalFrames.toNat
      if !schedule.isOk then .error schedule
      else
        .ok
          { planned
            maxLength := (planned.map (·.length)).foldl max 1
            scheduled := .ofNat planned.length }

/-! ## Processing -/

def copyInput (block : List α) (start stop : Nat) (output : List α) (capacity : Nat) : List α :=
  output ++ ((block.take stop).drop start).take (capacity - output.length)

/-- The locals of `process`, with the counts that its loop changes. -/
structure SlipPass (α : Type) where
  input : Nat
  output : List α
  deleteRemaining : Nat
  applied : UInt32
  dropped : UInt32

/-- What the loop reads. -/
structure SlipBlock (α : Type) where
  block : List α
  firstInputFrame : Nat
  capacity : Nat
  history : List α

/-- One event at the cursor that is reached in the block. -/
def SlipBlock.take (b : SlipBlock α) (event : PlannedSlip) (pass : SlipPass α) : SlipPass α :=
  let frames := b.block.length
  let before := event.frame - b.firstInputFrame
  let output := copyInput b.block pass.input before pass.output b.capacity
  if event.duplicate then
    if b.capacity < output.length + event.length + (frames - before) ∨
        output.length + b.history.length < event.length then
      { pass with input := before, output, dropped := pass.dropped + 1 }
    else
      let fromOutput := min output.length event.length
      let fromHistory := event.length - fromOutput
      { pass with
        input := before
        output := output ++
          (b.history.drop (b.history.length - fromHistory)).take fromHistory ++
          (output.drop (output.length - fromOutput)).take fromOutput
        applied := pass.applied + 1 }
  else
    let skip := min event.length (frames - before)
    { pass with
      input := before + skip
      output
      deleteRemaining := event.length - skip
      applied := pass.applied + 1 }

/-- The loop over the events that the block reaches: the pass, and how many it moved the cursor. -/
def SlipBlock.events (b : SlipBlock α) : List PlannedSlip → SlipPass α → SlipPass α × Nat
  | [], pass => (pass, 0)
  | event :: later, pass =>
    if event.frame < (b.firstInputFrame + b.block.length) % 2 ^ 64 then
      if event.frame < (b.firstInputFrame + pass.input) % 2 ^ 64 then
        let (pass, moved) := b.events later { pass with dropped := pass.dropped + 1 }
        (pass, moved + 1)
      else
        let pass := b.take event pass
        if pass.deleteRemaining ≠ 0 then (pass, 1)
        else
          let (pass, moved) := b.events later pass
          (pass, moved + 1)
    else (pass, 0)

/-- What is kept of the history before the samples of an output that are. -/
def keptHistory (history : List α) (maxLength keep : Nat) : List α :=
  if keep < maxLength ∧ 0 < history.length then
    history.drop
      (if maxLength < history.length + keep then history.length + keep - maxLength else 0)
  else []

/-- `process` for a capacity that the storage has. -/
def processWithin (s : SampleSlipImpairment α) (block : List α) (firstInputFrame capacity : Nat) :
    List α × SampleSlipImpairment α :=
  let frames := block.length
  let skip := if s.deleteRemaining ≠ 0 then min s.deleteRemaining frames else 0
  let (pass, moved) := SlipBlock.events ⟨block, firstInputFrame, capacity, s.history⟩
    (s.planned.drop s.cursor) ⟨skip, [], s.deleteRemaining - skip, s.applied, s.dropped⟩
  let output := copyInput block pass.input frames pass.output capacity
  let keep := min output.length s.maxLength
  (output,
    { s with
      cursor := s.cursor + moved
      deleteRemaining := pass.deleteRemaining
      history := keptHistory s.history s.maxLength keep ++ output.drop (output.length - keep)
      applied := pass.applied
      dropped := pass.dropped
      componentFrames := s.componentFrames + .ofNat frames })

def process (s : SampleSlipImpairment α) (block : List α) (firstInputFrame capacity : Nat) :
    List α × SampleSlipImpairment α :=
  s.processWithin block firstInputFrame (min capacity engineCapacityFrames)

/-- A stream in blocks, each with its capacity. -/
def processBlocks (s : SampleSlipImpairment α) (firstInputFrame : Nat) :
    List (List α × Nat) → List (List α) × SampleSlipImpairment α
  | [] => ([], s)
  | (block, capacity) :: blocks =>
    let (output, s) := s.process block firstInputFrame capacity
    let (outputs, s) := s.processBlocks (firstInputFrame + block.length) blocks
    (output :: outputs, s)

end SampleSlipImpairment

end WaveformGenerator.SignalLab
