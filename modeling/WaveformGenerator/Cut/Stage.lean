import WaveformGenerator.Cut.Schedule

/-!
# The CUT stage (`common/cut_schedule.hpp`, `CutStage`)

The stage walks the engine's output with the latched schedule and turns both into steps: send,
insert zeros, discard, the next block, end. A failing operation returns its status and no new
stage, as the source leaves the stage unchanged there.
-/

namespace WaveformGenerator.Cut

/-- What the play does next with the engine's output. -/
inductive StepKind
  | «end»
  | pull
  | send
  | zeros
  | discard
  deriving DecidableEq, Repr

structure CutStep where
  kind : StepKind
  frames : UInt32 := 0
  deriving DecidableEq, Repr

/-- The most frames one send or zeros step may cover: one at least. -/
structure StepLimit where
  frames : UInt32
  pos : frames ≠ 0

def outputTooLong : Status := ⟨.bufferTooSmall, "CUT_OUTPUT_LONG"⟩

/-- A cut as it took effect in the stream the play sends. -/
structure AppliedCut where
  position : SentFrames
  frames : UInt32
  kind : CutKind
  deriving DecidableEq, Repr

/-- The end of the engine's output. -/
structure OutputEnd where
  clipped : Option AppliedCut
  pastEnd : UInt32

structure CutStage where
  schedule : ValidSchedule
  /-- The schedule's next entry (`next_`): not begun, or the DROP under way. -/
  nextEntry : UInt32 := 0
  offered : OutputFrames := 0
  block : OutputFrames := 0
  position : OutputFrames := 0
  zerosLeft : UInt32 := 0
  finished : Bool := false

namespace CutStage

/-- The stage starts over with the schedule of the next play. -/
def latch (schedule : ValidSchedule) : CutStage := { schedule }

def offer (stage : CutStage) (frames : OutputFrames) : Result CutStage :=
  if frames > 0xFFFFFFFF - stage.offered then
    .error outputTooLong
  else
    .ok { stage with offered := stage.offered + frames, block := frames }

/-- The next entry that may still apply. -/
def pendingEntry (stage : CutStage) : Option CutEntry :=
  if stage.nextEntry ≥ stage.schedule.size then
    none
  else
    stage.schedule.entries[stage.nextEntry.toNat]?

/-- The DROP under way when the engine's output ends, which the end cuts short. -/
def clippedDrop (stage : CutStage) (stream : SentFrames) : Option AppliedCut :=
  match stage.pendingEntry with
  | some entry =>
    if entry.kind = .drop ∧ entry.offset < stage.position then
      some { position := stream, frames := stage.position - entry.offset, kind := .drop }
    else
      none
  | none => none

def finish (stage : CutStage) (stream : SentFrames) : OutputEnd × CutStage :=
  let clipped := stage.clippedDrop stream
  let next := if clipped.isSome then stage.nextEntry + 1 else stage.nextEntry
  ({ clipped, pastEnd := stage.schedule.size - next },
    { stage with nextEntry := stage.schedule.size, finished := true })

/-- The step of an entry that starts where the stage stands, or of the DROP under way. -/
def begin (stage : CutStage) (entry : CutEntry) (most onHand : UInt32) : CutStep :=
  if entry.kind = .zero then
    { kind := .zeros, frames := min entry.length most }
  else
    let left := entry.length - (stage.position - entry.offset)
    { kind := .discard, frames := min left onHand }

/-- A send step: no entry starts before its end. -/
def sendStep (stage : CutStage) (entry : Option CutEntry) (most onHand : UInt32) : CutStep :=
  let frames := match entry with
    | some entry => min (entry.offset - stage.position) onHand
    | none => onHand
  { kind := .send, frames := min most frames }

/-- The frames on hand: offered, and neither sent nor discarded. -/
def onHand (stage : CutStage) : UInt32 := stage.offered - stage.position

def next (stage : CutStage) (limit : StepLimit) : CutStep :=
  let most := limit.frames
  if stage.zerosLeft ≠ 0 then
    { kind := .zeros, frames := min stage.zerosLeft most }
  else if stage.onHand = 0 then
    { kind := if stage.finished then .«end» else .pull }
  else
    match stage.pendingEntry with
    | some entry =>
      if entry.offset ≤ stage.position then
        stage.begin entry most stage.onHand
      else
        stage.sendStep (some entry) most stage.onHand
    | none => stage.sendStep none most stage.onHand

/-- A discard step: the DROP under way ends once its last frame goes. -/
def takeDiscard (stage : CutStage) (step : CutStep) (stream : SentFrames) :
    Option AppliedCut × CutStage :=
  let moved := { stage with position := stage.position + step.frames }
  match moved.pendingEntry with
  | some entry =>
    if moved.position - entry.offset < entry.length then
      (none, moved)
    else
      (some { position := stream, frames := entry.length, kind := .drop },
        { moved with nextEntry := moved.nextEntry + 1 })
  | none => (none, moved)

/-- A zeros step: the next part of the ZERO under way, or the first of the pending one. -/
def takeZeros (stage : CutStage) (step : CutStep) (stream : SentFrames) :
    Option AppliedCut × CutStage :=
  if stage.zerosLeft ≠ 0 then
    (none, { stage with zerosLeft := stage.zerosLeft - min step.frames stage.zerosLeft })
  else
    match stage.pendingEntry with
    | some entry =>
      (some { position := stream, frames := entry.length, kind := .zero },
        { stage with
          nextEntry := stage.nextEntry + 1
          zerosLeft := entry.length - min step.frames entry.length })
    | none => (none, stage)

/-- `step`, the one `next` gave, was carried out: the cut it logs and the stage after it. -/
def take (stage : CutStage) (step : CutStep) (stream : SentFrames) :
    Option AppliedCut × CutStage :=
  match step.kind with
  | .send => (none, { stage with position := stage.position + step.frames })
  | .discard => stage.takeDiscard step stream
  | .zeros => stage.takeZeros step stream
  | .pull | .«end» => (none, stage)

/-- Where the next send or discard step begins in the last block offered. -/
def blockPosition (stage : CutStage) : UInt32 := stage.block - (stage.offered - stage.position)

end CutStage

end WaveformGenerator.Cut
