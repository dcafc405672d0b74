import WaveformGenerator.Cut.Log

/-!
# A play's producer around the CUT stage (`rt1170/player.cpp`)

The producer asks the stage for a step and carries it out: it offers the engine's next block or
ends the output, puts frames of the block on hand or zeros into the play's stream, or lets
discarded frames go. The engine's output is given as the blocks it hands over; `sent` is
everything put into the output FIFO, whose free-running index is the stream position.
-/

namespace WaveformGenerator.Cut

/-- The producer's play: the stage and the log (`player_cuts()`), the engine's blocks still to
come, its last one, and the stream so far. -/
structure Play (α : Type) where
  stage : CutStage
  log : CutLog := {}
  input : List (List α)
  block : List α := []
  sent : List α := []
  /-- The engine's output is done and every frame of it sent or discarded (`eof_enqueued`). -/
  ended : Bool := false

namespace Play

variable {α : Type}

/-- A new play: the schedule latched, nothing offered or sent. -/
def start (schedule : ValidSchedule) (blocks : List (List α)) : Play α :=
  { stage := .latch schedule, input := blocks }

def streamPosition (play : Play α) : SentFrames := .ofNat play.sent.length

def logCut (play : Play α) : Option AppliedCut → Result (Play α)
  | none => .ok play
  | some cut => do
    let log ← play.log.record cut
    return { play with log }

/-- The engine's output has ended: the log takes the DROP the end cut short and the entries at
or past the end. -/
def finishOutput (play : Play α) : Result (Play α) := do
  let (outputEnd, stage) := play.stage.finish play.streamPosition
  let play ← logCut { play with stage } outputEnd.clipped
  return { play with log := play.log.reject outputEnd.pastEnd }

/-- A pull step: the engine's next block to the stage, or the end of its output. -/
def pullBlock (play : Play α) : Result (Play α) :=
  match play.input with
  | [] => play.finishOutput
  | block :: input => do
    let stage ← play.stage.offer (.ofNat block.length)
    return { play with stage, block, input }

/-- Puts the first `frames` of a step's frames into the stream. -/
def pushFrames (play : Play α) (frames : List α) : Play α :=
  { play with sent := play.sent ++ frames }

/-- The frames `step` puts into the stream; a send's begin at frame `from` of the block. -/
def stepFrames (silence : α) (play : Play α) (step : CutStep) (from_ : UInt32) : List α :=
  match step.kind with
  | .send => (play.block.drop from_.toNat).take step.frames.toNat
  | .zeros => List.replicate step.frames.toNat silence
  | _ => []

def runStep (silence : α) (play : Play α) (step : CutStep) (from_ : UInt32) : Result (Play α) :=
  if step.kind = .pull then
    play.pullBlock
  else
    .ok (play.pushFrames (play.stepFrames silence step from_))

/-- The stage takes `step` and the log what it applied, before any frame of it is sent. -/
def takeStep (play : Play α) (step : CutStep) : Result (Play α) :=
  let (applied, stage) := play.stage.take step play.streamPosition
  logCut { play with stage } applied

def carryOut (silence : α) (play : Play α) (step : CutStep) : Result (Play α) := do
  let taken ← play.takeStep step
  taken.runStep silence step play.stage.blockPosition

/-- The stream ends with the frames sent (`end_stream()`). -/
def endStream (play : Play α) : Play α :=
  { play with log := play.log.endAt play.streamPosition, ended := true }

/-- One round of the producer's loop, its step limited to `limit`. -/
def round (silence : α) (play : Play α) (limit : StepLimit) : Result (Play α) :=
  if play.ended then
    .ok play
  else
    let step := play.stage.next limit
    if step.kind = .«end» then .ok play.endStream else play.carryOut silence step

/-- STOP or a fault ends the run while `push_block` carries out the round's step: the log has
taken the step, and `written` of its frames went out. -/
def stopWithin (silence : α) (play : Play α) (limit : StepLimit) (written : Nat) :
    Result (Play α) := do
  let step := play.stage.next limit
  let taken ← play.takeStep step
  return taken.pushFrames ((taken.stepFrames silence step play.stage.blockPosition).take written)

/-- The run of a play: one round for each limit. -/
def run (silence : α) (play : Play α) (limits : List StepLimit) : Result (Play α) :=
  limits.foldlM (round silence) play

end Play

end WaveformGenerator.Cut
