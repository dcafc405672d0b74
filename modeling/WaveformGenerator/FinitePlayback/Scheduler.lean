import WaveformGenerator.Common.Status
import WaveformGenerator.Lib.UInt

/-!
# The finite playback scheduler (`common/finite_playback.cpp`)

The scheduler orders a playback's production, writes, visibility barriers and reads, one ticketed
action at a time. An operation returns its reply and the scheduler after it: some failures latch
and change the state, so a refusal is not simply an error.
-/

namespace WaveformGenerator.FinitePlayback

def playbackSampleRateHz : UInt32 := 48000

inductive State
  | unconfigured
  | ready
  | running
  | cancelling
  | completed
  | failed
  | cancelled
  deriving DecidableEq, Repr

inductive ActionKind
  | produce
  | write
  | visibilityBarrier
  | read
  | finalize
  deriving DecidableEq, Repr

structure Config where
  totalFrames : UInt64 := 0
  measuredRateFramesPerSecond : UInt32 := 0
  marginFrames : UInt64 := 0
  queueCapacityFrames : UInt32 := 0
  maxBlockFrames : UInt32 := 0
  deriving DecidableEq, Repr

structure Action where
  token : UInt64 := 0
  firstFrame : UInt64 := 0
  frames : UInt32 := 0
  kind : ActionKind := .produce
  deriving DecidableEq, Repr

def invalidConfig : Status := ⟨.invalidConfiguration, "invalid finite playback configuration"⟩
def invalidArgument (message : String) : Status := ⟨.invalidArgument, message⟩
def busyStatus (message : String) : Status := ⟨.busy, message⟩
def ioError (message : String) : Status := ⟨.ioError, message⟩
def unavailable (message : String) : Status := ⟨.unavailable, message⟩

def requiredLead (config : Config) : UInt64 :=
  let rate := config.measuredRateFramesPerSecond.toUInt64
  let hz := playbackSampleRateHz.toUInt64
  let deficit := if rate < hz then hz - rate else 0
  let wholeSeconds := config.totalFrames / hz
  let remainder := config.totalFrames % hz
  let fractionalNumerator := remainder * deficit
  let fractionalFrames := (fractionalNumerator + hz - 1) / hz
  let base := wholeSeconds * deficit + fractionalFrames
  let leadWithoutMargin := min base config.totalFrames
  let remaining := config.totalFrames - leadWithoutMargin
  if config.marginFrames ≥ remaining then
    config.totalFrames
  else
    leadWithoutMargin + config.marginFrames

structure Scheduler where
  config : Config := {}
  requiredLeadFrames : UInt64 := 0
  producedFrames : UInt64 := 0
  writtenFrames : UInt64 := 0
  committedFrames : UInt64 := 0
  readFrames : UInt64 := 0
  consumedFrames : UInt64 := 0
  nextToken : UInt64 := 1
  pendingAction : Action := {}
  firstStatus : Status := .success
  state : State := .unconfigured
  actionPending : Bool := false
  started : Bool := false
  artifactFinalized : Bool := false
  ownerReleased : Bool := true
  deriving DecidableEq, Repr

namespace Scheduler

def isTerminal (s : Scheduler) : Bool :=
  s.state == .completed || s.state == .failed || s.state == .cancelled

def actionMatches (s : Scheduler) (action : Action) : Bool :=
  s.actionPending && action.token == s.pendingAction.token &&
    action.firstFrame == s.pendingAction.firstFrame && action.frames == s.pendingAction.frames &&
    action.kind == s.pendingAction.kind

def emptyFailure : Status := ⟨.internalError, "finite playback latched an empty failure"⟩

def latch (s : Scheduler) (reason : Status) (state : State) : Status × Scheduler :=
  let firstStatus :=
    if s.firstStatus.isOk then if reason.isOk then emptyFailure else reason else s.firstStatus
  (firstStatus, { s with firstStatus, state })

def resetRun (s : Scheduler) (config : Config) (lead : UInt64) : Scheduler :=
  { s with
    config
    requiredLeadFrames := lead
    producedFrames := 0
    writtenFrames := 0
    committedFrames := 0
    readFrames := 0
    consumedFrames := 0
    pendingAction := {}
    firstStatus := .success
    actionPending := false
    started := false
    artifactFinalized := false
    ownerReleased := false }

def configure (s : Scheduler) (config : Config) : Status × Scheduler :=
  let releasedTerminal := s.isTerminal && s.ownerReleased
  if s.actionPending ∨ (s.state ≠ .unconfigured ∧ !releasedTerminal) then
    (busyStatus "finite playback is still active", s)
  else if config.totalFrames = 0 ∨ config.measuredRateFramesPerSecond = 0 ∨
      config.queueCapacityFrames = 0 ∨ config.maxBlockFrames = 0 ∨
      config.maxBlockFrames > config.queueCapacityFrames then
    (invalidConfig, s)
  else
    (.success, { s.resetRun config (requiredLead config) with state := .ready })

/-- Issues the next ticket (`begin()`). -/
def begin (s : Scheduler) (kind : ActionKind) (firstFrame : UInt64) (frames : UInt32) :
    Result Action × Scheduler :=
  if s.actionPending then
    (.error (busyStatus "finite playback already has an outstanding action"), s)
  else if s.nextToken = 0xFFFFFFFFFFFFFFFF then
    (.error (ioError "finite playback action ticket space exhausted"), s)
  else
    let action : Action := { token := s.nextToken, firstFrame, frames, kind }
    (.ok action,
      { s with nextToken := s.nextToken + 1, pendingAction := action, actionPending := true })

def beginProduce (s : Scheduler) (frames : UInt32) : Result Action × Scheduler :=
  if s.state ≠ .ready ∧ s.state ≠ .running then
    (.error invalidConfig, s)
  else if frames = 0 ∨ frames > s.config.maxBlockFrames ∨
      frames.toUInt64 > s.config.totalFrames - s.producedFrames then
    (.error (invalidArgument "invalid finite playback production range"), s)
  else
    let stagingUsed := s.producedFrames - s.writtenFrames
    if frames.toUInt64 > s.config.maxBlockFrames.toUInt64 - stagingUsed then
      (.error (busyStatus "finite playback producer staging is full"), s)
    else
      s.begin .produce s.producedFrames frames

def beginWrite (s : Scheduler) (frames : UInt32) : Result Action × Scheduler :=
  if s.state ≠ .ready ∧ s.state ≠ .running then
    (.error invalidConfig, s)
  else if s.writtenFrames ≠ s.committedFrames ∨ frames = 0 ∨
      frames > s.config.maxBlockFrames ∨
      frames.toUInt64 > s.producedFrames - s.writtenFrames then
    (.error (invalidArgument "invalid finite playback write range"), s)
  else
    s.begin .write s.writtenFrames frames

def beginVisibilityBarrier (s : Scheduler) : Result Action × Scheduler :=
  if (s.state ≠ .ready ∧ s.state ≠ .running) ∨ s.writtenFrames = s.committedFrames then
    (.error invalidConfig, s)
  else
    let pendingFrames := s.writtenFrames - s.committedFrames
    if pendingFrames > s.config.maxBlockFrames.toUInt64 then
      (.error (ioError "finite playback visibility range exceeds one block"), s)
    else
      s.begin .visibilityBarrier s.committedFrames pendingFrames.toUInt32

def beginRead (s : Scheduler) (frames : UInt32) : Result Action × Scheduler :=
  if s.state ≠ .ready ∧ s.state ≠ .running then
    (.error invalidConfig, s)
  else if frames = 0 ∨ frames > s.config.maxBlockFrames ∨
      frames.toUInt64 > s.committedFrames - s.readFrames then
    (.error (invalidArgument "finite playback read exceeds committed data"), s)
  else
    let queuedFrames := s.readFrames - s.consumedFrames
    if frames.toUInt64 > s.config.queueCapacityFrames.toUInt64 - queuedFrames then
      (.error (busyStatus "finite playback queue is full"), s)
    else
      s.begin .read s.readFrames frames

def beginFinalize (s : Scheduler) : Result Action × Scheduler :=
  let total := s.config.totalFrames
  if s.state ≠ .running ∨ s.producedFrames ≠ total ∨ s.writtenFrames ≠ total ∨
      s.committedFrames ≠ total ∨ s.readFrames ≠ total ∨ s.consumedFrames ≠ total ∨
      s.artifactFinalized then
    (.error invalidConfig, s)
  else
    s.begin .finalize total 0

/-- The queue prefill `start` asks for. -/
def prefill (s : Scheduler) : UInt64 :=
  min s.config.queueCapacityFrames.toUInt64 s.config.totalFrames

/-- `next_action()` before `start`. -/
def nextReady (s : Scheduler) : Result Action × Scheduler :=
  let maxBlock := s.config.maxBlockFrames.toUInt64
  let committedTarget := max s.requiredLeadFrames s.prefill
  if s.committedFrames < committedTarget then
    if s.writtenFrames > s.committedFrames then
      s.beginVisibilityBarrier
    else if s.producedFrames > s.writtenFrames then
      s.beginWrite (min maxBlock (s.producedFrames - s.writtenFrames)).toUInt32
    else
      s.beginProduce (min maxBlock (s.config.totalFrames - s.producedFrames)).toUInt32
  else
    let room := s.config.queueCapacityFrames.toUInt64 - (s.readFrames - s.consumedFrames)
    let unread := s.committedFrames - s.readFrames
    let count := min (min maxBlock room) unread
    if s.readFrames - s.consumedFrames < s.prefill ∧ count > 0 then
      s.beginRead count.toUInt32
    else
      (.error (busyStatus "finite playback is ready to start"), s)

/-- `next_action()` while running. -/
def nextRunning (s : Scheduler) : Result Action × Scheduler :=
  let maxBlock := s.config.maxBlockFrames.toUInt64
  let room := s.config.queueCapacityFrames.toUInt64 - (s.readFrames - s.consumedFrames)
  let refillFrames := min maxBlock (s.committedFrames - s.readFrames)
  if refillFrames > 0 ∧ room ≥ refillFrames then
    s.beginRead refillFrames.toUInt32
  else if s.writtenFrames > s.committedFrames then
    s.beginVisibilityBarrier
  else if s.producedFrames > s.writtenFrames then
    s.beginWrite (min maxBlock (s.producedFrames - s.writtenFrames)).toUInt32
  else if s.producedFrames < s.config.totalFrames then
    s.beginProduce (min maxBlock (s.config.totalFrames - s.producedFrames)).toUInt32
  else if s.consumedFrames = s.config.totalFrames then
    s.beginFinalize
  else
    (.error (busyStatus "finite playback is waiting for queue consumption"), s)

def nextAction (s : Scheduler) : Result Action × Scheduler :=
  if s.actionPending then
    (.error (busyStatus "finite playback already has an outstanding action"), s)
  else if s.state ≠ .ready ∧ s.state ≠ .running then
    (.error invalidConfig, s)
  else if s.state = .ready then
    s.nextReady
  else
    s.nextRunning

/-- The counters after an action that did all it was issued for (the switch of `complete`). -/
def advance (s : Scheduler) (action : Action) : Status × Scheduler :=
  match action.kind with
  | .produce =>
    if action.firstFrame ≠ s.producedFrames then
      s.latch (ioError "finite playback producer cursor changed") .failed
    else
      (.success, { s with producedFrames := s.producedFrames + action.frames.toUInt64 })
  | .write =>
    if action.firstFrame ≠ s.writtenFrames ∨
        action.frames.toUInt64 > s.producedFrames - s.writtenFrames then
      s.latch (ioError "finite playback writer cursor changed") .failed
    else
      (.success, { s with writtenFrames := s.writtenFrames + action.frames.toUInt64 })
  | .visibilityBarrier =>
    if action.firstFrame ≠ s.committedFrames ∨
        action.firstFrame + action.frames.toUInt64 ≠ s.writtenFrames then
      s.latch (ioError "finite playback visibility watermark changed") .failed
    else
      (.success, { s with committedFrames := s.writtenFrames })
  | .read =>
    if action.firstFrame ≠ s.readFrames ∨
        action.firstFrame + action.frames.toUInt64 > s.committedFrames then
      s.latch (ioError "finite playback read crossed its committed watermark") .failed
    else
      (.success, { s with readFrames := s.readFrames + action.frames.toUInt64 })
  | .finalize => (.success, { s with artifactFinalized := true, state := .completed })

/-- Whether `frameCount` is not what `action` reports when it did all it was issued for. -/
def wrongCount (action : Action) (frameCount : UInt32) : Option Status :=
  if action.kind = .visibilityBarrier ∨ action.kind = .finalize then
    if frameCount ≠ 0 then
      some (ioError "finite playback action returned an unexpected frame count")
    else
      none
  else if frameCount ≠ action.frames then
    some (ioError "finite playback action completed a short frame count")
  else
    none

/-- The pending action is over. -/
def settle (s : Scheduler) : Scheduler := { s with actionPending := false, pendingAction := {} }

def complete (s : Scheduler) (action : Action) (operationStatus : Status) (frameCount : UInt32) :
    Status × Scheduler :=
  if !s.actionMatches action then
    (invalidArgument "finite playback action ticket mismatch", s)
  else
    let s := s.settle
    if s.state = .cancelling ∨ s.state = .failed then
      (s.firstStatus, { s with state := if s.state = .cancelling then .cancelled else s.state })
    else if !operationStatus.isOk then
      s.latch operationStatus .failed
    else
      match wrongCount action frameCount with
      | some status => s.latch status .failed
      | none => s.advance action

def start (s : Scheduler) : Status × Scheduler :=
  if s.state ≠ .ready then
    (invalidConfig, s)
  else if s.committedFrames < s.requiredLeadFrames ∨
      s.readFrames - s.consumedFrames < s.prefill then
    (busyStatus "finite playback lead or queue prefill is not ready", s)
  else
    (.success, { s with started := true, state := .running })

def consume (s : Scheduler) (frames : UInt32) : Status × Scheduler :=
  if !s.started ∨ s.state ≠ .running ∨ frames = 0 ∨ frames > s.config.maxBlockFrames then
    (invalidArgument "invalid finite playback consume request", s)
  else if frames.toUInt64 > s.readFrames - s.consumedFrames then
    s.latch ⟨.timeout, "finite playback queue underrun"⟩ .failed
  else
    (.success, { s with consumedFrames := s.consumedFrames + frames.toUInt64 })

def fail (s : Scheduler) (reason : Status) : Status × Scheduler :=
  if s.isTerminal then
    (s.firstStatus, s)
  else if s.state = .unconfigured then
    (invalidConfig, s)
  else if reason.isOk then
    s.latch ⟨.internalError, "finite playback failed without an error status"⟩ .failed
  else
    s.latch reason .failed

def cancel (s : Scheduler) : Status × Scheduler :=
  if s.isTerminal then
    (s.firstStatus, s)
  else if s.state = .unconfigured then
    (invalidConfig, s)
  else
    s.latch (unavailable "finite playback cancelled")
      (if s.actionPending then .cancelling else .cancelled)

def release (s : Scheduler) : Status × Scheduler :=
  if !s.isTerminal ∨ s.actionPending then
    (busyStatus "finite playback is not terminal and settled", s)
  else
    (.success, { s with ownerReleased := true })

end Scheduler

/-! ## Runs -/

inductive Op
  | configure (config : Config)
  | beginProduce (frames : UInt32)
  | beginWrite (frames : UInt32)
  | beginVisibilityBarrier
  | beginRead (frames : UInt32)
  | beginFinalize
  | nextAction
  | complete (action : Action) (operationStatus : Status) (frameCount : UInt32)
  | start
  | consume (frames : UInt32)
  | fail (reason : Status)
  | cancel
  | release
  deriving DecidableEq, Repr

/-- What an operation returns: a status, or an action when it issues one. -/
inductive Reply
  | status (status : Status)
  | issued (action : Action)
  deriving DecidableEq, Repr

def Reply.ofResult : Result Action → Reply
  | .ok action => .issued action
  | .error refusal => .status refusal

namespace Scheduler

def step (s : Scheduler) (op : Op) : Reply × Scheduler :=
  let status (result : Status × Scheduler) : Reply × Scheduler := (.status result.1, result.2)
  let action (result : Result Action × Scheduler) : Reply × Scheduler :=
    (.ofResult result.1, result.2)
  match op with
  | .configure config => status (s.configure config)
  | .beginProduce frames => action (s.beginProduce frames)
  | .beginWrite frames => action (s.beginWrite frames)
  | .beginVisibilityBarrier => action s.beginVisibilityBarrier
  | .beginRead frames => action (s.beginRead frames)
  | .beginFinalize => action s.beginFinalize
  | .nextAction => action s.nextAction
  | .complete ticket operationStatus frameCount =>
    status (s.complete ticket operationStatus frameCount)
  | .start => status s.start
  | .consume frames => status (s.consume frames)
  | .fail reason => status (s.fail reason)
  | .cancel => status s.cancel
  | .release => status s.release

/-- The scheduler after `ops`. -/
def run (s : Scheduler) (ops : List Op) : Scheduler :=
  ops.foldl (fun s op => (s.step op).2) s

end Scheduler

end WaveformGenerator.FinitePlayback
