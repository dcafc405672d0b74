import WaveformGenerator.Player.OutputFifo
import WaveformGenerator.Playlist.ResultRing
import WaveformGenerator.Playlist.Timing
import WaveformGenerator.UsbAudio.Stream

/-!
# The playlist sequencer (`rt1170/player.cpp`)

The player task takes an accepted playlist item by item. It polls: it serves one command at the head
of every wait and while an item plays, and nothing else changes the playlist. What an item's run does
is the player's.
-/

namespace WaveformGenerator.Playlist

open Player UsbAudio

structure Item where
  file : String := ""
  gap : GapFrames := {}
  route : Route := .codec
  label : String := ""
  scenario : String := ""
  seed : Option UInt32 := none
  attenuation : UInt32 := 0
  duration : Option UInt32 := none
  scenarioCrc32 : UInt32 := 0
  deriving DecidableEq, Repr

abbrev maxItems : Nat := 256

/-- The items of a playlist file, in its order. -/
structure ItemTable where
  items : List Item := []
  size_le : items.length ≤ maxItems := by decide

inductive State
  | idle
  | running
  | gap
  | pausedRingFull
  | done
  | aborted
  | error
  deriving DecidableEq, Repr

inductive Policy
  | stop
  | continueOnError
  deriving DecidableEq, Repr

/-- The running or last playlist. -/
structure Progress where
  state : State := .idle
  name : String := ""
  run : UInt32 := 0
  policy : Policy := .stop
  items : UInt32 := 0
  index : UInt32 := 0
  completed : UInt32 := 0
  failed : UInt32 := 0
  deriving DecidableEq, Repr

/-- The state a playlist ends in after an item, or none when it goes on. -/
def endAfter (outcome : Outcome) (policy : Policy) (stopRequested : Bool) : Option State :=
  if stopRequested ∨ outcome = .aborted then some .aborted
  else if outcome = .error ∧ policy = .stop then some .error
  else none

/-! ## Waits -/

/-- `configTICK_RATE_HZ` is 1000. -/
def ticksFromMs (milliseconds : UInt32) : TickSpan := milliseconds

def usbStallTimeout : TickSpan := ticksFromMs 100

def scheduleSlack : TickSpan := ticksFromMs 1000

/-- The gap after an item. -/
structure GapWait where
  streamEnd : Option ScheduledStart := none
  began : TickCount
  length : TickSpan
  deriving DecidableEq, Repr

/-- What a gap has seen of its stream: its frames sent when they last moved, and the tick then. -/
structure StreamProgress where
  framesSent : FrameCount := 0
  moved : TickCount := 0
  seen : Bool := false
  deriving DecidableEq, Repr

def StreamProgress.stalled (progress : StreamProgress) (stream : StreamCounters) (now : TickCount) :
    Bool × StreamProgress :=
  if !progress.seen ∨ stream.framesSent ≠ progress.framesSent then
    (false, { framesSent := stream.framesSent, moved := now, seen := true })
  else (now - progress.moved > usbStallTimeout, progress)

def sameOpenStream (stream : StreamCounters) (start : ScheduledStart) : Bool :=
  stream.state ≠ .closed && stream.opens = start.streamOpens

/-- What the player task reads in a turn: the stream, and the tick count twice. -/
structure Reading where
  stream : StreamCounters := {}
  now : TickCount := 0
  later : TickCount := 0
  deriving DecidableEq, Repr

def ticksLeft (gap : GapWait) (now : TickCount) : TickSpan :=
  if now - gap.began ≥ gap.length then 0 else gap.length - (now - gap.began)

/-- The ticks that `gap` still lasts. -/
def gapLeft (gap : GapWait) (progress : StreamProgress) (reading : Reading) :
    TickSpan × StreamProgress :=
  match gap.streamEnd with
  | none => (ticksLeft gap reading.later, progress)
  | some streamEnd =>
    if sameOpenStream reading.stream streamEnd then
      match progress.stalled reading.stream reading.now with
      | (true, progress) => (ticksLeft gap reading.later, progress)
      | (false, progress) =>
        if indexReached reading.stream.framesSent streamEnd.index then (0, progress)
        else (ticksFromMs (wholeChunkFrames (streamEnd.index - reading.stream.framesSent) /
          framesPerMillisecond), progress)
    else (ticksLeft gap reading.later, progress)

/-! ## Items -/

structure StartPlan where
  target : Option ScheduledStart := none
  armedForTarget : Bool := false
  deriving DecidableEq, Repr

def runOutcome : PlayerState → Outcome
  | .done => .done
  | .aborted => .aborted
  | _ => .error

/-- Why an item ended: its end, STOP, or the cause of the error it latched. -/
def endCause : Outcome → PlayerError → EndCause
  | .done, _ => .end
  | .aborted, _ => .stop
  | .error, .underrun => .underrun
  | .error, .missedInterval => .missedInterval
  | .error, .usbStreamClosed => .streamClosed
  | .error, .usbStall => .stall
  | .error, .seek => .sdRead
  | .error, .sdRead => .sdRead
  | .error, .usbAssert => .usbAssert
  | .error, .deadlineMiss => .deadlineMiss
  | .error, .usbNoStream => .noStream
  | .error, _ => .fault

/-- The number STATUS gives an error. -/
def errorNumber (error : PlayerError) : UInt32 := .ofNat error.ctorIdx

def wholePasses (outputFrames cardFrames : UInt32) : UInt32 :=
  if cardFrames = 0 then 0 else outputFrames / cardFrames

/-- How `run_player` ended. -/
structure RunEnd where
  state : PlayerState
  error : PlayerError := .none
  outputFrames : UInt32 := 0
  play : PlayRecord := {}
  deriving DecidableEq, Repr

def recordPlay (block : ResultBlock) (ended : RunEnd) : ResultBlock :=
  let outcome := runOutcome ended.state
  { block with
    outcome
    playerError := if outcome = .error then errorNumber ended.error else 0
    loops := wholePasses ended.outputFrames ended.play.fileFramesTotal
    endCause := endCause outcome ended.error
    play := ended.play }

def newBlock (run : UInt32) (index : Nat) (item : Item) (plan : StartPlan) (now : TickCount) :
    ResultBlock where
  run := run
  item := .ofNat index
  label := item.label
  file := item.file
  route := item.route
  scenario := item.scenario
  seed := item.seed
  scenarioCrc32 := item.scenarioCrc32
  gap := item.gap.value
  scheduledIndex := plan.target.map (·.index)
  startTick := now
  attenuation := item.attenuation
  duration := item.duration

/-- The block of an item whose output is refused. -/
def refusedBlock (block : ResultBlock) (now : TickCount) : ResultBlock :=
  { block with
    outcome := .error
    playerError := errorNumber .usbNoStream
    endCause := endCause .error .usbNoStream
    endTick := now }

def beginGap (item : Item) (block : ResultBlock) (streamOpens : UInt32) (now : TickCount) :
    GapWait where
  streamEnd :=
    if item.route = .usb ∧ block.play.sentFrames ≠ 0 then
      some ⟨nextStartIndex block.play.firstFrameIndex block.play.sentFrames item.gap, streamOpens⟩
    else none
  began := now
  length := ticksFromMs (gapMilliseconds item.gap)

/-! ## The sequencer -/

/-- Where `run_playlist` is. -/
inductive Phase
  | idle
  /-- `wait_for_result_room` before item `index`. -/
  | room (index : Nat) (gap : Option GapWait)
  | planning (index : Nat) (gap : Option GapWait)
  | gap (index : Nat) (gap : GapWait) (progress : StreamProgress)
  | starting (index : Nat) (plan : StartPlan)
  /-- In `run_player`. -/
  | playing (index : Nat) (block : ResultBlock) (streamOpens : UInt32)
  | recording (index : Nat) (block : ResultBlock) (streamOpens : UInt32)
  | lastGap (gap : GapWait) (progress : StreamProgress)
  deriving DecidableEq, Repr

structure Sequencer where
  table : ItemTable := {}
  progress : Progress := {}
  results : ResultRing := .initial
  ownsPlayer : Bool := false
  stopRequested : Bool := false
  cleanupPending : Bool := false
  /-- Where the item's play is to begin. -/
  start : Option ScheduledStart := none
  phase : Phase := .idle

inductive Command
  /-- With what a retry of a pending cleanup comes to. -/
  | stop (cleaned : Bool)
  | playlistAck (through : UInt32)
  /-- A PLAYLIST whose file and items pass every check. -/
  | playlistStart (name : String) (table : ItemTable) (policy : Policy)
  | other

/-- What a turn finds: the command in the mailbox, the readings, what the output answers to an item
and what its run has come to. -/
structure Turn where
  served : Option Command := none
  reading : Reading := {}
  accepted : Bool := true
  ended : Option RunEnd := none
  cleanupPending : Bool := false

/-- What happens to the playlist in a turn. -/
inductive Note
  | accepted (table : ItemTable)
  | stop
  | freed (blocks : List ResultBlock)
  | began (index : Nat)
  | pushed (block : ResultBlock)
  | refused (block : ResultBlock)
  | ended (state : State) (cleanupPending : Bool)

namespace Sequencer

def setProgress (s : Sequencer) (state : State) (index : Nat) : Sequencer :=
  { s with progress := { s.progress with state, index := .ofNat index } }

def beginPlaylist (s : Sequencer) (name : String) (table : ItemTable) (policy : Policy) :
    Sequencer :=
  { s with
    table
    progress := {
      state := .running
      name
      run := s.progress.run + 1
      policy
      items := .ofNat table.items.length }
    ownsPlayer := true
    stopRequested := false
    phase := .room 0 none }

/-- `service_player_command`, as far as it concerns the playlist. -/
def serve (s : Sequencer) : Option Command → Sequencer × List Note
  | none | some .other => (s, [])
  | some (.stop cleaned) =>
    if s.cleanupPending then ({ s with cleanupPending := !cleaned }, [.stop])
    else if s.ownsPlayer then ({ s with stopRequested := true }, [.stop])
    else (s, [.stop])
  | some (.playlistAck through) =>
    if s.cleanupPending then (s, [])
    else
      let freed := s.results.count.toNat - (s.results.acknowledge through).2.count.toNat
      ({ s with results := (s.results.acknowledge through).2 },
        [.freed (s.results.copyOldest freed)])
  | some (.playlistStart name table policy) =>
    if s.cleanupPending ∨ s.ownsPlayer then (s, [])
    else (s.beginPlaylist name table policy, [.accepted table])

def endPlaylist (s : Sequencer) (state : State) : Sequencer :=
  { s with
    progress := { s.progress with
      state
      index := if state = .done then s.progress.items else s.progress.index }
    ownsPlayer := false
    stopRequested := false
    phase := .idle }

/-- The playlist ends in `state`, after the notes before. -/
def ending (s : Sequencer) (notes : List Note) (state : State) : Sequencer × List Note :=
  (s.endPlaylist state, notes ++ [.ended state s.cleanupPending])

def recordResult (s : Sequencer) (block : ResultBlock) : Status × Sequencer :=
  match s.results.push block with
  | (status, results) =>
    if status.isOk then
      (status, { s with
        results
        progress := { s.progress with
          completed := s.progress.completed + 1
          failed := s.progress.failed + if block.outcome = .error then 1 else 0 } })
    else (status, { s with results })

/-- The rest of `run_item` once item `index` has ended with `block`. -/
def afterItem (s : Sequencer) (index : Nat) (item : Item) (block : ResultBlock)
    (streamOpens : UInt32) (now : TickCount) : Sequencer × List Note :=
  let pushed := Note.pushed { block with seq := s.results.nextSeq }
  match s.recordResult block with
  | (status, s) =>
    if !status.isOk then s.ending [.refused block] .error
    else if s.cleanupPending then s.ending [pushed] .error
    else
      match endAfter block.outcome s.progress.policy s.stopRequested with
      | some state => s.ending [pushed] state
      | none =>
        let gap := beginGap item block streamOpens now
        let s := s.setProgress .gap (index + 1)
        if index + 1 < s.table.items.length then
          ({ s with phase := .room (index + 1) (some gap) }, [pushed])
        else ({ s with phase := .lastGap gap {} }, [pushed])

/-- `plan_start`: at once for the index its gap ends at, or as soon as the gap has passed. -/
def planStart (s : Sequencer) (index : Nat) (item : Item) (gap : Option GapWait)
    (reading : Reading) : Sequencer :=
  match gap with
  | none => { s with phase := .starting index {} }
  | some gap =>
    if item.route = .usb ∧ gap.streamEnd.any (sameOpenStream reading.stream) then
      { s with phase := .starting index {
          target := gap.streamEnd
          armedForTarget := reading.now - gap.began ≤ gap.length + scheduleSlack } }
    else { s.setProgress .gap index with phase := .gap index gap {} }

/-- One turn of the player task. -/
def step (s : Sequencer) (turn : Turn) : Sequencer × List Note :=
  match s.phase with
  | .idle => s.serve turn.served
  | .room index gap =>
    match s.table.items[index]? with
    | none => s.ending [] .done
    | some _ =>
      if s.results.full then
        match (s.setProgress .pausedRingFull index).serve turn.served with
        | (s, notes) => if s.stopRequested then s.ending notes .aborted else (s, notes)
      else ({ s with phase := .planning index gap }, [])
  | .planning index gap =>
    match s.table.items[index]? with
    | none => (s, [])
    | some item => (s.planStart index item gap turn.reading, [])
  | .gap index gap progress =>
    match s.serve turn.served with
    | (s, notes) =>
      if s.stopRequested then s.ending notes .aborted
      else
        match gapLeft gap progress turn.reading with
        | (left, progress) =>
          if left = 0 then ({ s with phase := .starting index {} }, notes)
          else ({ s with phase := .gap index gap progress }, notes)
  | .starting index plan =>
    match s.table.items[index]? with
    | none => (s, [])
    | some item =>
      let s := s.setProgress .running index
      let block := newBlock s.progress.run index item plan turn.reading.now
      if turn.accepted then
        ({ s with
            start := if plan.armedForTarget then plan.target else none
            phase := .playing index block turn.reading.stream.opens }, [.began index])
      else
        ({ s with phase := .recording index (refusedBlock block turn.reading.later) 0 },
          [.began index])
  | .playing index block streamOpens =>
    let s := { s with cleanupPending := turn.cleanupPending }
    match turn.ended with
    | none => s.serve turn.served
    | some ended =>
      let block := recordPlay { block with endTick := turn.reading.now } ended
      ({ s with start := none, phase := .recording index block streamOpens }, [])
  | .recording index block streamOpens =>
    match s.table.items[index]? with
    | none => (s, [])
    | some item => s.afterItem index item block streamOpens turn.reading.now
  | .lastGap gap progress =>
    match s.serve turn.served with
    | (s, notes) =>
      if s.stopRequested then s.ending notes .aborted
      else
        match gapLeft gap progress turn.reading with
        | (left, progress) =>
          if left = 0 then s.ending notes .done
          else ({ s with phase := .lastGap gap progress }, notes)

end Sequencer

end WaveformGenerator.Playlist
