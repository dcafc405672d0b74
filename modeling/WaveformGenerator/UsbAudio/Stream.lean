import WaveformGenerator.Common.Crc32
import WaveformGenerator.UsbAudio.ChunkRecords
import WaveformGenerator.UsbAudio.Intervals

/-!
# The capture stream (`rt1170/usb_audio.hpp`, `rt1170/usb_audio.cpp`)

`UacStream` counts completed packets, keeps the IN FIFO topped up, feeds an armed play's frames
into it, and judges each gap between completions for missed intervals.
-/

namespace WaveformGenerator.UsbAudio

/-- A completed transfer on the IN endpoint, as the interrupt reports it. -/
structure Completion where
  sent : ByteCount
  frame : UInt16
  tick : TickCount
  deriving DecidableEq, Repr

inductive InTransfer
  | unprimed
  | primed
  deriving DecidableEq, Repr

structure MissLocation where
  frameIndex : FrameCount := 0
  unprimed : IntervalCount := 0
  play : Bool := false
  deriving DecidableEq, Repr

inductive StreamState
  | closed
  | priming
  | streaming
  deriving DecidableEq, Repr

def streamNotConfigured : Status := ⟨.unavailable, "UAC2 stream outside a configuration"⟩
def streamFormatUnknown : Status := ⟨.invalidArgument, "UAC2 stream format unknown"⟩
def streamNotOpen : Status := ⟨.unavailable, "NO_STREAM"⟩
def streamInterrupted : Status := ⟨.unavailable, "USB_STREAM_CLOSED"⟩
def chunkRefused : Status := ⟨.ioError, "UAC2 IN FIFO refused a chunk"⟩

/-- Whether stream index `position` has reached `target`: it is less than half the range past. -/
def indexReached (position target : FrameCount) : Bool := position - target < 0x80000000

structure ScheduledStart where
  index : FrameCount
  streamOpens : UInt32
  deriving DecidableEq, Repr

structure StreamCounters where
  state : StreamState := .closed
  format : StreamFormat := {}
  sentMismatches : UInt16 := 0
  opens : UInt32 := 0
  framesSent : FrameCount := 0
  framesQueued : FrameCount := 0
  sourceFrames : FrameCount := 0
  shortPackets : UInt32 := 0
  rejectedChunks : UInt32 := 0
  missedIntervals : IntervalCount := 0
  lastMiss : MissLocation := {}
  maxGap : UsbFrameSpan := 0
  watchdogExpiries : UInt32 := 0
  unprimedIntervals : IntervalCount := 0
  deriving DecidableEq, Repr

structure PlayStatistics where
  format : StreamFormat := {}
  acceptFrameIndex : FrameCount := 0
  fileFrames : FrameCount := 0
  firstFrameIndex : FrameCount := 0
  firstFrameSof : UsbFrameCount := 0
  lastFrameIndex : FrameCount := 0
  crc32Left : UInt32 := 0
  crc32Right : UInt32 := 0
  missedIntervals : IntervalCount := 0
  unprimedIntervals : IntervalCount := 0
  firstMissFrameIndex : FrameCount := 0
  pendingFrames : FrameCount := 0
  progressTick : TickCount := 0
  armed : Bool := false
  interrupted : Bool := false
  stalled : Bool := false
  missUnconfirmed : Bool := false
  deriving DecidableEq, Repr

/-- The play's missed intervals that a later completion has confirmed. -/
def confirmedMissed (play : PlayStatistics) : IntervalCount :=
  if play.missUnconfirmed then missedAfterGap play.missedIntervals 0 else play.missedIntervals

/-- The latest gap that added to the stream's missed intervals. -/
structure LatestGap where
  counted : IntervalCount := 0
  unprimed : IntervalCount := 0
  earlier : MissLocation := {}
  deriving DecidableEq, Repr

structure IntervalTracker where
  last : UsbFrameCount := 0
  lastTick : TickCount := 0
  streamMissed : IntervalCount := 0
  streamUnprimed : IntervalCount := 0
  latestGap : LatestGap := {}
  samples : GapSamples := {}
  valid : Bool := false
  deriving DecidableEq, Repr

structure ChannelCrcs where
  left : Crc32 := {}
  right : Crc32 := {}
  deriving DecidableEq, Repr

structure UacStream where
  counters : StreamCounters := {}
  play : PlayStatistics := {}
  interval : IntervalTracker := {}
  records : ChunkRecords := {}
  queuedCrcs : ChannelCrcs := {}
  playOpens : UInt32 := 0
  stallTimeout : TickSpan := 0
  startAt : Option FrameCount := none
  chunk : Chunk := .replicate 48 {}
  playJudged : Bool := false
  configured : Bool := false
  inFlight : Bool := false
  playMismatched : Bool := false
  deriving DecidableEq, Repr

/-- The IN FIFO as the stream sees it (`InFifo`): `write` returns the bytes accepted. -/
class InFifo (φ : Type) where
  queued : φ → ByteCount
  freeSpace : φ → ByteCount
  write : φ → List UInt8 → ByteCount × φ

/-- What supplies an armed play's chunks (`FrameSource`): a whole chunk, and how many of its frames
lead it as the play's. -/
class FrameSource (σ : Type) where
  fill : σ → FrameCount × Chunk × σ

/-- Exact digital silence. -/
abbrev Silence := Unit

instance : FrameSource Silence where
  fill _ := (0, .replicate 48 {}, ())

/-- A play of zero samples that has `frames` of them for each chunk. -/
structure ZeroSource where
  frames : FrameCount

instance : FrameSource ZeroSource where
  fill source := (source.frames, .replicate 48 {}, source)

/-- A chunk the stream has written to the FIFO, with the number of its leading frames that are the
play's. -/
structure WrittenChunk where
  frames : Chunk
  fileFrames : FrameCount
  deriving DecidableEq, Repr

namespace UacStream

/-! ## Streams and plays begin and end -/

def endStream (s : UacStream) : UacStream :=
  { s with
    counters := { s.counters with state := .closed, format := {} }
    records := s.records.clear
    play := { s.play with
      pendingFrames := 0
      armed := false
      interrupted := s.play.armed || s.play.interrupted }
    playJudged := false
    inFlight := false
    startAt := none }

def restartPlay (s : UacStream) (acceptFrameIndex : FrameCount) : UacStream :=
  { s with
    play := { acceptFrameIndex }
    playJudged := false
    playMismatched := false
    queuedCrcs := {}
    startAt := none
    records := s.records.forgetFileFrames }

def configure (s : UacStream) : UacStream := { s with configured := true }.endStream

def deconfigure (s : UacStream) : UacStream := { s with configured := false }.endStream

def close (s : UacStream) : UacStream := s.endStream

def acceptPlay (s : UacStream) : Status × UacStream :=
  if s.counters.state = .closed then
    (streamNotOpen, s)
  else
    (.success, { s.restartPlay s.counters.framesSent with playOpens := s.counters.opens })

def clearPlay (s : UacStream) : UacStream := s.restartPlay 0

def arm (s : UacStream) (now : TickCount) (stallTimeout : TickSpan)
    (start : Option ScheduledStart) : Status × UacStream :=
  if s.counters.state = .closed ∨ s.counters.opens ≠ s.playOpens then
    (streamInterrupted, { s with play := { s.play with armed := false, interrupted := true } })
  else
    let startAt := start.bind fun start =>
      if start.streamOpens = s.counters.opens ∧ !indexReached s.counters.framesQueued start.index
      then some start.index else none
    (.success, { s with
      startAt
      stallTimeout
      play := { s.play with armed := true, progressTick := now } })

def disarm (s : UacStream) : UacStream := { s with play := { s.play with armed := false } }

/-! ## Queueing -/

/-- Room for one more packet of the stream's format, within the target. -/
def hasRoom {φ : Type} [InFifo φ] (s : UacStream) (fifo : φ) : Bool :=
  let packet := packetBytes s.counters.format
  !s.records.isFull && InFifo.queued fifo + packet ≤ fifoTargetBytes s.counters.format &&
    InFifo.freeSpace fifo ≥ packet

def addFrame (crcs : ChannelCrcs) (frame : StereoFrame) : ChannelCrcs where
  left := crcs.left.update (pcm24Bytes frame.left)
  right := crcs.right.update (pcm24Bytes frame.right)

/-- The play's CRCs once the chunk's file frames, which lead it, are added. -/
def crcsWith (s : UacStream) (fileFrames : FrameCount) : ChannelCrcs :=
  (s.chunk.toList.take fileFrames.toNat).foldl addFrame s.queuedCrcs

def countQueued (s : UacStream) (fileFrames : FrameCount) (crcs : ChannelCrcs) : UacStream :=
  { s with
    queuedCrcs := crcs
    counters := { s.counters with
      framesQueued := s.counters.framesQueued + chunkFrames
      sourceFrames := s.counters.sourceFrames + fileFrames }
    play := { s.play with pendingFrames := s.play.pendingFrames + fileFrames } }

/-- Writes the chunk just filled together with its record. -/
def queueChunk {φ : Type} [InFifo φ] (s : UacStream) (fifo : φ) (fileFrames : FrameCount) :
    Status × UacStream × φ :=
  let crcs := s.crcsWith fileFrames
  let (recorded, records) := s.records.push
    { start := s.counters.framesQueued, fileFrames, crc32Left := crcs.left.value,
      crc32Right := crcs.right.value }
  if !recorded.isOk then
    (recorded, s, fifo)
  else
    let (accepted, fifo) := InFifo.write fifo (packFrames s.chunk s.counters.format)
    if accepted ≠ packetBytes s.counters.format then
      (chunkRefused, { s with records := records.dropNewest }, fifo)
    else
      (.success, { s with records }.countQueued fileFrames crcs, fifo)

/-- Whether the chunk about to be filled may carry the play's frames; the schedule is then done
with. -/
def startReached (s : UacStream) : Bool × UacStream :=
  match s.startAt with
  | none => (true, s)
  | some start =>
    if !indexReached s.counters.framesQueued start then (false, s)
    else (true, { s with startAt := none })

/-- The next chunk from the source while armed and past a scheduled start, else silence. -/
def fill {σ : Type} [FrameSource σ] (s : UacStream) (source : σ) : FrameCount × UacStream × σ :=
  let silent (s : UacStream) : FrameCount × UacStream × σ :=
    (0, { s with chunk := .replicate 48 {} }, source)
  if s.play.armed then
    let (reached, s) := s.startReached
    if reached then
      let (supplied, chunk, source) := FrameSource.fill source
      (min supplied chunkFrames, { s with chunk }, source)
    else
      silent s
  else
    silent s

/-- What a top-up leaves, with the chunks it has written. -/
structure Feed (φ σ : Type) where
  stream : UacStream
  fifo : φ
  source : σ
  written : List WrittenChunk := []

/-- At most `limit` chunks, while there is room. -/
def topUpWithin {φ σ : Type} [InFifo φ] [FrameSource σ] : Nat → Feed φ σ → Feed φ σ
  | 0, feed => feed
  | limit + 1, feed =>
    if feed.stream.hasRoom feed.fifo then
      let (fileFrames, filled, source) := feed.stream.fill feed.source
      let (status, stream, fifo) := filled.queueChunk feed.fifo fileFrames
      if status.isOk then
        topUpWithin limit
          { stream, fifo, source, written := feed.written ++ [⟨filled.chunk, fileFrames⟩] }
      else
        { stream := { stream with counters := { stream.counters with
            rejectedChunks := stream.counters.rejectedChunks + 1 } }
          fifo, source, written := feed.written }
    else
      feed

def topUp {φ σ : Type} [InFifo φ] [FrameSource σ] (s : UacStream) (fifo : φ) (source : σ) :
    Feed φ σ :=
  topUpWithin fifoTargetChunks.toNat { stream := s, fifo, source }

/-- The per-stream counters restart in `format`. -/
def opened (s : UacStream) (format : StreamFormat) : UacStream :=
  let s := s.endStream
  { s with
    counters := { s.counters with
      opens := s.counters.opens + 1
      state := .priming
      format
      framesSent := 0
      framesQueued := 0
      sourceFrames := 0
      lastMiss := {}
      maxGap := 0 }
    interval := {} }

def «open» {φ : Type} [InFifo φ] (s : UacStream) (fifo : φ) (format : StreamFormat) :
    Status × Feed φ Silence :=
  if !s.configured then
    (streamNotConfigured, { stream := s, fifo, source := () })
  else if format ∉ streamFormats then
    (streamFormatUnknown, { stream := s, fifo, source := () })
  else
    (.success, (s.opened format).topUp fifo ())

/-! ## The gap between completions -/

def setStreamUnprimed (s : UacStream) (updated : IntervalCount) : UacStream :=
  { s with
    counters := { s.counters with
      unprimedIntervals :=
        withPartUpdated s.counters.unprimedIntervals s.interval.streamUnprimed updated }
    interval := { s.interval with streamUnprimed := updated } }

/-- One interval of the latest gap was a late read. -/
def takeBackLatestGap (s : UacStream) : UacStream :=
  let gap := s.interval.latestGap
  if gap.counted = 0 then
    s
  else
    let counted := missedAfterGap gap.counted 0
    let unprimed := if gap.unprimed ≠ 0 then missedAfterGap gap.unprimed 0 else gap.unprimed
    let s := if gap.unprimed ≠ 0 then
        s.setStreamUnprimed (missedAfterGap s.interval.streamUnprimed 0)
      else
        s
    if counted = 0 then
      { s with
        counters := { s.counters with lastMiss := gap.earlier }
        interval := { s.interval with latestGap := {} } }
    else
      { s with
        counters := { s.counters with lastMiss := { s.counters.lastMiss with unprimed } }
        interval := { s.interval with latestGap := { gap with counted, unprimed } } }

def locateMiss (s : UacStream) (added unprimed : IntervalCount) (forPlay : Bool) : UacStream :=
  { s with
    interval := { s.interval with
      latestGap := { counted := added, unprimed, earlier := s.counters.lastMiss } }
    counters := { s.counters with
      lastMiss := { frameIndex := s.counters.framesSent, unprimed, play := forPlay } }
  }.setStreamUnprimed (s.interval.streamUnprimed + unprimed)

def countMissed (s : UacStream) (elapsed : UsbFrameSpan) (samples : GapSamples)
    (forPlay : Bool) : UacStream :=
  let before := s.interval.streamMissed
  let streamMissed := missedAfterGap before elapsed
  let s := { s with
    interval := { s.interval with streamMissed }
    counters := { s.counters with
      missedIntervals := withPartUpdated s.counters.missedIntervals before streamMissed } }
  if streamMissed < before then
    s.takeBackLatestGap
  else
    let added := streamMissed - before
    let moved : Prop := samples.hostSkipped > added ∧ s.interval.latestGap.counted ≠ 0
    let s := if moved then s.takeBackLatestGap else s
    let added := if moved then added + 1 else added
    if added ≠ 0 then s.locateMiss added (unprimedPart added samples) forPlay else s

/-- Whether the play judges this gap: it delays file frames, or is a zero gap right after one it
judged. -/
def judgesForPlay (s : UacStream) (elapsed : UsbFrameSpan) : Bool × UacStream :=
  let playJudged := s.play.pendingFrames ≠ 0 || (s.playJudged && elapsed == 0)
  (playJudged, { s with playJudged })

def countPlayMissed (s : UacStream) (elapsed : UsbFrameSpan)
    (streamUnprimedBefore : IntervalCount) : UacStream :=
  let missed := missedAfterGap s.play.missedIntervals elapsed
  let moved := movedWith s.play.unprimedIntervals streamUnprimedBefore s.interval.streamUnprimed
  { s with play := { s.play with
      firstMissFrameIndex :=
        if missed = 0 then 0
        else if s.play.missedIntervals = 0 then s.counters.framesSent
        else s.play.firstMissFrameIndex
      missUnconfirmed := missed > s.play.missedIntervals
      missedIntervals := missed
      unprimedIntervals := min moved missed } }

/-- The gap a completion ends, of `elapsed` frames, judged for the stream and the play. -/
def judgeGap (s : UacStream) (elapsed : UsbFrameSpan) (samples : GapSamples) : UacStream :=
  let (forPlay, s) := s.judgesForPlay elapsed
  let streamUnprimedBefore := s.interval.streamUnprimed
  let s := s.countMissed elapsed samples forPlay
  if forPlay then s.countPlayMissed elapsed streamUnprimedBefore else s

def trackInterval (s : UacStream) (completion : Completion) : UacStream :=
  let number := completion.frame.toUInt32 &&& usbFrameNumberMask
  let samples := s.interval.samples
  let s := { s with
    interval := { s.interval with samples := {} }
    play := { s.play with missUnconfirmed := false } }
  if !s.interval.valid then
    { s with interval := { last := number, lastTick := completion.tick, valid := true } }
  else
    let aliased := (number - s.interval.last) &&& usbFrameNumberMask
    let elapsed := dealiasedGap aliased (completion.tick - s.interval.lastTick)
    { s with
      interval := { s.interval with
        last := s.interval.last + elapsed
        lastTick := completion.tick }
      counters := { s.counters with maxGap := max s.counters.maxGap elapsed }
    }.judgeGap elapsed samples

/-! ## Completions -/

def noteProgress (s : UacStream) (tick : TickCount) : UacStream :=
  { s with play := { s.play with
      stalled := s.play.stalled ||
        (s.play.armed && decide (tick - s.play.progressTick > s.stallTimeout))
      progressTick := tick } }

/-- The frames a completion confirms sent; and whether the packet just loaded holds a chunk. -/
def confirmLoaded (s : UacStream) (fifoLevel : ByteCount) : FrameCount × UacStream :=
  let confirmed := if s.inFlight then chunkFrames else 0
  let unconfirmed := s.counters.framesQueued - (s.counters.framesSent + confirmed)
  (confirmed, { s with inFlight := unconfirmed > fifoLevel / frameBytes s.counters.format })

def noteMismatch (s : UacStream) (reported : ByteCount) (confirmed : FrameCount) : UacStream :=
  let loaded := confirmed * frameBytes s.counters.format
  if reported = loaded then
    s
  else
    { s with
      counters := { s.counters with sentMismatches :=
        if s.counters.sentMismatches ≠ 0xFFFF then s.counters.sentMismatches + 1
        else s.counters.sentMismatches }
      playMismatched := s.playMismatched || s.play.pendingFrames ≠ 0 }

/-- A chunk is confirmed sent: its file frames join the play's sent prefix. -/
def apply (s : UacStream) (record : ChunkRecord) : UacStream :=
  if record.fileFrames = 0 then
    s
  else
    let play :=
      if s.play.fileFrames = 0 then
        { s.play with
          firstFrameIndex := record.start
          firstFrameSof := s.interval.last
          format := s.counters.format }
      else
        s.play
    { s with play := { play with
        fileFrames := play.fileFrames + record.fileFrames
        lastFrameIndex := record.start + record.fileFrames - 1
        crc32Left := record.crc32Left
        crc32Right := record.crc32Right
        pendingFrames := play.pendingFrames - min play.pendingFrames record.fileFrames } }

def maxOutstandingFrames : UInt32 := .ofNat chunkRecordCapacity * chunkFrames

/-- Applies and drops the records of the chunks sent, at most `limit` of them. -/
def retireWithin : Nat → UacStream → UacStream
  | 0, s => s
  | limit + 1, s =>
    match s.records.front with
    | none => s
    | some oldest =>
      let sentSinceStart := s.counters.framesSent - oldest.start
      if sentSinceStart < chunkFrames ∨ sentSinceStart > maxOutstandingFrames then
        s
      else
        let s := s.apply oldest
        retireWithin limit { s with records := s.records.pop }

/-- Each turn of the loop drops a record, so the records are turns enough. -/
def retireSentChunks (s : UacStream) : UacStream := retireWithin s.records.count s

def commit (s : UacStream) (completion : Completion) (fifoLevel : ByteCount) : UacStream :=
  let s := s.noteProgress completion.tick
  let (confirmed, s) := s.confirmLoaded fifoLevel
  let s := s.noteMismatch completion.sent confirmed
  if s.counters.state = .priming ∧ confirmed = 0 then
    s
  else
    let shortPackets :=
      if completion.sent ≠ packetBytes s.counters.format then s.counters.shortPackets + 1
      else s.counters.shortPackets
    let s := { s with counters := { s.counters with shortPackets, state := .streaming } }
    let s := s.trackInterval completion
    let s := { s with counters := { s.counters with
      framesSent := s.counters.framesSent + confirmed } }
    s.retireSentChunks

def onTxDone {φ σ : Type} [InFifo φ] [FrameSource σ] (s : UacStream) (fifo : φ) (source : σ)
    (completion : Completion) : Feed φ σ :=
  if s.counters.state = .closed then
    { stream := s, fifo, source }
  else
    (s.commit completion (InFifo.queued fifo)).topUp fifo source

def onWatchdog (s : UacStream) (transfer : InTransfer) : UacStream :=
  if s.counters.state ≠ .streaming then
    s
  else
    let samples := s.interval.samples
    { s with
      counters := { s.counters with watchdogExpiries := s.counters.watchdogExpiries + 1 }
      interval := { s.interval with samples :=
        match transfer with
        | .primed => { samples with hostSkipped := samples.hostSkipped + 1 }
        | .unprimed => { samples with unprimed := true } } }

end UacStream

end WaveformGenerator.UsbAudio
