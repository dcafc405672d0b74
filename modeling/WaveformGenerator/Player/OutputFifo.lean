import WaveformGenerator.Lib.UInt
import WaveformGenerator.Lib.Ring

/-!
# The output FIFO (`rt1170/player.cpp`)

The producer task writes frames into `sample_ring` and publishes them by an index; the codec's
audio task or the USB interrupt consumes them a block at a time. A consume is one step. The
producer's call is as many steps as the consumer can come between: the indexes loaded, each frame
stored, the index published.
-/

namespace WaveformGenerator.Player

abbrev Pcm24Sample := Int32

inductive PlayerState
  | stopped
  | waitingForCommand
  | mounting
  | opening
  | buffering
  | playing
  | draining
  | done
  | aborted
  | fault
  deriving DecidableEq, Repr

inductive PlayerError
  | none
  | hostInit
  | cardDetect
  | mount
  | open
  | headerIo
  | invalidRiff
  | missingFormat
  | missingData
  | unsupportedFormat
  | seek
  | sdRead
  | codecConfig
  | codecLevel
  | codecStart
  | underrun
  | impairment
  | nativeSource
  | liveControl
  | usbStreamClosed
  | usbStall
  | usbNoStream
  | cutLog
  | missedInterval
  | usbAssert
  | deadlineMiss
  | usbUnconfirmed
  deriving DecidableEq, Repr

def ringCapacityFrames : UInt32 := 32768
def ringMask : UInt32 := ringCapacityFrames - 1
def ringCriticalFrames : UInt32 := 4800

/-- What the FIFO's two ends count of a run. -/
structure RuntimeCounters where
  error : PlayerError := .none
  fileFramesEnqueued : UInt32 := 0
  ringMinFrames : UInt32 := ringCapacityFrames
  ringMinPreEofFrames : UInt32 := ringCapacityFrames
  ringMaxFrames : UInt32 := 0
  framesRequested : UInt32 := 0
  fileFramesSubmitted : UInt32 := 0
  eofCount : UInt32 := 0
  eofSilenceFrames : UInt32 := 0
  underruns : UInt32 := 0
  firstUnderrunFrame : UInt32 := 0
  ringFillSum : UInt64 := 0
  ringFillSamples : UInt32 := 0
  ringCriticalEvents : UInt32 := 0
  ringBelowCritical : Bool := false
  deriving DecidableEq, Repr

structure OutputFifo where
  sampleRing : Vector Pcm24Sample 32768
  ringWriteTotal : UInt32 := 0
  ringReadTotal : UInt32 := 0
  eofEnqueued : Bool := false
  faulted : Bool := false
  stopRequested : Bool := false
  playerState : PlayerState := .stopped
  counters : RuntimeCounters := {}

/-- The slot of a frame by its index: `index & ring_mask`. -/
def ringSlot (index : UInt32) : Fin 32768 :=
  ⟨(index &&& ringMask).toNat, by
    rw [UInt32.toNat_and]
    exact Nat.lt_of_le_of_lt Nat.and_le_right (by decide)⟩

/-- A block as a producer offers it: frame `i` of `frames` is `sampleAt i`. -/
structure SampleBlock where
  frames : UInt32
  sampleAt : UInt32 → Pcm24Sample

/-- `n` frames of a block, from `first` on. -/
def SampleBlock.range (block : SampleBlock) (first : UInt32) (n : Nat) : List Pcm24Sample :=
  (List.range n).map fun i => block.sampleAt (first + .ofNat i)

/-- What a consume puts into the codec's block or the USB chunk: file frames, which lead it, then
silence. -/
structure OutputBlock where
  file : List Pcm24Sample
  silence : UInt32
  deriving DecidableEq, Repr

/-- A sample in bits 31..8 of a slot, the low byte zero. -/
def slotWord (sample : Pcm24Sample) : UInt32 := sample.toUInt32 <<< 8

example : slotWord (-1) = 0xFFFFFF00 := by decide +kernel

/-- The words of one channel of the block; both channels carry the same. -/
def OutputBlock.words (block : OutputBlock) : List UInt32 :=
  block.file.map slotWord ++ .replicate block.silence.toNat 0

namespace OutputFifo

/-- PLAY's critical section: everything restarts but the ring's samples. -/
def beginRun (s : OutputFifo) : OutputFifo :=
  { sampleRing := s.sampleRing, playerState := .mounting }

/-- The first fault of a run wins. -/
def latchFault (s : OutputFifo) (error : PlayerError) : OutputFifo :=
  if s.faulted then
    s
  else
    { s with faulted := true, counters := { s.counters with error }, playerState := .fault }

/-! ## The consumer -/

/-- Why a consumed block carries no file audio. -/
inductive BlockSilence
  | stopped
  | afterEof
  deriving DecidableEq, Repr

def countSilentBlock (s : OutputFifo) (frames : UInt32) (silence : BlockSilence) : OutputFifo :=
  let counters := { s.counters with framesRequested := s.counters.framesRequested + frames }
  { s with counters :=
      if silence = .afterEof then
        { counters with eofSilenceFrames := counters.eofSilenceFrames + frames }
      else
        counters }

def countUnderrun (s : OutputFifo) (frames : UInt32) : OutputFifo :=
  let counters := { s.counters with underruns := s.counters.underruns + 1 }
  let counters :=
    if counters.underruns = 1 then
      { counters with firstUnderrunFrame := counters.framesRequested }
    else
      counters
  { s with counters := { counters with framesRequested := counters.framesRequested + frames } }

/-- Depth statistics, one sample a consumed block. -/
def noteRingDepth (counters : RuntimeCounters) (eofEnqueued : Bool) (fillAfter : UInt32) :
    RuntimeCounters :=
  let counters := { counters with
    ringMinFrames := min counters.ringMinFrames fillAfter
    ringFillSum := counters.ringFillSum + fillAfter.toUInt64
    ringFillSamples := counters.ringFillSamples + 1 }
  if eofEnqueued then
    counters
  else
    let belowCritical := fillAfter < ringCriticalFrames
    { counters with
      ringMinPreEofFrames := min counters.ringMinPreEofFrames fillAfter
      ringCriticalEvents :=
        if belowCritical ∧ !counters.ringBelowCritical then counters.ringCriticalEvents + 1
        else counters.ringCriticalEvents
      ringBelowCritical := belowCritical }

def publishConsumed (s : OutputFifo) (readStart copied frames : UInt32) : OutputFifo :=
  let ringReadTotal := readStart + copied
  let counters := { s.counters with
    framesRequested := s.counters.framesRequested + frames
    fileFramesSubmitted := s.counters.fileFramesSubmitted + copied }
  let counters := noteRingDepth counters s.eofEnqueued (s.ringWriteTotal - ringReadTotal)
  if copied < frames then
    { s with
      ringReadTotal
      counters := { counters with
        eofSilenceFrames := counters.eofSilenceFrames + frames - copied
        eofCount := counters.eofCount + 1 }
      playerState := .draining }
  else
    { s with ringReadTotal, counters }

def copyFromRing (s : OutputFifo) (readStart copied : UInt32) : List Pcm24Sample :=
  (List.range copied.toNat).map fun frame => s.sampleRing[ringSlot (readStart + .ofNat frame)]

/-- Fills one block, and returns it with the file frames copied. -/
def consumeOutput (s : OutputFifo) (frames : UInt32) : OutputBlock × UInt32 × OutputFifo :=
  if s.faulted ∨ s.stopRequested then
    (⟨[], frames⟩, 0, s.countSilentBlock frames .stopped)
  else if s.playerState = .draining ∨ s.playerState = .done then
    (⟨[], frames⟩, 0, s.countSilentBlock frames .afterEof)
  else
    let readStart := s.ringReadTotal
    let copied := min (s.ringWriteTotal - readStart) frames
    if copied < frames ∧ !s.eofEnqueued then
      (⟨[], frames⟩, 0, (s.countUnderrun frames).latchFault .underrun)
    else
      (⟨s.copyFromRing readStart copied, frames - copied⟩, copied,
        s.publishConsumed readStart copied frames)

/-! ## The producer -/

def publishWritten (s : OutputFifo) (writeStart frames : UInt32) : OutputFifo :=
  let ringWriteTotal := writeStart + frames
  { s with
    ringWriteTotal
    counters := { s.counters with
      fileFramesEnqueued := s.counters.fileFramesEnqueued + frames
      ringMaxFrames := max s.counters.ringMaxFrames (ringWriteTotal - s.ringReadTotal) } }

/-- How many of `frames` frames `write_ring` writes before the ring is full or wraps. -/
def writeCount (s : OutputFifo) (frames : UInt32) : UInt32 :=
  let writeStart := s.ringWriteTotal
  let used := writeStart - s.ringReadTotal
  let ringOffset := writeStart &&& ringMask
  let freeFrames := if used ≥ ringCapacityFrames then 0 else ringCapacityFrames - used
  min (min frames freeFrames) (ringCapacityFrames - ringOffset)

/-- `ring[ring_offset + frame] = sample`. -/
def storeFrame (s : OutputFifo) (writeStart frame : UInt32) (sample : Pcm24Sample) : OutputFifo :=
  { s with sampleRing :=
      s.sampleRing.setIfInBounds ((writeStart &&& ringMask) + frame).toNat sample }

def endStream (s : OutputFifo) : OutputFifo := { s with eofEnqueued := true }

end OutputFifo

/-! ## Both ends at work -/

/-- A `write_ring` call under way: it started at `start`, and stored `stored` of `count` frames. -/
structure RingWrite where
  start : UInt32
  count : UInt32
  stored : UInt32
  deriving DecidableEq, Repr

/-- A call of the producer's: `push_block`, which writes the whole block, or one `write_ring`; and
how many frames it has published. -/
structure Push where
  block : SampleBlock
  whole : Bool
  written : UInt32

def Push.published (push : Push) : List Pcm24Sample := push.block.range 0 push.written.toNat

/-- A `consume_output` that is over: the frames asked for, the block it filled, and the count it
returned, which the USB route credits as file frames. -/
structure Consumed where
  frames : UInt32
  block : OutputBlock
  returned : UInt32
  deriving DecidableEq, Repr

/-- Where the producer stands: between calls, at the head of `push_block`'s loop, inside
`write_ring`, or past the end of the stream. -/
inductive Producer
  | idle
  | pushing (push : Push)
  | writing (push : Push) (write : RingWrite)
  | ended

/-- The FIFO with its producer, and both ends' calls that are over. -/
structure Output where
  fifo : OutputFifo
  producer : Producer := .idle
  finished : List Push := []
  consumed : List Consumed := []

inductive Op
  /-- The producer calls `push_block`. -/
  | pushBlock (block : SampleBlock)
  /-- The producer calls `write_ring`, once. -/
  | writeRing (block : SampleBlock)
  /-- The next step of the producer's call. -/
  | produce
  | endStream
  | consume (frames : UInt32)
  | latchFault (error : PlayerError)
  | stop
  /-- The player task's own transitions; draining is reported by the consumer only. -/
  | setState (state : PlayerState) (reported : state ≠ .draining)

namespace Output

/-- The call returns. -/
def finish (s : Output) (push : Push) : Output :=
  { s with producer := .idle, finished := s.finished ++ [push] }

/-- `write_ring` loads the indexes. With no room it returns 0: `push_block` waits. -/
def loadIndexes (s : Output) (push : Push) : Output :=
  let count := s.fifo.writeCount (push.block.frames - push.written)
  if count = 0 then
    if push.whole then { s with producer := .pushing push } else s.finish push
  else
    { s with producer := .writing push ⟨s.fifo.ringWriteTotal, count, 0⟩ }

/-- One step of the call under way. -/
def produce (s : Output) : Output :=
  match s.producer with
  | .idle | .ended => s
  | .pushing push =>
    if push.written < push.block.frames ∧ !s.fifo.faulted ∧ !s.fifo.stopRequested then
      s.loadIndexes push
    else
      s.finish push
  | .writing push write =>
    if write.stored < write.count then
      { s with
        fifo := s.fifo.storeFrame write.start write.stored
          (push.block.sampleAt (push.written + write.stored))
        producer := .writing push { write with stored := write.stored + 1 } }
    else
      let push := { push with written := push.written + write.count }
      let s := { s with fifo := s.fifo.publishWritten write.start write.count }
      if push.whole then { s with producer := .pushing push } else s.finish push

def step (s : Output) : Op → Output
  | .pushBlock block =>
    match s.producer with
    | .idle => { s with producer := .pushing ⟨block, true, 0⟩ }
    | _ => s
  | .writeRing block =>
    match s.producer with
    | .idle => s.loadIndexes ⟨block, false, 0⟩
    | _ => s
  | .produce => s.produce
  | .endStream =>
    match s.producer with
    | .idle => { s with fifo := s.fifo.endStream, producer := .ended }
    | _ => s
  | .consume frames =>
    let (block, returned, fifo) := s.fifo.consumeOutput frames
    { s with fifo, consumed := s.consumed ++ [⟨frames, block, returned⟩] }
  | .latchFault error => { s with fifo := s.fifo.latchFault error }
  | .stop => { s with fifo := { s.fifo with stopRequested := true } }
  | .setState state _ => { s with fifo := { s.fifo with playerState := state } }

/-- A run begins, whatever the last one left in the ring. -/
def begin (old : OutputFifo) : Output where
  fifo := old.beginRun

def run (s : Output) (ops : List Op) : Output := ops.foldl step s

/-! ## What went in and what came out -/

/-- The call under way. -/
def current (s : Output) : List Push :=
  match s.producer with
  | .pushing push | .writing push _ => [push]
  | .idle | .ended => []

/-- The frames pushed so far: of each call, those it published. -/
def pushed (s : Output) : List Pcm24Sample := (s.finished ++ s.current).flatMap Push.published

/-- The frames played so far: of each block, those that led it. -/
def played (s : Output) : List Pcm24Sample := s.consumed.flatMap fun call => call.block.file

/-- The file frames the consumer was told of so far. -/
def credited (s : Output) : Nat := (s.consumed.map fun call => call.returned.toNat).sum

end Output

end WaveformGenerator.Player
