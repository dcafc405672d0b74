import WaveformGenerator.Common.Status
import WaveformGenerator.Lib.Ring
import WaveformGenerator.Lib.UInt

/-! # Result blocks and their ring (`common/playlist.hpp`, `ResultRing`) -/

namespace WaveformGenerator.Playlist

inductive Route
  | codec
  | usb
  deriving DecidableEq, Repr

inductive Outcome
  | done
  | aborted
  | error
  deriving DecidableEq, Repr

/-- Why an item ended. -/
inductive EndCause
  | «end»
  | stop
  | underrun
  | missedInterval
  | streamClosed
  | stall
  | sdRead
  | usbAssert
  | deadlineMiss
  | noStream
  | fault
  deriving DecidableEq, Repr

/-- An item's play, as far as the sequencer reads it. -/
structure PlayRecord where
  fileFramesTotal : UInt32 := 0
  sentFrames : UInt32 := 0
  firstFrameIndex : UInt32 := 0
  deriving DecidableEq, Repr

/-- One item's result, kept until the host acknowledges it. -/
structure ResultBlock where
  seq : UInt32 := 0
  run : UInt32 := 0
  item : UInt32 := 0
  label : String := ""
  file : String := ""
  route : Route := .codec
  outcome : Outcome := .done
  playerError : UInt32 := 0
  scenario : String := ""
  seed : Option UInt32 := none
  scenarioCrc32 : UInt32 := 0
  play : PlayRecord := {}
  gap : UInt32 := 0
  scheduledIndex : Option UInt32 := none
  startTick : UInt32 := 0
  endTick : UInt32 := 0
  attenuation : UInt32 := 0
  duration : Option UInt32 := none
  loops : UInt32 := 0
  endCause : EndCause := .end
  deriving DecidableEq, Repr

abbrev resultCapacity : Nat := 32

def firstSeq : UInt32 := 1

def ackRange : Status := ⟨.invalidArgument, "PLAYLIST_ACK_RANGE"⟩

def ringFull : Status := ⟨.bufferTooSmall, "PLAYLIST_RING_FULL"⟩

/-- The result blocks not yet acknowledged, oldest first. -/
structure ResultRing where
  blocks : Vector ResultBlock resultCapacity
  first : Nat := 0
  count : UInt32 := 0
  nextSeq : UInt32 := firstSeq
  deriving DecidableEq, Repr

namespace ResultRing

/-- The ring at boot. -/
def initial : ResultRing := { blocks := .replicate resultCapacity {} }

def full (ring : ResultRing) : Bool := ring.count.toNat == resultCapacity

def push (ring : ResultRing) (block : ResultBlock) : Status × ResultRing :=
  if ring.full then (ringFull, ring)
  else
    (.success,
      { ring with
        blocks := ring.blocks.setIfInBounds ((ring.first + ring.count.toNat) % resultCapacity)
          { block with seq := ring.nextSeq }
        nextSeq := ring.nextSeq + 1
        count := ring.count + 1 })

/-- The loop of `acknowledge`, with the blocks freed so far. -/
def free (through : UInt32) (ring : ResultRing) (freed : UInt32) : UInt32 × ResultRing :=
  if _h : ring.count ≠ 0 ∧ (Ring.item ring.blocks ring.first).seq ≤ through then
    free through
      { ring with first := (ring.first + 1) % resultCapacity, count := ring.count - 1 } (freed + 1)
  else (freed, ring)
termination_by ring.count.toNat
decreasing_by
  rw [toNat_pred32 _h.1]
  exact Nat.sub_lt (toNat_pos32 _h.1) Nat.one_pos

def acknowledge (ring : ResultRing) (through : UInt32) : Result UInt32 × ResultRing :=
  if ring.nextSeq ≤ through then (.error ackRange, ring)
  else
    let (freed, ring) := free through ring 0
    (.ok freed, ring)

/-- What `copy_oldest` puts in a span of `size` blocks. -/
def copyOldest (ring : ResultRing) (size : Nat) : List ResultBlock :=
  (List.range (min size ring.count.toNat)).map fun index =>
    Ring.item ring.blocks (ring.first + index)

def oldestSeq (ring : ResultRing) : UInt32 :=
  if ring.count = 0 then 0 else (Ring.item ring.blocks ring.first).seq

end ResultRing

end WaveformGenerator.Playlist
