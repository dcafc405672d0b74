import WaveformGenerator.Artifact.PreparedStream
import WaveformGenerator.Artifact.Wav
import WaveformGenerator.Lib.UInt
import WaveformGenerator.Player.OutputFifo

/-!
# The card as a play reads it (`rt1170/player.cpp`)

The producer reads the play's card in whole blocks from the data chunk's first frame on. For a
looped playlist item it goes back to that frame at each end of the card. FatFs's calls may fail or
come short, as `env` says for each call in turn; `clock` says how long the call took.
-/

namespace WaveformGenerator.Player

open Artifact

def pcm24BytesPerSample : Nat := 3

/-- One engine block. -/
def readBlockFrames : UInt32 := 2048

def sdSeekFailed : Status := { code := .ioError, message := "SD seek failed" }
def sdReadFailed : Status := { code := .ioError, message := "SD read failed" }

structure CardSource where
  framesLeft : UInt32 := 0
  passLeft : UInt32 := 0
  cardFrames : UInt32 := 0
  dataOffset : UInt32 := 0
  deriving DecidableEq, Repr

/-- The `sd_*` counters. -/
structure SdCounters where
  readCalls : UInt32 := 0
  bytesRead : UInt32 := 0
  readErrors : UInt32 := 0
  shortReads : UInt32 := 0
  maxReadCycles : UInt32 := 0
  deriving DecidableEq, Repr

/-- A play's card with the open `playback_file`, and the fault it latched. -/
structure CardPlay where
  card : CardSource
  file : CardFile
  faulted : Bool := false
  error : PlayerError := .none
  sd : SdCounters := {}
  deriving DecidableEq, Repr

def saturatingSum (total more : UInt32) : UInt32 :=
  if 0xFFFFFFFF - total < more then 0xFFFFFFFF else total + more

def playInputFrames (cardFrames : UInt32) (duration : Option UInt32) : UInt32 :=
  match duration with
  | none => cardFrames
  | some frames => if cardFrames = 0 then cardFrames else frames

def cardSource (payload : WavPayload) (duration : Option UInt32) : CardSource :=
  let cardFrames := payload.bytes / 3
  { framesLeft := playInputFrames cardFrames duration
    passLeft := cardFrames
    cardFrames
    dataOffset := payload.offset }

namespace CardPlay

def latchFault (p : CardPlay) (error : PlayerError) : CardPlay :=
  if p.faulted then p else { p with faulted := true, error }

def seekTo (env : Nat → FatFsOutcome) (p : CardPlay) (offset : UInt32) : Status × CardPlay :=
  let (result, file) := p.file.fLseek env offset.toNat
  (if result = .ok then .success else sdSeekFailed, { p with file })

def recordRead (p : CardPlay) (result : Artifact.FResult)
    (requested actual elapsedCycles : UInt32) : CardPlay :=
  { p with
    sd :=
      { readCalls := p.sd.readCalls + 1
        bytesRead := saturatingSum p.sd.bytesRead actual
        readErrors := if result ≠ .ok then p.sd.readErrors + 1 else p.sd.readErrors
        shortReads :=
          if result = .ok ∧ actual ≠ requested then p.sd.shortReads + 1 else p.sd.shortReads
        maxReadCycles :=
          if p.sd.maxReadCycles < elapsedCycles then elapsedCycles else p.sd.maxReadCycles } }

def beginNextPass (env : Nat → FatFsOutcome) (p : CardPlay) : Status × CardPlay :=
  let (sought, p) := p.seekTo env p.card.dataOffset
  if !sought.isOk then (sought, p.latchFault .seek)
  else (.success, { p with card.passLeft := p.card.cardFrames })

/-- The read of `read_card_block`, behind its seam. -/
def readPassBlock (env : Nat → FatFsOutcome) (clock : Nat → UInt32) (p : CardPlay) :
    Result (List UInt8) × CardPlay :=
  let frames := min (min p.card.framesLeft p.card.passLeft) readBlockFrames
  let requested := frames.toNat * pcm24BytesPerSample
  let elapsed := clock p.file.calls
  let (result, bytes, file) := p.file.fRead env requested
  let p := { p with file }.recordRead result (.ofNat requested) (.ofNat bytes.length) elapsed
  if result ≠ .ok ∨ bytes.length ≠ requested then (.error sdReadFailed, p.latchFault .sdRead)
  else
    (.ok bytes,
      { p with
        card.framesLeft := p.card.framesLeft - frames
        card.passLeft := p.card.passLeft - frames })

def readCardBlock (env : Nat → FatFsOutcome) (clock : Nat → UInt32) (p : CardPlay) :
    Result (List UInt8) × CardPlay :=
  if p.card.passLeft = 0 then
    let (seam, p) := p.beginNextPass env
    if !seam.isOk then (.error seam, p) else p.readPassBlock env clock
  else p.readPassBlock env clock

/-- The blocks that the producer's first `pulls` pulls read. A pull with no input left ends the
engine's output instead, and one that fails ends the production. -/
def readBlocks (env : Nat → FatFsOutcome) (clock : Nat → UInt32) :
    Nat → CardPlay → List (List UInt8) × CardPlay
  | 0, p => ([], p)
  | pulls + 1, p =>
    if p.card.framesLeft = 0 then ([], p)
    else
      match p.readCardBlock env clock with
      | (.error _, p) => ([], p)
      | (.ok block, p) =>
        let (blocks, p) := readBlocks env clock pulls p
        (block :: blocks, p)

end CardPlay

end WaveformGenerator.Player
