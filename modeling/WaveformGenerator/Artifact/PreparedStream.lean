import WaveformGenerator.Artifact.Pcm24
import WaveformGenerator.Lib.ByteFile

/-!
# The prepared stream (`rt1170/prepared_stream.cpp`)

One FatFs handle serves the writer's appends, its header patches and the reads of what is committed.
The card file is its bytes and the handle's position. FatFs's calls can fail or stop short, as the
environment `env` says for each call in turn. Offsets and counts are naturals: the guards refuse
before a 64-bit sum could wrap.
-/

namespace WaveformGenerator.Artifact

/-! ## The card file -/

/-- What a FatFs call comes to: all that was asked; `FR_OK` with less; or an error, after `count`
bytes, that leaves the handle anywhere. -/
inductive FatFsOutcome
  | done
  | short (count : Nat)
  | failed (count position : Nat)
  deriving DecidableEq, Repr

inductive FResult
  | ok
  | diskErr
  deriving DecidableEq, Repr

/-- How much of `requested` is transferred. -/
def FatFsOutcome.transferred (requested : Nat) : FatFsOutcome → Nat
  | done => requested
  | short count => min count requested
  | failed count _ => min count requested

/-- An open file, and how many FatFs calls it has had. -/
structure CardFile extends ByteFile where
  calls : Nat := 0
  deriving DecidableEq, Repr

namespace CardFile

/-- The file after a call that leaves it as `after`, or at the position of its failure. -/
def finishCall (file : CardFile) (outcome : FatFsOutcome) (after : ByteFile) :
    FResult × CardFile :=
  match outcome with
  | .failed _ position => (.diskErr, ⟨{ after with position }, file.calls + 1⟩)
  | _ => (.ok, ⟨after, file.calls + 1⟩)

/-- `f_write`: the result, the bytes written, the file. -/
def fWrite (env : Nat → FatFsOutcome) (file : CardFile) (data : List UInt8) :
    FResult × Nat × CardFile :=
  let outcome := env file.calls
  let written := data.take (outcome.transferred data.length)
  let (result, after) := file.finishCall outcome (file.write written)
  (result, written.length, after)

/-- `f_read`: the result, the bytes read, the file. -/
def fRead (env : Nat → FatFsOutcome) (file : CardFile) (requested : Nat) :
    FResult × List UInt8 × CardFile :=
  let outcome := env file.calls
  let data := slice file.bytes file.position (outcome.transferred requested)
  let (result, after) := file.finishCall outcome (file.seek (file.position + data.length))
  (result, data, after)

/-- `f_lseek`, inside the file. -/
def fLseek (env : Nat → FatFsOutcome) (file : CardFile) (offset : Nat) : FResult × CardFile :=
  file.finishCall (env file.calls) (file.seek offset)

/-- `f_sync`. -/
def fSync (env : Nat → FatFsOutcome) (file : CardFile) : FResult × CardFile :=
  file.finishCall (env file.calls) file.toByteFile

/-- `f_size`. -/
def fSize (file : CardFile) : Nat := file.bytes.length

end CardFile

/-! ## The stream -/

def streamNotBound : Status :=
  { code := .unavailable, message := "prepared stream is not bound" }

def streamAlreadyBound : Status :=
  { code := .busy, message := "prepared stream is already bound" }

def streamBadBinding : Status :=
  { code := .invalidArgument
    message := "prepared stream requires an open file and aligned scratch" }

def streamBadRange : Status :=
  { code := .invalidArgument, message := "prepared stream range is invalid" }

def streamIoError : Status :=
  { code := .ioError, message := "prepared stream FatFs operation failed" }

def streamShortIo : Status :=
  { code := .ioError, message := "prepared stream received a short FatFs operation" }

def streamScratchTooSmall : Status :=
  { code := .bufferTooSmall
    message := "prepared stream read exceeds aligned scratch capacity" }

def uint64Max : Nat := 18446744073709551615

/-- FatFs's `FSIZE_t` with exFAT. -/
def fsizeMax : Nat := uint64Max

structure Rt1170PreparedStream where
  bound : Bool := false
  scratchBytes : Nat := 0
  writerCursor : Nat := 0
  writtenExtent : Nat := 0
  committedFrames : Nat := 0
  failure : Status := .success
  deriving DecidableEq, Repr

/-- A stream and the file it borrows. -/
structure Binding where
  file : CardFile := {}
  stream : Rt1170PreparedStream := {}
  deriving DecidableEq, Repr

namespace Rt1170PreparedStream

/-- The first failure stays. -/
def latch (stream : Rt1170PreparedStream) (failure : Status) : Rt1170PreparedStream :=
  if stream.failure.isOk then
    { stream with failure := if failure.isOk then streamIoError else failure }
  else
    stream

def validFileEnd (dataBytes : Nat) : Bool :=
  let paddedData := dataBytes + dataBytes % 2
  let riffSize := pcm24WavRiffOverheadBytes.toNat + paddedData
  let fileSize := pcm24WavHeaderBytes + dataBytes + dataBytes % 2
  riffSize ≤ uint32Max && fileSize ≤ fsizeMax

def bind (stream : Rt1170PreparedStream) (file : CardFile) (scratchBytes : Nat)
    (scratchAligned : Bool) : Status × Rt1170PreparedStream :=
  if stream.bound then
    (streamAlreadyBound, stream)
  else if scratchBytes < 4 || !scratchAligned || file.fSize ≠ 0 || file.position ≠ 0 then
    (streamBadBinding, stream)
  else
    (.success, { bound := true, scratchBytes })

/-- `unbind`: the cursors and the failure stay to be read. -/
def unbind (stream : Rt1170PreparedStream) : Rt1170PreparedStream :=
  { stream with bound := false, scratchBytes := 0 }

end Rt1170PreparedStream

namespace Binding

variable (env : Nat → FatFsOutcome)

/-- A failed call's way out: the failure is latched and answered. -/
def latched (b : Binding) (file : CardFile) (failure : Status) : Status × Binding :=
  let stream := b.stream.latch failure
  (stream.failure, { file, stream })

def writeExact (b : Binding) (bytes : List UInt8) : Status × Binding :=
  if !b.stream.bound then
    (streamNotBound, b)
  else if !b.stream.failure.isOk then
    (b.stream.failure, b)
  else if bytes.isEmpty then
    (.success, b)
  else if bytes.length > uint32Max || bytes.length > uint64Max - b.stream.writerCursor ||
      b.stream.writerCursor + bytes.length > fsizeMax then
    (streamBadRange, b)
  else
    let newCursor := b.stream.writerCursor + bytes.length
    let maximumFileBytes := uint32Max + 8
    if newCursor > maximumFileBytes then
      (streamBadRange, b)
    else
      let committedPayloadEnd := pcm24WavHeaderBytes + b.stream.committedFrames * 3
      if b.stream.writerCursor < committedPayloadEnd && newCursor > pcm24WavHeaderBytes then
        (streamBadRange, b)
      else
        let (result, actual, file) := b.file.fWrite env bytes
        if result ≠ .ok then
          b.latched file streamIoError
        else if actual ≠ bytes.length then
          b.latched file streamShortIo
        else
          (.success,
            { file
              stream := { b.stream with
                writerCursor := newCursor
                writtenExtent := max b.stream.writtenExtent newCursor } })

def seek (b : Binding) (absoluteOffset : Nat) : Status × Binding :=
  if !b.stream.bound then
    (streamNotBound, b)
  else if !b.stream.failure.isOk then
    (b.stream.failure, b)
  else if absoluteOffset > b.stream.writtenExtent || absoluteOffset > fsizeMax then
    (streamBadRange, b)
  else
    let (result, file) := b.file.fLseek env absoluteOffset
    if result ≠ .ok then
      b.latched file streamIoError
    else
      (.success, { file, stream := { b.stream with writerCursor := absoluteOffset } })

def commitFrames (b : Binding) (frames : Nat) : Status × Binding :=
  if !b.stream.bound then
    (streamNotBound, b)
  else if !b.stream.failure.isOk then
    (b.stream.failure, b)
  else if frames < b.stream.committedFrames || frames > (uint64Max - pcm24WavHeaderBytes) / 3 then
    (streamBadRange, b)
  else
    let dataBytes := frames * 3
    let payloadEnd := pcm24WavHeaderBytes + dataBytes
    if !Rt1170PreparedStream.validFileEnd dataBytes || payloadEnd > b.stream.writtenExtent ||
        payloadEnd > fsizeMax then
      (streamBadRange, b)
    else if b.file.fSize < payloadEnd then
      b.latched b.file streamIoError
    else
      let (result, file) := b.file.fSync env
      if result ≠ .ok then
        b.latched file streamIoError
      else
        (.success, { file, stream := { b.stream with committedFrames := frames } })

/-- The read of `read_frames` between its two seeks. -/
def readAt (file : CardFile) (offset count : Nat) : Result (List UInt8) × CardFile :=
  let (result, file) := file.fLseek env offset
  if result ≠ .ok then
    (.error streamIoError, file)
  else
    let (result, data, file) := file.fRead env count
    if result ≠ .ok then
      (.error streamIoError, file)
    else if data.length ≠ count then
      (.error streamShortIo, file)
    else
      (.ok data, file)

/-- `read_frames` into an output of `count` bytes: the bytes it gives, or why there are none. -/
def readFrames (b : Binding) (firstFrame count : Nat) : Result (List UInt8) × Binding :=
  if !b.stream.bound then
    (.error streamNotBound, b)
  else if !b.stream.failure.isOk then
    (.error b.stream.failure, b)
  else if count = 0 || count % 3 ≠ 0 || count > uint32Max then
    (.error streamBadRange, b)
  else
    let frames := count / 3
    if firstFrame > b.stream.committedFrames || frames > b.stream.committedFrames - firstFrame ||
        firstFrame > (uint64Max - pcm24WavHeaderBytes) / 3 then
      (.error streamBadRange, b)
    else
      let offset := pcm24WavHeaderBytes + firstFrame * 3
      if offset > uint64Max - count || offset + count > b.stream.writtenExtent ||
          offset > fsizeMax then
        (.error streamBadRange, b)
      else
        let alignmentPrefix := offset % 4
        if count > b.stream.scratchBytes ||
            alignmentPrefix > b.stream.scratchBytes - count then
          (.error streamScratchTooSmall, b)
        else
          let savedCursor := b.stream.writerCursor
          let (output, file) := readAt env b.file offset count
          let (restored, file) := file.fLseek env savedCursor
          if restored ≠ .ok then
            let failure := match output with
              | .ok _ => streamIoError
              | .error failure => failure
            let (status, b) := b.latched file failure
            (.error status, b)
          else
            match output with
            | .error failure =>
              let (status, b) := b.latched file failure
              (.error status, b)
            | .ok data => (.ok data, { b with file })

/-- The stream as the sink of a writer. -/
def sink : Pcm24ByteSink Binding where
  writeExact := writeExact env
  seek := seek env

end Binding
end WaveformGenerator.Artifact
