import WaveformGenerator.Common.Status
import WaveformGenerator.Lib.Bytes

/-!
# The PCM24 artifact writer (`common/pcm24_artifact.cpp`)

`begin` writes a header for no data, `append_frames` the packed samples, `finish` the pad byte an
odd length needs and the header again, now with the sizes.
-/

namespace WaveformGenerator.Artifact

def pcm24WavHeaderBytes : Nat := 44
def pcm24WavRiffOverheadBytes : UInt32 := 36
def pcm24ArtifactMaxAppendFrames : Nat := 16384

def uint32Max : Nat := 4294967295

/-- Where a writer puts its bytes: all of them or an error, at a position `seek` sets from the
file's start. -/
structure Pcm24ByteSink (σ : Type u) where
  writeExact : σ → List UInt8 → Status × σ
  seek : σ → Nat → Status × σ

structure Pcm24WavFormat where
  sampleRateHz : UInt32 := 0
  channels : UInt16 := 0
  deriving DecidableEq, Repr

structure Pcm24ArtifactSummary where
  frames : UInt64 := 0
  dataBytes : UInt32 := 0
  fileBytes : Nat := 0
  pcmSha256 : String := ""
  deriving DecidableEq, Repr

inductive Pcm24ArtifactState
  | idle
  | active
  | complete
  | failed
  | cancelled
  deriving DecidableEq, Repr

def artifactSinkFailed : Status :=
  { code := .ioError, message := "PCM24 artifact sink operation failed" }

def artifactBadState : Status :=
  { code := .invalidArgument, message := "PCM24 artifact writer is not active" }

def artifactBadFormat : Status :=
  { code := .invalidArgument
    message := "PCM24 WAV format must be mono or stereo with a valid byte rate" }

def artifactBadFrames : Status :=
  { code := .invalidArgument
    message := "PCM24 input must contain a bounded whole number of frames" }

def artifactTooLarge : Status :=
  { code := .invalidArgument, message := "PCM24 artifact exceeds canonical RIFF capacity" }

/-- A tag of a header: its characters, one byte each. -/
def tag (text : String) : List UInt8 := text.toList.map fun c => UInt8.ofNat c.toNat

/-- `digested` is what the SHA-256 has taken since its reset. -/
structure Pcm24ArtifactWriter where
  sinkBound : Bool := false
  format : Pcm24WavFormat := {}
  digested : List UInt8 := []
  frames : UInt64 := 0
  dataBytes : UInt32 := 0
  state : Pcm24ArtifactState := .idle
  failure : Status := .success
  deriving DecidableEq, Repr

namespace Pcm24ArtifactWriter

/-- `make_header`, its fields side by side from offset 0. -/
def makeHeader (format : Pcm24WavFormat) (dataBytes : UInt32) : List UInt8 :=
  let paddedBytes := dataBytes + (dataBytes &&& 1)
  tag "RIFF" ++ le32 (pcm24WavRiffOverheadBytes + paddedBytes) ++ tag "WAVE" ++
    (tag "fmt " ++ le32 16 ++ le16 1 ++ le16 format.channels ++ le32 format.sampleRateHz ++
      le32 (format.sampleRateHz * format.channels.toUInt32 * 3) ++ le16 (format.channels * 3) ++
      le16 24) ++
    (tag "data" ++ le32 dataBytes)

def fail (w : Pcm24ArtifactWriter) (status : Status) : Status × Pcm24ArtifactWriter :=
  let failure := if status.isOk then artifactSinkFailed else status
  (failure, { w with failure, state := .failed, sinkBound := false })

/-- What an operation answers a writer that is not active. -/
def refusal (w : Pcm24ArtifactWriter) : Status :=
  if w.state = .failed then w.failure else artifactBadState

def validFormat (format : Pcm24WavFormat) : Bool :=
  (format.channels == 1 || format.channels == 2) && format.sampleRateHz != 0 &&
    format.sampleRateHz ≤ UInt32.ofNat uint32Max / (format.channels.toUInt32 * 3)

section
variable {σ : Type u} (sink : Pcm24ByteSink σ)

def begin (w : Pcm24ArtifactWriter) (s : σ) (format : Pcm24WavFormat) :
    Status × Pcm24ArtifactWriter × σ :=
  if w.state = .active then
    (artifactBadState, w, s)
  else if !validFormat format then
    let (status, w) := fail {} artifactBadFormat
    (status, w, s)
  else
    let w : Pcm24ArtifactWriter := { sinkBound := true, format, state := .active }
    let (positioned, s) := sink.seek s 0
    if !positioned.isOk then
      let (status, w) := w.fail positioned
      (status, w, s)
    else
      let (written, s) := sink.writeExact s (makeHeader w.format 0)
      if !written.isOk then
        let (status, w) := w.fail written
        (status, w, s)
      else
        (.success, w, s)

def appendFrames (w : Pcm24ArtifactWriter) (s : σ) (packed : List UInt8) :
    Status × Pcm24ArtifactWriter × σ :=
  if w.state ≠ .active || !w.sinkBound then
    (w.refusal, w, s)
  else
    let bytesPerFrame := w.format.channels.toNat * 3
    if packed.length % bytesPerFrame ≠ 0 ||
        packed.length / bytesPerFrame > pcm24ArtifactMaxAppendFrames then
      let (status, w) := w.fail artifactBadFrames
      (status, w, s)
    else if packed.isEmpty then
      (.success, w, s)
    else
      let newBytes := w.dataBytes.toNat + packed.length
      let newFrames := w.frames + .ofNat (packed.length / bytesPerFrame)
      let maxDataBytes := uint32Max - pcm24WavRiffOverheadBytes.toNat
      let riffSize := pcm24WavRiffOverheadBytes.toNat + newBytes + newBytes % 2
      if newBytes > maxDataBytes || riffSize > uint32Max || newFrames < w.frames then
        let (status, w) := w.fail artifactTooLarge
        (status, w, s)
      else
        let (written, s) := sink.writeExact s packed
        if !written.isOk then
          let (status, w) := w.fail written
          (status, w, s)
        else
          (.success,
            { w with
              digested := w.digested ++ packed
              dataBytes := .ofNat newBytes
              frames := newFrames },
            s)

/-- `finish`, with the text of the SHA-256 of the bytes digested; `summary` is the caller's, left
as it was unless the artifact is complete. -/
def finish (sha256Hex : List UInt8 → String) (w : Pcm24ArtifactWriter) (s : σ)
    (summary : Pcm24ArtifactSummary) :
    Status × Pcm24ArtifactSummary × Pcm24ArtifactWriter × σ :=
  if w.state ≠ .active || !w.sinkBound then
    (w.refusal, summary, w, s)
  else
    let finalBytes := pcm24WavHeaderBytes + w.dataBytes.toNat + (w.dataBytes &&& 1).toNat
    let (padded, s) :=
      if w.dataBytes &&& 1 ≠ 0 then sink.writeExact s [0] else (.success, s)
    if !padded.isOk then
      let (status, w) := w.fail padded
      (status, summary, w, s)
    else
      let (positioned, s) := sink.seek s 0
      if !positioned.isOk then
        let (status, w) := w.fail positioned
        (status, summary, w, s)
      else
        let (written, s) := sink.writeExact s (makeHeader w.format w.dataBytes)
        if !written.isOk then
          let (status, w) := w.fail written
          (status, summary, w, s)
        else
          let (positioned, s) := sink.seek s finalBytes
          if !positioned.isOk then
            let (status, w) := w.fail positioned
            (status, summary, w, s)
          else
            (.success,
              { frames := w.frames
                dataBytes := w.dataBytes
                fileBytes := finalBytes
                pcmSha256 := sha256Hex w.digested },
              { w with state := .complete, sinkBound := false }, s)

end

def cancel (w : Pcm24ArtifactWriter) : Pcm24ArtifactWriter :=
  { w with
    sinkBound := false
    frames := 0
    dataBytes := 0
    digested := []
    failure := .success
    state := .cancelled }

end Pcm24ArtifactWriter
end WaveformGenerator.Artifact
