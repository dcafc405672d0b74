import WaveformGenerator.Artifact.Pcm24
import WaveformGenerator.Source.Sample

/-!
# The WAV artifact job (`waveform-source/wav_generator.cpp`)

`begin` configures the encoder and writes the header of the length it declares; each `step` writes
at most 2048 frames. The encoder takes its payload through the generator, which counts it.
-/

namespace WaveformGenerator.Source

open Artifact (tag uint32Max)

/-- A call that takes bytes of a payload on its way to its result. -/
inductive Reads (α : Type u)
  | ret (value : α)
  | read (capacity : Nat) (next : List UInt8 → Reads α)

/-- Sequential payload input. What a read returns is its count of bytes; a broken source may count
more than it was asked for. -/
structure ByteSource (ρ : Type u) where
  read : ρ → Nat → List UInt8 × ρ

/-- Sequential artifact output: takes all the bytes, or says why not. -/
structure ByteSink (σ : Type u) where
  write : σ → List UInt8 → Status × σ

/-- An encoder. The frames a read returns are its count; a broken encoder may count more than it
was asked for. -/
structure Encoder (ε : Type u) where
  configure : ε → String → Nat → Reads (Status × ε)
  totalFrames : ε → UInt64
  readFloat : ε → Nat → Reads (List Binary32 × ε)
  status : ε → Status
  stop : ε → ε

inductive WavEncoding
  | pcm16Legacy
  | pcm24
  | unsupported (value : UInt8)
  deriving DecidableEq, Repr

inductive JobState
  | idle
  | running
  | complete
  | failed
  deriving DecidableEq, Repr

structure ArtifactHashes where
  payload : String := ""
  wav : String := ""
  pcm : String := ""
  deriving DecidableEq, Repr

def maximumStepFrames : Nat := 2048

def headerNotWritten : String := "failed to write native WAV header"
def pcmNotWritten : String := "failed to write native WAV PCM"

/-- `bound` is whether the adapters are set. A digest is what its SHA-256 has taken. -/
structure WavGenerator where
  bound : Bool := false
  payloadBytes : Nat := 0
  payloadRead : Nat := 0
  framesWritten : Nat := 0
  totalFrames : Nat := 0
  waveformFrames : Nat := 0
  payloadDigest : List UInt8 := []
  wavDigest : List UInt8 := []
  pcmDigest : List UInt8 := []
  sampleBytes : Nat := 3
  status : Status := .success
  state : JobState := .idle
  deriving DecidableEq, Repr

/-- A generator with the states of the encoder, payload and sink it borrows. -/
structure Job (ε ρ σ : Type) where
  generator : WavGenerator := {}
  source : ε
  payload : ρ
  sink : σ
  deriving DecidableEq, Repr

structure Adapters (ε ρ σ : Type) where
  source : Encoder ε
  payload : ByteSource ρ
  sink : ByteSink σ

/-- The header `begin` writes, its fields side by side from offset 0. -/
def header (sampleBytes : Nat) (dataBytes : UInt32) : List UInt8 :=
  tag "RIFF" ++ le32 (36 + dataBytes) ++ (tag "WAVEfmt " ++ le32 16 ++ le16 1 ++ le16 1 ++
    le32 48000 ++ le32 (48000 * .ofNat sampleBytes) ++ le16 (.ofNat sampleBytes) ++
    le16 (.ofNat (sampleBytes * 8))) ++ (tag "data" ++ le32 dataBytes)

/-- The bytes of a finite sample. -/
def packSample (sampleBytes : Nat) (sample : Binary32) : List UInt8 :=
  if sampleBytes = 3 then writePcm24Le (quantizePcm24 sample)
  else le16 (.ofInt (quantizePcm16 sample))

namespace Job

section
variable {ε ρ σ α : Type} (a : Adapters ε ρ σ)

def fail (job : Job ε ρ σ) (status : Status) : Job ε ρ σ :=
  { job with
    generator := { job.generator with status, state := .failed }
    source := if job.generator.bound then a.source.stop job.source else job.source }

def stop (job : Job ε ρ σ) : Job ε ρ σ :=
  { job with
    generator := { job.generator with bound := false, state := .idle, status := .success }
    source :=
      if job.generator.bound && job.generator.state = .running then a.source.stop job.source
      else job.source }

/-- `read`, which the encoder calls for its payload. -/
def read (job : Job ε ρ σ) (capacity : Nat) : List UInt8 × Job ε ρ σ :=
  let (bytes, payload) := a.payload.read job.payload capacity
  let job := { job with payload }
  if bytes.length > capacity ||
      bytes.length > job.generator.payloadBytes - job.generator.payloadRead then
    ([], job)
  else
    (bytes,
      { job with
        generator :=
          { job.generator with
            payloadRead := job.generator.payloadRead + bytes.length
            payloadDigest := job.generator.payloadDigest ++ bytes } })

/-- A call of the encoder, with the reads it makes. -/
def call (job : Job ε ρ σ) : Reads (α × ε) → α × Job ε ρ σ
  | .ret (value, source) => (value, { job with source })
  | .read capacity next =>
    let (bytes, job) := job.read a capacity
    job.call (next bytes)

/-- The generator's fields for a new job. -/
def reset (job : Job ε ρ σ) (payloadBytes : Nat) : Job ε ρ σ :=
  { job with
    generator :=
      { job.generator with
        bound := true, payloadBytes, payloadRead := 0, framesWritten := 0, totalFrames := 0
        payloadDigest := [], wavDigest := [], pcmDigest := [] } }

def useEncoding (job : Job ε ρ σ) (encoding : WavEncoding) : Job ε ρ σ :=
  { job with
    generator := { job.generator with sampleBytes := if encoding = .pcm24 then 3 else 2 } }

/-- The end of `begin`: the length a configured encoder declares, and its header. -/
def writeHeader (job : Job ε ρ σ) (trailingSilenceFrames : UInt32) : Status × Job ε ρ σ :=
  let sampleBytes := job.generator.sampleBytes
  let waveformFrames := (a.source.totalFrames job.source).toNat
  let job := { job with generator := { job.generator with waveformFrames } }
  let maximumFrames := (uint32Max - 36) / sampleBytes
  if waveformFrames > maximumFrames ||
      trailingSilenceFrames.toNat > maximumFrames - waveformFrames then
    let job := job.fail a
      { code := .invalidArgument, message := "native WAV exceeds the RIFF size limit" }
    (job.generator.status, job)
  else
    let totalFrames := waveformFrames + trailingSilenceFrames.toNat
    let job := { job with generator := { job.generator with totalFrames } }
    let bytes := header sampleBytes (.ofNat (totalFrames * sampleBytes))
    let (written, sink) := a.sink.write job.sink bytes
    let job := { job with sink }
    if !written.isOk then
      let job := job.fail a { code := written.code, message := headerNotWritten }
      (job.generator.status, job)
    else
      let state : JobState :=
        if totalFrames = 0 && job.generator.payloadRead = job.generator.payloadBytes then
          .complete
        else
          .running
      let job :=
        { job with
          generator := { job.generator with wavDigest := job.generator.wavDigest ++ bytes, state } }
      (job.generator.status, job)

def begin (job : Job ε ρ σ) (profile : String) (payloadBytes : Nat)
    (trailingSilenceFrames : UInt32 := 48000) (encoding : WavEncoding := .pcm24) :
    Status × Job ε ρ σ :=
  let job := (job.stop a).reset payloadBytes
  if encoding ≠ .pcm24 && encoding ≠ .pcm16Legacy then
    let job := job.fail a { code := .invalidArgument, message := "unsupported WAV encoding" }
    (job.generator.status, job)
  else
    let job := job.useEncoding encoding
    let (configured, job) := job.call a (a.source.configure job.source profile payloadBytes)
    if !configured.isOk then
      let job := job.fail a configured
      (job.generator.status, job)
    else
      job.writeHeader a trailingSilenceFrames

/-- The end of a step: the frames it has, packed and written. -/
def writeFrames (job : Job ε ρ σ) (frames : List Binary32) : Job ε ρ σ :=
  if frames.isEmpty then
    job.fail a
      { code := .ioError, message := "encoder ended without consuming its declared payload" }
  else if !frames.all Binary32.isFinite then
    job.fail a { code := .invalidArgument, message := "encoder returned a nonfinite sample" }
  else
    let bytes := frames.flatMap (packSample job.generator.sampleBytes)
    let (written, sink) := a.sink.write job.sink bytes
    let job := { job with sink }
    if !written.isOk then
      job.fail a { code := written.code, message := pcmNotWritten }
    else
      let framesWritten := job.generator.framesWritten + frames.length
      let job :=
        { job with
          generator :=
            { job.generator with
              wavDigest := job.generator.wavDigest ++ bytes
              pcmDigest := job.generator.pcmDigest ++ bytes
              framesWritten } }
      if framesWritten = job.generator.totalFrames then
        if job.generator.payloadRead ≠ job.generator.payloadBytes then
          job.fail a
            { code := .ioError, message := "native payload consumption was incomplete" }
        else
          { job with generator := { job.generator with state := .complete } }
      else
        job

/-- Silence from the waveform's end to the step's limit. -/
def padFrames (generator : WavGenerator) (limit : Nat) (frames : List Binary32) :
    List Binary32 :=
  if generator.framesWritten + frames.length = generator.waveformFrames ||
      generator.framesWritten ≥ generator.waveformFrames then
    frames ++ List.replicate (limit - frames.length) .zero
  else
    frames

def step (job : Job ε ρ σ) (maxFrames : Nat := maximumStepFrames) : Job ε ρ σ :=
  if job.generator.state ≠ .running || maxFrames = 0 then
    job
  else
    let limit := min (min maxFrames maximumStepFrames)
      (job.generator.totalFrames - job.generator.framesWritten)
    if job.generator.framesWritten < job.generator.waveformFrames then
      let request := min limit (job.generator.waveformFrames - job.generator.framesWritten)
      let (frames, job) := job.call a (a.source.readFloat job.source request)
      if !(a.source.status job.source).isOk then
        job.fail a (a.source.status job.source)
      else if frames.length = 0 || frames.length > request then
        job.fail a
          { code := .ioError, message := "encoder did not honor its declared frame count" }
      else
        job.writeFrames a (padFrames job.generator limit frames)
    else
      job.writeFrames a (padFrames job.generator limit [])

/-- `hashes`, with the text of the SHA-256 of the bytes digested. -/
def hashes (sha256Hex : List UInt8 → String) (job : Job ε ρ σ) : ArtifactHashes :=
  if job.generator.state = .complete then
    { payload := sha256Hex job.generator.payloadDigest
      wav := sha256Hex job.generator.wavDigest
      pcm := sha256Hex job.generator.pcmDigest }
  else
    {}

end

end Job
end WaveformGenerator.Source
