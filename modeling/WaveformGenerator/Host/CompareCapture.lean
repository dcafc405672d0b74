import WaveformGenerator.Host.StageWav
import WaveformGenerator.Source.Sample

/-!
# Captures against expected streams (`host/make_playlist.py`)

`compareCapture` finds an expected stream in a capture and compares it frame by frame, block by
block. A block whose bytes are those the capture would hold is not looked at sample by sample.
-/

namespace WaveformGenerator.Host

open Source (Binary32)

/-- A file under its name. -/
structure WavFile where
  path : String
  bytes : List UInt8
  deriving DecidableEq, Repr

def copyFrames : Nat := 1 <<< 16
def pcm24Bytes : Nat := 3
def pcm24Scale : Nat := 1 <<< 23

/-! ## A capture's format -/

/-- A capture WAV's format chunk and where its frames are. -/
structure WavLayout where
  fmt : List UInt8
  dataOffset : Nat
  frames : Nat
  blockAlign : Nat
  sampleRate : Nat
  deriving DecidableEq, Repr

/-- The loop of `wav_layout`. Each turn moves eight bytes at least, so the file's length bounds
the turns. -/
def wavLayoutFrom (file : WavFile) (fmt : Option (List UInt8)) (position : Nat) :
    Nat → Except WavError WavLayout
  | 0 => .error ⟨s!"{file.path}: no data chunk"⟩
  | turns + 1 =>
    if position + 8 ≤ file.bytes.length then
      let chunkId := slice file.bytes position 4
      let chunkBytes := (readU32 file.bytes (position + 4)).toNat
      let next := position + 8 + chunkBytes + chunkBytes % 2
      if chunkId = textBytes "fmt " then
        let fmt := slice file.bytes (position + 8) chunkBytes
        if fmt.length ≠ chunkBytes ∨ chunkBytes < 16 then
          .error ⟨s!"{file.path}: a short fmt chunk"⟩
        else
          wavLayoutFrom file (some fmt) next turns
      else if chunkId = textBytes "data" then
        match fmt with
        | none => .error ⟨s!"{file.path}: its data chunk comes before its fmt chunk"⟩
        | some fmt =>
          let available := file.bytes.length - position - 8
          let dataBytes :=
            if chunkBytes = 0 ∨ chunkBytes = 2 ^ 32 - 1 ∨ chunkBytes > available then available
            else chunkBytes
          let fields := FmtFields.unpack fmt
          if fields.blockAlign = 0 then .error ⟨s!"{file.path}: a block align of 0"⟩
          else
            .ok ⟨fmt, position + 8, dataBytes / fields.blockAlign, fields.blockAlign,
              fields.sampleRate⟩
      else
        wavLayoutFrom file fmt next turns
    else
      .error ⟨s!"{file.path}: no data chunk"⟩

/-- A capture WAV by a RIFF walk. -/
def wavLayout (file : WavFile) : Except WavError WavLayout :=
  let head := file.bytes.take 12
  if head.length ≠ 12 ∨ head.take 4 ≠ textBytes "RIFF" ∨ head.drop 8 ≠ textBytes "WAVE" then
    .error ⟨s!"{file.path}: not a RIFF/WAVE file"⟩
  else
    wavLayoutFrom file none 12 file.bytes.length

inductive SampleKind
  | pcm
  | float
  deriving DecidableEq, Repr

def waveFormatPcm : Nat := 0x0001
def waveFormatIeeeFloat : Nat := 0x0003
def waveFormatExtensible : Nat := 0xFFFE

/-- `{tag:#06x}` -/
def hexTag (tag : Nat) : String :=
  let digits := Nat.toDigits 16 tag
  "0x" ++ String.ofList (List.replicate (4 - digits.length) '0' ++ digits)

/-- A capture's sample kind, bits per sample and channels, from its fmt chunk. -/
def captureFormat (layout : WavLayout) : Except WavError (SampleKind × Nat × Nat) := do
  let fields := FmtFields.unpack layout.fmt
  if fields.formatTag = waveFormatExtensible ∧ layout.fmt.length < 26 then
    throw ⟨"an extensible fmt chunk without its subformat"⟩
  let tag :=
    if fields.formatTag = waveFormatExtensible then (readU16 layout.fmt 24).toNat
    else fields.formatTag
  let bits := fields.sampleBits
  let kind : Option SampleKind :=
    if tag = waveFormatPcm then some .pcm
    else if tag = waveFormatIeeeFloat then some .float
    else none
  let refused : WavError :=
    ⟨s!"format {hexTag tag}, {bits} bits, {fields.channels} channels: " ++
      "compare reads PCM of 16, 24 or 32 bits and 32-bit float"⟩
  match kind with
  | none => throw refused
  | some kind =>
    if fields.channels = 0 ∨ fields.blockAlign ≠ fields.channels * bits / 8 ∨
        ¬((kind, bits) = (.pcm, 16) ∨ (kind, bits) = (.pcm, 24) ∨ (kind, bits) = (.pcm, 32) ∨
          (kind, bits) = (.float, 32)) then
      throw refused
    else
      return (kind, bits, fields.channels)

/-! ## Samples -/

/-- `int.from_bytes(bytes, "little", signed=True)` -/
def ofLeSigned (bytes : List UInt8) : Int :=
  if 2 * ofLe bytes < 256 ^ bytes.length then ofLe bytes
  else (ofLe bytes : Int) - 256 ^ bytes.length

/-- The 24-bit sample of a float, if it is one. -/
def sampleOfFloat (value : Binary32) : Option Int :=
  let scaled := value.value * pcm24Scale
  if value.isFinite ∧ scaled = ⌊scaled⌋ ∧ -(pcm24Scale : ℚ) ≤ scaled ∧ scaled < pcm24Scale then
    some ⌊scaled⌋
  else
    none

/-- The float of a 24-bit sample, exact. -/
def floatOfSample (sample : Int) : Binary32 :=
  if sample = 0 then .zero
  else
    let exponent := sample.natAbs.log2
    let sign : UInt32 := if sample < 0 then 0x80000000 else 0
    ⟨sign ||| .ofNat ((exponent + 104) <<< 23) |||
      .ofNat ((sample.natAbs <<< (23 - exponent)) - 2 ^ 23)⟩

/-- Each sample of a capture's frames at the 24-bit scale. -/
def captureSamples (data : List UInt8) (kind : SampleKind) (bits : Nat) : List (Option Int) :=
  let width := bits / 8
  let words := (List.range ((data.length + width - 1) / width)).map fun index =>
    slice data (index * width) width
  match kind with
  | .float => words.map fun word => sampleOfFloat ⟨.ofNat (ofLe word)⟩
  | .pcm =>
    words.map fun word =>
      let sample := ofLeSigned word
      some (if bits = 16 then sample * 256 else if bits = 32 then sample / 256 else sample)

/-- `data[start::step]` -/
def stride (data : List UInt8) (start step : Nat) : List UInt8 :=
  (List.range ((data.length - start + step - 1) / step)).map fun index =>
    data.getD (start + index * step) 0

/-- `out[start::step] = lane` -/
def setStride (out : List UInt8) (start step : Nat) (lane : List UInt8) : List UInt8 :=
  out.mapIdx fun index byte =>
    if start ≤ index ∧ (index - start) % step = 0 then lane.getD ((index - start) / step) byte
    else byte

/-- The bytes of mono PCM24 samples in a capture's format, one lane for each byte of a sample. -/
def capturedLanes (data : List UInt8) (kind : SampleKind) (bits streamBits : Nat) :
    List (List UInt8) :=
  let frames := data.length / pcm24Bytes
  let low := if streamBits = 16 then List.replicate frames 0 else stride data 0 3
  let middle := stride data 1 3
  let high := stride data 2 3
  match kind with
  | .float =>
    let packed := (List.range frames).flatMap fun frame =>
      le32 (floatOfSample (ofLeSigned
        [low.getD frame 0, middle.getD frame 0, high.getD frame 0])).bits
    (List.range 4).map fun byte => stride packed byte 4
  | .pcm =>
    if bits = 32 then [List.replicate frames 0, low, middle, high]
    else if bits = 24 then [low, middle, high]
    else [middle, high]

/-- Mono PCM24 samples as a capture in that format holds them, the same sample on every channel. -/
def asCaptured (data : List UInt8) (kind : SampleKind) (bits channels streamBits : Nat) :
    List UInt8 :=
  let frames := data.length / pcm24Bytes
  let lanes := capturedLanes data kind bits streamBits
  let width := lanes.length
  (List.range channels).foldl
    (fun out channel => lanes.zipIdx.foldl
      (fun out lane => setStride out (channel * width + lane.2) (width * channels) lane.1) out)
    (List.replicate (width * channels * frames) 0)

structure Mismatch where
  frame : Nat
  channel : Nat
  expected : Int
  got : Option Int
  deriving DecidableEq, Repr

/-- An expected sample with the bits a narrower stream does not carry cleared. -/
def wanted (sample : Int) (streamBits : Nat) : Int :=
  let shift := 24 - streamBits
  sample / 2 ^ shift * 2 ^ shift

/-- The first sample of a capture's frames that differs from the expected stream's. -/
def firstMismatch (data captured : List UInt8) (kind : SampleKind)
    (bits channels streamBits : Nat) : Option Mismatch :=
  let got := captureSamples captured kind bits
  (List.range (data.length / pcm24Bytes)).findSome? fun frame =>
    let want := wanted (ofLeSigned (slice data (frame * pcm24Bytes) pcm24Bytes)) streamBits
    (List.range channels).findSome? fun channel =>
      let value := got.getD (frame * channels + channel) none
      if value ≠ some (if bits = 16 then want / 256 * 256 else want) then
        some ⟨frame, channel, want, value⟩
      else
        none

/-! ## The comparison -/

/-- The loop of `first_sound`, a block a turn: the first frame from `frame` up to `last` that is
not exact silence. -/
def firstSoundFrom (bytes : List UInt8) (layout : WavLayout) (last frame : Nat) :
    Nat → Option Nat
  | 0 => none
  | turns + 1 =>
    if frame < last then
      let count := min (last - frame) copyFrames
      let data := slice bytes (layout.dataOffset + frame * layout.blockAlign)
        (count * layout.blockAlign)
      let sound := (data.takeWhile (· = 0)).length
      if sound < data.length then some (frame + sound / layout.blockAlign)
      else firstSoundFrom bytes layout last (frame + count) turns
    else
      none

def firstSound (bytes : List UInt8) (layout : WavLayout) (start last : Nat) : Option Nat :=
  firstSoundFrom bytes layout last start (last - start)

/-- `cut_schedule.card_data`: the data chunk's offset and frame count. -/
def cardData (sha256Hex : List UInt8 → String) (bytes : List UInt8) :
    Except WavError (Nat × Nat) := do
  let facts ← inspectWav sha256Hex bytes
  return (facts.dataOffset, facts.dataBytes / pcm24Bytes)

inductive CompareError
  | value (message : String)
  | wav (error : WavError)
  deriving DecidableEq

structure CompareResult where
  expected : String
  capture : String
  kind : SampleKind
  bits : Nat
  channels : Nat
  streamBits : Nat
  captureStart : Int
  framesCompared : Nat
  firstMismatch : Option Mismatch := none
  silentAfter : Option Bool := none
  ok : Bool := false
  why : Option String := none
  deriving DecidableEq, Repr

/-- The loop of `compare_capture` from frame `done` on: `stream` and `source` are where the two
files' frames begin. -/
def compareFrom (expected capture : List UInt8) (stream source blockAlign : Nat)
    (kind : SampleKind) (bits channels streamBits frames done : Nat) :
    Nat → Except CompareError (Option Mismatch)
  | 0 => .ok none
  | turns + 1 =>
    if done < frames then
      let count := min (frames - done) copyFrames
      let data := slice expected (stream + done * pcm24Bytes) (count * pcm24Bytes)
      let captured := slice capture (source + done * blockAlign) (count * blockAlign)
      if data.length ≠ count * pcm24Bytes ∨ captured.length ≠ count * blockAlign then
        .error (.wav ⟨"a WAV ends inside its data chunk"⟩)
      else
        let mismatch :=
          if asCaptured data kind bits channels streamBits ≠ captured then
            firstMismatch data captured kind bits channels streamBits
          else
            none
        match mismatch with
        | some mismatch => .ok (some { mismatch with frame := done + mismatch.frame })
        | none =>
          compareFrom expected capture stream source blockAlign kind bits channels streamBits frames
            (done + count) turns
    else
      .ok none

/-- Where the stream begins in the capture, by the first sound of both. -/
def placeStream (expected capture : WavFile) (offset streamFrames frames : Nat)
    (layout : WavLayout) : Except CompareError Int :=
  let card : WavLayout := ⟨[], offset, streamFrames, pcm24Bytes, sampleRateHz⟩
  let silent : CompareError := .value ("the frames to compare are silent: " ++
    "give --capture-start, the capture frame where the stream begins")
  match firstSound expected.bytes card 0 streamFrames with
  | none => .error silent
  | some onset =>
    if onset ≥ frames then .error silent
    else
      match firstSound capture.bytes layout 0 layout.frames with
      | none => .error (.value s!"{capture.path} is silent")
      | some heard => .ok ((heard : Int) - onset)

/-- The comparison of `frames` frames, the stream's first one at frame `start` of the capture. -/
def compareAt (expected capture : WavFile) (offset : Nat) (layout : WavLayout) (kind : SampleKind)
    (bits channels streamBits frames : Nat) (start : Int) : Except CompareError CompareResult :=
  let result : CompareResult :=
    { expected := expected.path, capture := capture.path, kind, bits, channels, streamBits
      captureStart := start, framesCompared := frames }
  if start < 0 ∨ start + frames > layout.frames then
    .ok { result with why := some "the capture does not hold the stream at that place" }
  else do
    let mismatch ← compareFrom expected.bytes capture.bytes offset
      (layout.dataOffset + start.toNat * layout.blockAlign) layout.blockAlign kind bits channels
      streamBits frames 0 frames
    let silent := (firstSound capture.bytes layout (start.toNat + frames) layout.frames).isNone
    return { result with
      firstMismatch := mismatch, silentAfter := some silent, ok := mismatch.isNone && silent }

/-- A capture against an expected stream, sample for sample on every channel. -/
def compareCapture (sha256Hex : List UInt8 → String) (expected capture : WavFile)
    (sent : Option Int) (streamBits : Nat) (captureStart : Option Int) :
    Except CompareError CompareResult := do
  if streamBits ≠ 16 ∧ streamBits ≠ 24 then
    throw (.value "--stream-bits is 16 or 24")
  let (offset, streamFrames) ← (cardData sha256Hex expected.bytes).mapError .wav
  let asked : Int := sent.getD streamFrames
  if ¬(0 ≤ asked ∧ asked ≤ streamFrames) then
    throw (.value s!"--sent-frames must be 0..{streamFrames}, the expected stream's frames")
  let layout ← (wavLayout capture).mapError .wav
  let (kind, bits, channels) ← (captureFormat layout).mapError .wav
  if layout.sampleRate ≠ sampleRateHz then
    throw (.value s!"{capture.path} is at {layout.sampleRate} Hz, not 48 kHz")
  let start ← captureStart.elim
    (placeStream expected capture offset streamFrames asked.toNat layout) .ok
  compareAt expected capture offset layout kind bits channels streamBits asked.toNat start

end WaveformGenerator.Host
