import WaveformGenerator.Host.MakePlaylist
import WaveformGenerator.Lib.ByteFile
import WaveformGenerator.Lib.Bytes

/-!
# The host's card check (`host/stage_wav.py`)

`inspectWav` walks the chunks of a file and takes it when it is one that the board plays.
-/

namespace WaveformGenerator.Host

def blockAlign : Nat := 3
def byteRate : Nat := 144000
def channels : Nat := 1
def sampleRateHz : Nat := 48000
def sampleWidthBits : Nat := 24

/-- The input cannot be replayed by the firmware. -/
structure WavError where
  message : String
  deriving DecidableEq, Repr

/-- `_read_exact` of a file's bytes from `position` on. -/
def readExact (bytes : List UInt8) (position count : Nat) (context : String) :
    Except WavError (List UInt8) :=
  let value := slice bytes position count
  if value.length ≠ count then .error ⟨s!"truncated {context}"⟩ else .ok value

/-- The fields of a format chunk. -/
structure FmtFields where
  formatTag : Nat
  channels : Nat
  sampleRate : Nat
  byteRate : Nat
  blockAlign : Nat
  sampleBits : Nat
  deriving DecidableEq, Repr

/-- `struct.unpack("<HHIIHH", header)` -/
def FmtFields.unpack (header : List UInt8) : FmtFields :=
  ⟨(readU16 header 0).toNat, (readU16 header 2).toNat, (readU32 header 4).toNat,
    (readU32 header 8).toNat, (readU16 header 12).toNat, (readU16 header 14).toNat⟩

def FmtFields.expected : FmtFields :=
  ⟨1, Host.channels, sampleRateHz, Host.byteRate, Host.blockAlign, sampleWidthBits⟩

/-- What the walk has found: the format, and where the data are and how many. -/
structure Found where
  fmtFields : Option FmtFields := none
  data : Option (Nat × Nat) := none
  deriving DecidableEq

/-- The body of the loop of `inspect_wav`: the chunk at `position`, and the position behind it. -/
def walkChunk (bytes : List UInt8) (position : Nat) (found : Found) :
    Except WavError (Found × Nat) :=
  if bytes.length - position < 8 then .error ⟨"truncated chunk header"⟩
  else do
    let header ← readExact bytes position 8 "chunk header"
    let chunkId := header.take 4
    let chunkBytes := (readU32 header 4).toNat
    let payloadOffset := position + 8
    let payloadEnd := payloadOffset + chunkBytes
    let paddedEnd := payloadEnd + chunkBytes % 2
    if payloadEnd < payloadOffset ∨ bytes.length < paddedEnd then
      .error ⟨"chunk length exceeds the file"⟩
    else if chunkId = textBytes "fmt " then
      if found.fmtFields.isSome then .error ⟨"duplicate fmt chunk"⟩
      else if chunkBytes < 16 then .error ⟨"fmt chunk is shorter than PCM format data"⟩
      else do
        let fields ← readExact bytes payloadOffset 16 "fmt chunk"
        return ({ found with fmtFields := some (.unpack fields) }, paddedEnd)
    else if chunkId = textBytes "data" then
      if found.data.isSome then .error ⟨"duplicate data chunk"⟩
      else return ({ found with data := some (payloadOffset, chunkBytes) }, paddedEnd)
    else return (found, paddedEnd)

theorem lt_of_walkChunk {bytes : List UInt8} {position next : Nat} {found found' : Found}
    (h : walkChunk bytes position found = .ok (found', next)) : position < next := by
  unfold walkChunk at h
  split at h
  · cases h
  cases hheader : readExact bytes position 8 "chunk header" with
  | error error =>
    rw [hheader] at h
    cases h
  | ok header =>
    rw [hheader] at h
    dsimp only [bind, Except.bind] at h
    split at h
    · cases h
    split at h
    · split at h
      · cases h
      split at h
      · cases h
      cases hfields : readExact bytes (position + 8) 16 "fmt chunk" with
      | error error =>
        rw [hfields] at h
        cases h
      | ok fields =>
        rw [hfields] at h
        cases h
        omega
    · split at h
      · split at h
        · cases h
        · cases h
          omega
      · cases h
        omega

/-- The loop of `inspect_wav`: what it finds, and where it ends. -/
def walkFrom (bytes : List UInt8) (position : Nat) (found : Found) : Except WavError (Found × Nat) :=
  if position < bytes.length then
    match _h : walkChunk bytes position found with
    | .error error => .error error
    | .ok (found, next) => walkFrom bytes next found
  else .ok (found, position)
termination_by bytes.length - position
decreasing_by
  have := lt_of_walkChunk ‹_›
  omega

/-- The facts of a WAV that the firmware plays. -/
structure WavFacts where
  fileBytes : Nat
  fileSha256 : String
  dataOffset : Nat
  dataBytes : Nat
  pcmSha256 : String
  samples : Nat
  deriving DecidableEq, Repr

/-- `inspect_wav` of a file with these bytes; `sha256Hex` is `hashlib`'s. -/
def inspectWav (sha256Hex : List UInt8 → String) (bytes : List UInt8) :
    Except WavError WavFacts :=
  if bytes.length < 44 then .error ⟨"file is too short to be a PCM WAV"⟩
  else do
    let header ← readExact bytes 0 12 "RIFF header"
    if header.take 4 ≠ textBytes "RIFF" ∨ slice header 8 4 ≠ textBytes "WAVE" then
      throw ⟨"expected little-endian RIFF/WAVE"⟩
    if (readU32 header 4).toNat ≠ bytes.length - 8 then
      throw ⟨"RIFF length does not match the file length"⟩
    let (found, position) ← walkFrom bytes 12 {}
    if position ≠ bytes.length then
      throw ⟨"chunk walk did not end at the file boundary"⟩
    match found.fmtFields with
    | none => throw ⟨"missing fmt chunk"⟩
    | some fields =>
      match found.data with
      | none => throw ⟨"missing data chunk"⟩
      | some (dataOffset, dataBytes) =>
        if fields ≠ .expected then
          throw ⟨"unsupported format: expected packed PCM24 mono 48000 Hz " ++
            s!"(got tag={fields.formatTag}, channels={fields.channels}, " ++
            s!"rate={fields.sampleRate}, byte_rate={fields.byteRate}, " ++
            s!"align={fields.blockAlign}, bits={fields.sampleBits})"⟩
        if dataBytes = 0 then throw ⟨"PCM data is empty"⟩
        if dataBytes % blockAlign ≠ 0 then
          throw ⟨"PCM data length is not a whole sample count"⟩
        return {
          fileBytes := bytes.length, fileSha256 := sha256Hex bytes, dataOffset, dataBytes
          pcmSha256 := sha256Hex (slice bytes dataOffset dataBytes)
          samples := dataBytes / blockAlign }

end WaveformGenerator.Host
