import WaveformGenerator.Common.Status
import WaveformGenerator.Lib.Bytes
import WaveformGenerator.Lib.UInt

/-!
# WAV validation (`common/wav.hpp`)

`parseRiff` walks the chunks of a RIFF file and keeps what the format and data chunks say;
`validatePcmWav` compares it with the one format that plays.
-/

namespace WaveformGenerator.Artifact

def wavHeaderByteLimit : UInt32 := 65536

inductive WavValidationError
  | io
  | invalidRiff
  | missingFormat
  | missingData
  | unsupportedFormat
  deriving DecidableEq, Repr

structure WavPayload where
  offset : UInt32 := 0
  bytes : UInt32 := 0
  bitsPerSample : UInt16 := 0
  bytesPerFrame : UInt16 := 0
  deriving DecidableEq, Repr

def wavReadPastEnd : Status :=
  { code := .invalidArgument, message := "a WAV read past the end of the file" }

def wavReadUnready : Status :=
  { code := .invalidArgument, message := "a WAV read without a reader or a destination" }

/-- The file a WAV is validated from: its size, and a callback that reads exactly the bytes asked
for at an offset. -/
structure WavReader where
  fileSize : UInt32
  read : Option (UInt32 → Nat → Result (List UInt8))

def wavFourcc (a b c d : Char) : UInt32 :=
  UInt32.ofNat a.toNat ||| UInt32.ofNat b.toNat <<< 8 ||| UInt32.ofNat c.toNat <<< 16 |||
    UInt32.ofNat d.toNat <<< 24

/-- `wav_read_exact`: bytes beyond the end are not asked for. -/
def wavReadExact (reader : WavReader) (offset : UInt32) (count : Nat) : Result (List UInt8) :=
  match reader.read with
  | none => .error wavReadUnready
  | some read =>
    if offset > reader.fileSize || count > (reader.fileSize - offset).toNat then
      .error wavReadPastEnd
    else
      read offset count

structure Format where
  audioFormat : UInt16 := 0
  channels : UInt16 := 0
  sampleRate : UInt32 := 0
  byteRate : UInt32 := 0
  blockAlign : UInt16 := 0
  bitsPerSample : UInt16 := 0
  haveFormat : Bool := false
  haveData : Bool := false
  deriving DecidableEq, Repr

structure RiffState where
  «end» : UInt32 := 0
  cursor : UInt32 := 12
  headerBytes : UInt32 := 12
  deriving DecidableEq, Repr

structure Chunk where
  id : UInt32
  offset : UInt32
  bytes : UInt32
  next : UInt32
  deriving DecidableEq, Repr

def readRiffHeader (reader : WavReader) : Except WavValidationError RiffState :=
  if reader.fileSize < 12 then
    .error .io
  else
    match wavReadExact reader 0 12 with
    | .error _ => .error .io
    | .ok header =>
      let riffBytes := readU32 header 4
      if readU32 header 0 ≠ wavFourcc 'R' 'I' 'F' 'F' ||
          readU32 header 8 ≠ wavFourcc 'W' 'A' 'V' 'E' || riffBytes < 4 ||
          riffBytes > 4294967287 || riffBytes + 8 ≠ reader.fileSize then
        .error .invalidRiff
      else
        .ok { «end» := riffBytes + 8 }

def readChunk (reader : WavReader) (state : RiffState) :
    Except WavValidationError (Chunk × RiffState) :=
  if state.end - state.cursor < 8 || state.headerBytes > wavHeaderByteLimit - 8 then
    .error .invalidRiff
  else
    match wavReadExact reader state.cursor 8 with
    | .error _ => .error .invalidRiff
    | .ok header =>
      let id := readU32 header 0
      let bytes := readU32 header 4
      let offset := state.cursor + 8
      if bytes > state.end - offset then
        .error .invalidRiff
      else
        let paddedBytes := bytes + (bytes &&& 1)
        if paddedBytes < bytes || paddedBytes > state.end - offset then
          .error .invalidRiff
        else
          let chunk : Chunk := { id, offset, bytes, next := offset + paddedBytes }
          let headerBytes := state.headerBytes + 8
          if id ≠ wavFourcc 'd' 'a' 't' 'a' then
            if paddedBytes > wavHeaderByteLimit - headerBytes then
              .error .invalidRiff
            else
              .ok (chunk, { state with headerBytes := headerBytes + paddedBytes })
          else
            .ok (chunk, { state with headerBytes })

def readFormat (reader : WavReader) (chunk : Chunk) (format : Format) :
    Except WavValidationError Format :=
  if format.haveFormat then
    .error .invalidRiff
  else if chunk.bytes < 16 then
    .error .unsupportedFormat
  else
    match wavReadExact reader chunk.offset 16 with
    | .error _ => .error .io
    | .ok header =>
      .ok { format with
        audioFormat := readU16 header 0
        channels := readU16 header 2
        sampleRate := readU32 header 4
        byteRate := readU32 header 8
        blockAlign := readU16 header 12
        bitsPerSample := readU16 header 14
        haveFormat := true }

/-- What a chunk adds to what the walk has found. -/
def takeChunk (reader : WavReader) (chunk : Chunk) (payload : WavPayload) (format : Format) :
    Except WavValidationError (WavPayload × Format) :=
  if chunk.id = wavFourcc 'f' 'm' 't' ' ' then
    (readFormat reader chunk format).map fun format => (payload, format)
  else if chunk.id = wavFourcc 'd' 'a' 't' 'a' then
    if format.haveData then
      .error .invalidRiff
    else
      .ok ({ payload with offset := chunk.offset, bytes := chunk.bytes },
        { format with haveData := true })
  else
    .ok (payload, format)

/-- A chunk that was read ends behind the cursor and inside the file. -/
theorem next_of_readChunk {reader : WavReader} {state after : RiffState} {read : Chunk}
    (hcursor : state.cursor < state.end) (h : readChunk reader state = .ok (read, after)) :
    state.cursor < read.next ∧ read.next ≤ state.end ∧ after.end = state.end := by
  have height : (8 : UInt32).toNat = 8 := rfl
  unfold readChunk at h
  simp only [Bool.or_eq_true, decide_eq_true_eq] at h
  split at h
  · cases h
  case isFalse hroom =>
    obtain ⟨hroom, -⟩ := not_or.mp hroom
    have hend := state.end.toNat_lt
    have hleft : (state.end - state.cursor).toNat = state.end.toNat - state.cursor.toNat :=
      UInt32.toNat_sub_of_le _ _ (UInt32.le_of_lt hcursor)
    rw [UInt32.lt_iff_toNat_lt, hleft, height, Nat.not_lt] at hroom
    have hoffset : (state.cursor + 8).toNat = state.cursor.toNat + 8 :=
      toNat_add32 (by rw [height]; omega)
    have hrest : (state.end - (state.cursor + 8)).toNat =
        state.end.toNat - (state.cursor.toNat + 8) := by
      rw [UInt32.toNat_sub_of_le _ _ (by rw [UInt32.le_iff_toNat_le, hoffset]; omega), hoffset]
    split at h
    · cases h
    case h_2 header _ =>
      generalize hsize : readU32 header 4 + (readU32 header 4 &&& 1) = paddedBytes at h
      split at h
      · cases h
      · split at h
        · cases h
        case isFalse hpadded =>
          obtain ⟨-, hpadded⟩ := not_or.mp hpadded
          rw [GT.gt, UInt32.lt_iff_toNat_lt, hrest, Nat.not_lt] at hpadded
          obtain ⟨hnext, hafter⟩ :
              read.next = state.cursor + 8 + paddedBytes ∧ after.end = state.end := by
            split at h
            · split at h <;> cases h
              exact ⟨rfl, rfl⟩
            · cases h
              exact ⟨rfl, rfl⟩
          have htotal : read.next.toNat = state.cursor.toNat + 8 + paddedBytes.toNat := by
            rw [hnext, ← hoffset]
            exact toNat_add32 (by rw [hoffset]; omega)
          refine ⟨?_, ?_, hafter⟩
          · rw [UInt32.lt_iff_toNat_lt, htotal]
            omega
          · rw [UInt32.le_iff_toNat_le, htotal]
            omega

/-- The chunks from the cursor to the end. -/
def walkChunks (reader : WavReader) (state : RiffState) (payload : WavPayload) (format : Format) :
    Except WavValidationError (WavPayload × Format) :=
  if _hcursor : state.cursor < state.end then
    match _hread : readChunk reader state with
    | .error error => .error error
    | .ok (chunk, after) =>
      match takeChunk reader chunk payload format with
      | .error error => .error error
      | .ok (payload, format) =>
        walkChunks reader { after with cursor := chunk.next } payload format
  else
    .ok (payload, format)
termination_by state.end.toNat - state.cursor.toNat
decreasing_by
  obtain ⟨hlt, hle, hend⟩ := next_of_readChunk _hcursor _hread
  rw [UInt32.lt_iff_toNat_lt] at hlt
  rw [UInt32.le_iff_toNat_le] at hle
  rw [hend]
  omega

theorem walkChunks_step {reader : WavReader} {state after : RiffState} {chunk : Chunk}
    {payload payload' : WavPayload} {format format' : Format} (hcursor : state.cursor < state.end)
    (hread : readChunk reader state = .ok (chunk, after))
    (htake : takeChunk reader chunk payload format = .ok (payload', format')) :
    walkChunks reader state payload format =
      walkChunks reader { after with cursor := chunk.next } payload' format' := by
  conv_lhs => unfold walkChunks
  rw [dif_pos hcursor]
  split
  · simp_all
  case h_2 hread' =>
    cases hread.symm.trans hread'
    rw [htake]

theorem walkChunks_refused {reader : WavReader} {state : RiffState} {error : WavValidationError}
    (hcursor : state.cursor < state.end) (hread : readChunk reader state = .error error)
    (payload : WavPayload) (format : Format) :
    walkChunks reader state payload format = .error error := by
  unfold walkChunks
  rw [dif_pos hcursor]
  split
  case h_1 hread' =>
    cases hread.symm.trans hread'
    rfl
  case h_2 hread' => cases hread.symm.trans hread'

theorem walkChunks_untaken {reader : WavReader} {state after : RiffState} {chunk : Chunk}
    {payload : WavPayload} {format : Format} {error : WavValidationError}
    (hcursor : state.cursor < state.end) (hread : readChunk reader state = .ok (chunk, after))
    (htake : takeChunk reader chunk payload format = .error error) :
    walkChunks reader state payload format = .error error := by
  unfold walkChunks
  rw [dif_pos hcursor]
  split
  case h_1 hread' => cases hread.symm.trans hread'
  case h_2 hread' =>
    cases hread.symm.trans hread'
    rw [htake]

theorem walkChunks_end {reader : WavReader} {state : RiffState}
    (hcursor : ¬ state.cursor < state.end) (payload : WavPayload) (format : Format) :
    walkChunks reader state payload format = .ok (payload, format) := by
  unfold walkChunks
  rw [dif_neg hcursor]

def parseRiff (reader : WavReader) (payload : WavPayload) :
    Except WavValidationError (WavPayload × Format) :=
  match readRiffHeader reader with
  | .error error => .error error
  | .ok state => walkChunks reader state payload {}

def validatePcmWav (reader : WavReader) (payload : WavPayload)
    (requiredChannels requiredBitsPerSample : UInt16) : Except WavValidationError WavPayload :=
  match parseRiff reader payload with
  | .error error => .error error
  | .ok (payload, format) =>
    if !format.haveFormat then
      .error .missingFormat
    else if !format.haveData || payload.bytes = 0 then
      .error .missingData
    else
      let requiredBytesPerFrame := requiredBitsPerSample / 8 * requiredChannels
      if (requiredBitsPerSample ≠ 16 && requiredBitsPerSample ≠ 24) ||
          (requiredChannels ≠ 1 && requiredChannels ≠ 2) ||
          (requiredChannels = 2 && requiredBitsPerSample ≠ 24) || format.audioFormat ≠ 1 ||
          format.channels ≠ requiredChannels || format.sampleRate ≠ 48000 ||
          format.byteRate ≠ 48000 * requiredBytesPerFrame.toUInt32 ||
          format.blockAlign ≠ requiredBytesPerFrame ||
          format.bitsPerSample ≠ requiredBitsPerSample ||
          payload.bytes % requiredBytesPerFrame.toUInt32 ≠ 0 then
        .error .unsupportedFormat
      else
        .ok { payload with
          bitsPerSample := format.bitsPerSample, bytesPerFrame := format.blockAlign }

def validatePcmMono48kWav (reader : WavReader) (payload : WavPayload)
    (requiredBitsPerSample : UInt16) : Except WavValidationError WavPayload :=
  validatePcmWav reader payload 1 requiredBitsPerSample

def validatePcm24Mono48kWav (reader : WavReader) (payload : WavPayload) :
    Except WavValidationError WavPayload :=
  validatePcmMono48kWav reader payload 24

def validatePcm24Stereo48kWav (reader : WavReader) (payload : WavPayload) :
    Except WavValidationError WavPayload :=
  validatePcmWav reader payload 2 24

end WaveformGenerator.Artifact
