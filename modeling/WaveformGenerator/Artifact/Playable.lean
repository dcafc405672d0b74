import WaveformGenerator.Artifact.Wav
import WaveformGenerator.Artifact.Written

/-!
# Finished artifacts and the validator

The validator finds in a finished file what its writer appended, as long as 32 bits hold the file's
length. The writer goes on to the limit of RIFF's own size field, eight bytes further.
-/

namespace WaveformGenerator.Artifact

/-- A reader of `bytes` whose reads succeed. Its size is the file's where 32 bits hold it. -/
structure WavReader.Reads (reader : WavReader) (bytes : List UInt8) : Prop where
  size : bytes.length ≤ uint32Max → reader.fileSize.toNat = bytes.length
  read : ∃ read, reader.read = some read ∧ ∀ offset count,
    offset.toNat + count ≤ bytes.length → read offset count = .ok (slice bytes offset.toNat count)

theorem WavReader.Reads.readExact {reader : WavReader} {bytes : List UInt8}
    (h : reader.Reads bytes) {offset : UInt32} {count : Nat}
    (hbounds : offset.toNat + count ≤ bytes.length)
    (hsize : offset.toNat + count ≤ reader.fileSize.toNat) :
    wavReadExact reader offset count = .ok (slice bytes offset.toNat count) := by
  obtain ⟨read, hread, hok⟩ := h.read
  have hle : offset ≤ reader.fileSize := by
    rw [UInt32.le_iff_toNat_le]
    omega
  have hcount : ¬ count > (reader.fileSize - offset).toNat := by
    rw [UInt32.toNat_sub_of_le _ _ hle]
    omega
  simp only [wavReadExact, hread]
  rw [if_neg (by simp [UInt32.not_lt.mpr hle, hcount]), hok offset count hbounds]

/-! ## The words of a finished file -/

section
variable (format : Pcm24WavFormat) (payload : List UInt8)

/-- The size field of a finished file. -/
def riffBytes (n : UInt32) : UInt32 := pcm24WavRiffOverheadBytes + (n + (n &&& 1))

theorem slice_riff : slice (wavFile format payload) 0 12 =
    tag "RIFF" ++ (le32 (riffBytes (.ofNat payload.length)) ++ tag "WAVE") := rfl

theorem slice_format : slice (wavFile format payload) 20 16 =
    le16 1 ++ (le16 format.channels ++ (le32 format.sampleRateHz ++
      (le32 (format.sampleRateHz * format.channels.toUInt32 * 3) ++
        (le16 (format.channels * 3) ++ (le16 24 ++ []))))) := rfl

theorem slice_payload : slice (wavFile format payload) 44 payload.length = payload := by
  have hheader : (Pcm24ArtifactWriter.makeHeader format (.ofNat payload.length)).length = 44 := rfl
  rw [slice, wavFile, List.append_assoc, ← hheader, List.drop_left, List.take_left]

end

theorem riffBytes_toNat {n : Nat} (h : Fits n) :
    (riffBytes (.ofNat n)).toNat = 36 + n + n % 2 := by
  unfold Fits uint32Max at h
  have hn : (UInt32.ofNat n).toNat = n := toNat_ofNat32 (by omega)
  have hpad : (UInt32.ofNat n + (UInt32.ofNat n &&& 1)).toNat = n + n % 2 := by
    rw [toNat_add32 (by rw [and_one_toNat, hn]; omega), and_one_toNat, hn]
  have h36 : pcm24WavRiffOverheadBytes.toNat = 36 := rfl
  rw [riffBytes, toNat_add32 (by rw [h36, hpad]; omega), h36, hpad, Nat.add_assoc]

theorem size_eq_riffBytes {n : Nat} (hfits : Fits n) (hsize : 44 + n + n % 2 ≤ uint32Max) :
    (riffBytes (.ofNat n) + 8).toNat = 44 + n + n % 2 := by
  have hriff := riffBytes_toNat hfits
  have h8 : (8 : UInt32).toNat = 8 := rfl
  unfold uint32Max at hsize
  rw [toNat_add32 (by rw [hriff, h8]; omega), hriff, h8]
  omega

theorem riff_words (format : Pcm24WavFormat) (payload : List UInt8) :
    readU32 (slice (wavFile format payload) 0 12) 0 = wavFourcc 'R' 'I' 'F' 'F' ∧
      readU32 (slice (wavFile format payload) 0 12) 4 = riffBytes (.ofNat payload.length) ∧
      readU32 (slice (wavFile format payload) 0 12) 8 = wavFourcc 'W' 'A' 'V' 'E' := by
  rw [slice_riff]
  exact ⟨rfl, readU32_le32 (tag "RIFF") (tag "WAVE") _, rfl⟩

section
variable {reader : WavReader} {format : Pcm24WavFormat} {payload : List UInt8}

theorem readRiffHeader_wavFile (hreads : reader.Reads (wavFile format payload))
    (hfits : Fits payload.length) (hsize : (wavFile format payload).length ≤ uint32Max) :
    readRiffHeader reader = .ok { «end» := riffBytes (.ofNat payload.length) + 8 } := by
  have hfile := hreads.size hsize
  rw [length_wavFile] at hfile hsize
  have hriff := riffBytes_toNat hfits
  obtain ⟨hRIFF, hbytes, hWAVE⟩ := riff_words format payload
  unfold readRiffHeader
  rw [if_neg (by rw [UInt32.lt_iff_toNat_lt, hfile]; show ¬ _ < 12; omega),
    hreads.readExact (by rw [length_wavFile]; show 0 + 12 ≤ _; omega)
      (by rw [hfile]; show 0 + 12 ≤ _; omega)]
  refine (if_neg ?_).trans (by rw [← hbytes]; rfl)
  have hsmall : ¬ riffBytes (.ofNat payload.length) < 4 := by
    rw [UInt32.lt_iff_toNat_lt, hriff]
    show ¬ _ < 4
    omega
  have hlarge : ¬ riffBytes (.ofNat payload.length) > 4294967287 := by
    rw [GT.gt, UInt32.lt_iff_toNat_lt, hriff]
    show ¬ 4294967287 < _
    unfold uint32Max at hsize
    omega
  have hequal : riffBytes (.ofNat payload.length) + 8 = reader.fileSize := by
    rw [← UInt32.toNat_inj, size_eq_riffBytes hfits hsize, hfile]
  show ¬ (_ || _ || _ || _ || _) = true
  rw [show slice (wavFile format payload) (0 : UInt32).toNat 12 =
    slice (wavFile format payload) 0 12 from rfl]
  simp [hRIFF, hWAVE, hbytes, hsmall, hlarge, hequal]

/-- Past 32 bits the size field is larger than a reader takes. -/
theorem readRiffHeader_of_large (hreads : reader.Reads (wavFile format payload))
    (hfits : Fits payload.length) (hsize : uint32Max < (wavFile format payload).length) :
    readRiffHeader reader = .error .io ∨ readRiffHeader reader = .error .invalidRiff := by
  rw [length_wavFile] at hsize
  unfold readRiffHeader
  split
  · exact .inl rfl
  case isFalse htwelve =>
    rw [UInt32.lt_iff_toNat_lt, Nat.not_lt] at htwelve
    obtain ⟨hRIFF, hbytes, hWAVE⟩ := riff_words format payload
    rw [hreads.readExact (by rw [length_wavFile]; show 0 + 12 ≤ _; omega)
      (by show 0 + 12 ≤ _; exact (Nat.zero_add 12).symm ▸ htwelve)]
    refine .inr (if_pos ?_)
    have hlarge : riffBytes (.ofNat payload.length) > 4294967287 := by
      rw [GT.gt, UInt32.lt_iff_toNat_lt, riffBytes_toNat hfits]
      show 4294967287 < _
      unfold uint32Max at hsize
      omega
    rw [show slice (wavFile format payload) (0 : UInt32).toNat 12 =
      slice (wavFile format payload) 0 12 from rfl]
    simp [hbytes, hlarge]

/-- A chunk that fits the file is read; only the count of header bytes can still refuse it. -/
theorem readChunk_of_fits {state : RiffState} {header : List UInt8}
    (hread : wavReadExact reader state.cursor 8 = .ok header)
    (hlimit : state.headerBytes ≤ wavHeaderByteLimit - 8)
    (hfits : state.cursor.toNat + 8 + (readU32 header 4).toNat + (readU32 header 4).toNat % 2 ≤
      state.end.toNat) :
    readChunk reader state =
      let bytes := readU32 header 4
      let chunk : Chunk := ⟨readU32 header 0, state.cursor + 8, bytes,
        state.cursor + 8 + (bytes + (bytes &&& 1))⟩
      let headerBytes := state.headerBytes + 8
      if chunk.id ≠ wavFourcc 'd' 'a' 't' 'a' then
        if bytes + (bytes &&& 1) > wavHeaderByteLimit - headerBytes then
          .error .invalidRiff
        else
          .ok (chunk, { state with headerBytes := headerBytes + (bytes + (bytes &&& 1)) })
      else
        .ok (chunk, { state with headerBytes }) := by
  have h8 : (8 : UInt32).toNat = 8 := rfl
  have hlast := state.end.toNat_lt
  have hoffset : (state.cursor + 8).toNat = state.cursor.toNat + 8 :=
    toNat_add32 (by rw [h8]; omega)
  have hleft : (state.end - state.cursor).toNat = state.end.toNat - state.cursor.toNat :=
    UInt32.toNat_sub_of_le _ _ (by rw [UInt32.le_iff_toNat_le]; omega)
  have hrest : (state.end - (state.cursor + 8)).toNat =
      state.end.toNat - (state.cursor.toNat + 8) := by
    rw [UInt32.toNat_sub_of_le _ _ (by rw [UInt32.le_iff_toNat_le, hoffset]; omega), hoffset]
  have hpadded : (readU32 header 4 + (readU32 header 4 &&& 1)).toNat =
      (readU32 header 4).toNat + (readU32 header 4).toNat % 2 := by
    rw [toNat_add32 (by rw [and_one_toNat]; omega), and_one_toNat]
  have hroom : ¬ state.end - state.cursor < 8 := by
    rw [UInt32.lt_iff_toNat_lt, hleft, h8]
    omega
  have hbytes : ¬ readU32 header 4 > state.end - (state.cursor + 8) := by
    rw [GT.gt, UInt32.lt_iff_toNat_lt, hrest]
    omega
  have hwrap : ¬ readU32 header 4 + (readU32 header 4 &&& 1) < readU32 header 4 := by
    rw [UInt32.lt_iff_toNat_lt, hpadded]
    omega
  have hlength : ¬ readU32 header 4 + (readU32 header 4 &&& 1) > state.end - (state.cursor + 8) := by
    rw [GT.gt, UInt32.lt_iff_toNat_lt, hpadded, hrest]
    omega
  unfold readChunk
  rw [if_neg (by simp [hroom, UInt32.not_lt.mpr hlimit]), hread]
  dsimp only
  rw [if_neg hbytes, if_neg (by simp [hwrap, hlength])]

theorem WavReader.Reads.readWords (hreads : reader.Reads (wavFile format payload))
    (hsize : (wavFile format payload).length ≤ uint32Max) {offset : UInt32} {first count : Nat}
    (hfirst : offset.toNat = first) (hbounds : first + count ≤ 44) :
    wavReadExact reader offset count = .ok (slice (wavFile format payload) first count) := by
  have hlength := length_wavFile format payload
  have hfile := hreads.size hsize
  subst hfirst
  exact hreads.readExact (by omega) (by omega)

/-- The walk's state in a finished file, at a cursor. -/
def riffState (n : Nat) (cursor headerBytes : UInt32) : RiffState :=
  { «end» := riffBytes (.ofNat n) + 8, cursor, headerBytes }

/-- The format chunk of a finished file. -/
theorem readChunk_fmt (hreads : reader.Reads (wavFile format payload))
    (hfits : Fits payload.length) (hsize : (wavFile format payload).length ≤ uint32Max) :
    readChunk reader (riffState payload.length 12 12) =
      .ok (⟨wavFourcc 'f' 'm' 't' ' ', 20, 16, 36⟩, riffState payload.length 12 36) := by
  have hend := size_eq_riffBytes hfits (length_wavFile format payload ▸ hsize)
  have hid : readU32 (slice (wavFile format payload) 12 8) 0 = wavFourcc 'f' 'm' 't' ' ' := rfl
  have hbytes : readU32 (slice (wavFile format payload) 12 8) 4 = 16 :=
    readU32_le32 (tag "fmt ") [] 16
  have hlimit : (12 : UInt32) ≤ wavHeaderByteLimit - 8 := by decide
  have hskip : ¬ (16 : UInt32) + (16 &&& 1) > wavHeaderByteLimit - (12 + 8) := by decide
  have hfmt : wavFourcc 'f' 'm' 't' ' ' ≠ wavFourcc 'd' 'a' 't' 'a' := by decide
  have hread : wavReadExact reader (riffState payload.length 12 12).cursor 8 =
      .ok (slice (wavFile format payload) 12 8) :=
    hreads.readWords hsize rfl (by decide)
  rw [readChunk_of_fits hread hlimit
    (by rw [hbytes]; show 12 + 8 + 16 + 0 ≤ (riffBytes _ + 8).toNat; omega), hid, hbytes]
  exact (if_pos hfmt).trans (if_neg hskip)

/-- Its data chunk. -/
theorem readChunk_data (hreads : reader.Reads (wavFile format payload))
    (hfits : Fits payload.length) (hsize : (wavFile format payload).length ≤ uint32Max) :
    readChunk reader (riffState payload.length 36 36) =
      .ok (⟨wavFourcc 'd' 'a' 't' 'a', 44, .ofNat payload.length,
        riffBytes (.ofNat payload.length) + 8⟩, riffState payload.length 36 44) := by
  have hlength := length_wavFile format payload
  have hend := size_eq_riffBytes hfits (hlength ▸ hsize)
  have hid : readU32 (slice (wavFile format payload) 36 8) 0 = wavFourcc 'd' 'a' 't' 'a' := rfl
  have hbytes : readU32 (slice (wavFile format payload) 36 8) 4 = .ofNat payload.length :=
    readU32_le32 (tag "data") [] _
  have hn : (UInt32.ofNat payload.length).toNat = payload.length :=
    toNat_ofNat32 (by unfold uint32Max at hsize; omega)
  have hlimit : (36 : UInt32) ≤ wavHeaderByteLimit - 8 := by decide
  have hnext : (36 : UInt32) + 8 + (.ofNat payload.length + (.ofNat payload.length &&& 1)) =
      riffBytes (.ofNat payload.length) + 8 := by
    rw [riffBytes, UInt32.add_assoc 36 8, UInt32.add_comm 8, ← UInt32.add_assoc 36]
    rfl
  have hread : wavReadExact reader (riffState payload.length 36 36).cursor 8 =
      .ok (slice (wavFile format payload) 36 8) :=
    hreads.readWords hsize rfl (by decide)
  rw [readChunk_of_fits hread hlimit
    (by rw [hbytes, hn]; show 36 + 8 + _ + _ ≤ (riffBytes _ + 8).toNat; omega), hid, hbytes]
  refine (if_neg (by simp)).trans ?_
  rw [← hnext]
  rfl

/-- What the format chunk of a finished file says. -/
def formatOf (format : Pcm24WavFormat) : Format :=
  { audioFormat := 1
    channels := format.channels
    sampleRate := format.sampleRateHz
    byteRate := format.sampleRateHz * format.channels.toUInt32 * 3
    blockAlign := format.channels * 3
    bitsPerSample := 24
    haveFormat := true }

theorem readFormat_wavFile (hreads : reader.Reads (wavFile format payload))
    (hsize : (wavFile format payload).length ≤ uint32Max) :
    readFormat reader ⟨wavFourcc 'f' 'm' 't' ' ', 20, 16, 36⟩ {} = .ok (formatOf format) := by
  have hread : wavReadExact reader 20 16 = .ok (slice (wavFile format payload) 20 16) :=
    hreads.readWords hsize rfl (by decide)
  have hsmall : ¬ (16 : UInt32) < 16 := by decide
  unfold readFormat
  dsimp only
  rw [if_neg Bool.false_ne_true, if_neg hsmall, hread, slice_format]
  dsimp only
  simp only [formatOf, Except.ok.injEq, Format.mk.injEq, and_true]
  exact ⟨readU16_le16 [] _ 1, readU16_le16 (le16 1) _ _,
    readU32_le32 (le16 1 ++ le16 format.channels) _ _,
    readU32_le32 (le16 1 ++ le16 format.channels ++ le32 format.sampleRateHz) _ _,
    readU16_le16 (le16 1 ++ le16 format.channels ++ le32 format.sampleRateHz ++
      le32 (format.sampleRateHz * format.channels.toUInt32 * 3)) _ _,
    readU16_le16 (le16 1 ++ le16 format.channels ++ le32 format.sampleRateHz ++
      le32 (format.sampleRateHz * format.channels.toUInt32 * 3) ++ le16 (format.channels * 3))
      _ _⟩

theorem parseRiff_wavFile (hreads : reader.Reads (wavFile format payload))
    (hfits : Fits payload.length) (hsize : (wavFile format payload).length ≤ uint32Max)
    (before : WavPayload) :
    parseRiff reader before = .ok
      ({ before with offset := 44, bytes := .ofNat payload.length },
        { formatOf format with haveData := true }) := by
  have hlength := length_wavFile format payload
  have hend := size_eq_riffBytes hfits (hlength ▸ hsize)
  have hid : wavFourcc 'd' 'a' 't' 'a' ≠ wavFourcc 'f' 'm' 't' ' ' := by decide
  have hfirst : (12 : UInt32) < riffBytes (.ofNat payload.length) + 8 := by
    rw [UInt32.lt_iff_toNat_lt, hend]
    show 12 < _
    omega
  have hsecond : (36 : UInt32) < riffBytes (.ofNat payload.length) + 8 := by
    rw [UInt32.lt_iff_toNat_lt, hend]
    show 36 < _
    omega
  unfold parseRiff
  rw [readRiffHeader_wavFile hreads hfits hsize]
  show walkChunks reader (riffState payload.length 12 12) before {} = _
  have hfmt : takeChunk reader ⟨wavFourcc 'f' 'm' 't' ' ', 20, 16, 36⟩ before {} =
      .ok (before, formatOf format) := by
    rw [takeChunk, if_pos rfl, readFormat_wavFile hreads hsize]
    rfl
  have hdata : takeChunk reader ⟨wavFourcc 'd' 'a' 't' 'a', 44, .ofNat payload.length,
      riffBytes (.ofNat payload.length) + 8⟩ before (formatOf format) =
        .ok ({ before with offset := 44, bytes := .ofNat payload.length },
          { formatOf format with haveData := true }) := by
    rw [takeChunk, if_neg hid, if_pos rfl]
    rfl
  rw [walkChunks_step hfirst (readChunk_fmt hreads hfits hsize) hfmt]
  show walkChunks reader (riffState payload.length 36 36) before (formatOf format) = _
  rw [walkChunks_step hsecond (readChunk_data hreads hfits hsize) hdata]
  exact walkChunks_end (UInt32.lt_irrefl _) _ _

/-- The validator for a writer's channels. -/
def validatePcm2448kWav (channels : UInt16) (reader : WavReader) (before : WavPayload) :
    Except WavValidationError WavPayload :=
  if channels = 1 then
    validatePcm24Mono48kWav reader before
  else
    validatePcm24Stereo48kWav reader before

theorem validate_wavFile (hreads : reader.Reads (wavFile format payload))
    (hfits : Fits payload.length) (hsize : (wavFile format payload).length ≤ uint32Max)
    (hvalid : Pcm24ArtifactWriter.validFormat format = true) (hrate : format.sampleRateHz = 48000)
    (hwhole : payload.length % (format.channels.toNat * 3) = 0) (hne : payload ≠ [])
    (before : WavPayload) :
    validatePcm2448kWav format.channels reader before =
      .ok ⟨44, .ofNat payload.length, 24, format.channels * 3⟩ := by
  have hn : (UInt32.ofNat payload.length).toNat = payload.length := by
    rw [length_wavFile] at hsize
    exact toNat_ofNat32 (by unfold uint32Max at hsize; omega)
  have hpos : UInt32.ofNat payload.length ≠ 0 := by
    rw [Ne, ← UInt32.toNat_inj, hn]
    exact mt List.length_eq_zero_iff.mp hne
  have hparse := parseRiff_wavFile hreads hfits hsize before
  rcases Pcm24ArtifactWriter.channels_of_validFormat hvalid with hmono | hstereo
  · have hframes : UInt32.ofNat payload.length % 3 = 0 := by
      rw [← UInt32.toNat_inj, UInt32.toNat_mod, hn]
      rw [hmono] at hwhole
      exact hwhole
    simp [validatePcm2448kWav, validatePcm24Mono48kWav, validatePcmMono48kWav, validatePcmWav,
      hparse, formatOf, hmono, hrate, hpos, hframes]
  · have hframes : UInt32.ofNat payload.length % 6 = 0 := by
      rw [← UInt32.toNat_inj, UInt32.toNat_mod, hn]
      rw [hstereo] at hwhole
      exact hwhole
    simp [validatePcm2448kWav, validatePcm24Stereo48kWav, validatePcmWav, hparse, formatOf,
      hstereo, hrate, hpos, hframes]

theorem not_validate_of_large (hreads : reader.Reads (wavFile format payload))
    (hfits : Fits payload.length) (hsize : uint32Max < (wavFile format payload).length)
    (channels : UInt16) (before : WavPayload) :
    validatePcm2448kWav channels reader before = .error .io ∨
      validatePcm2448kWav channels reader before = .error .invalidRiff := by
  have hheader := readRiffHeader_of_large hreads hfits hsize
  simp only [validatePcm2448kWav, validatePcm24Mono48kWav, validatePcm24Stereo48kWav,
    validatePcmMono48kWav, validatePcmWav, parseRiff]
  rcases hheader with h | h
  · exact .inl (by simp [h])
  · exact .inr (by simp [h])

end

/-! ## Writer and validator -/

open Pcm24ArtifactWriter

/-- `file_size_bytes`: a file's size, at most 32 bits. -/
def fileSizeBytes (size : Nat) : UInt32 :=
  if size > uint32Max then .ofNat uint32Max else .ofNat size

/-- The reader of an open file, its reads succeeding. -/
def readerOf (bytes : List UInt8) : WavReader where
  fileSize := fileSizeBytes bytes.length
  read := some fun offset count => .ok (slice bytes offset.toNat count)

theorem reads_readerOf (bytes : List UInt8) : (readerOf bytes).Reads bytes where
  size h := by
    show (fileSizeBytes bytes.length).toNat = _
    rw [fileSizeBytes, if_neg (Nat.not_lt.mpr h)]
    unfold uint32Max at h
    exact toNat_ofNat32 (by omega)
  read := ⟨_, rfl, fun _ _ _ => rfl⟩

/-- A finished file of at most 32 bits is accepted, with its payload where the writer put it; a
larger one, which the writer also completes, is not. -/
theorem produce_playable {σ : Type u} {sink : Pcm24ByteSink σ} {file : σ → ByteFile}
    (hsink : sink.Keeps file) {sha256Hex : List UInt8 → String} {s s' : σ}
    {format : Pcm24WavFormat} {appends : List (List UInt8)} {summary : Pcm24ArtifactSummary}
    (hrate : format.sampleRateHz = 48000) (hempty : file s = {}) (hne : appends.flatten ≠ [])
    (h : produce sink sha256Hex s format appends = .ok (summary, s')) {reader : WavReader}
    (hreads : reader.Reads (file s').bytes) (before : WavPayload) :
    let n := appends.flatten.length
    slice (file s').bytes 44 n = appends.flatten ∧
      (file s').bytes.length = 44 + n + n % 2 ∧
      (44 + n + n % 2 ≤ uint32Max → ∃ payload,
        validatePcm2448kWav format.channels reader before = .ok payload ∧
          payload.offset = 44 ∧ payload.bytes.toNat = n) ∧
      (uint32Max < 44 + n + n % 2 → ∀ payload,
        validatePcm2448kWav format.channels reader before ≠ .ok payload) := by
  intro n
  obtain ⟨hvalid, hfits, hwhole, hfile, -⟩ := file_produce hsink hempty h
  rw [hfile] at hreads ⊢
  have hlength := length_wavFile format appends.flatten
  refine ⟨slice_payload .., hlength, ?_, ?_⟩
  · intro hsize
    refine ⟨_, validate_wavFile hreads hfits (hlength ▸ hsize) hvalid hrate hwhole hne before, rfl,
      toNat_ofNat32 ?_⟩
    unfold uint32Max at hsize
    omega
  · intro hlarge payload
    rcases not_validate_of_large hreads hfits (hlength ▸ hlarge) format.channels before with h | h
    · simp [h]
    · simp [h]

theorem produce_playable_three :
    ∃ summary file, produce memorySink (fun _ => "") {} ⟨48000, 1⟩ [[1, 2, 3], [4, 5, 6, 7, 8, 9]] =
        .ok (summary, file) ∧
      ∃ payload, validatePcm2448kWav 1 (readerOf file.bytes) {} = .ok payload ∧
        payload.offset = 44 ∧ payload.bytes.toNat = 9 := by
  have hadmits : Admits ⟨48000, 1⟩ [[1, 2, 3], [4, 5, 6, 7, 8, 9]] :=
    ⟨by decide, by decide, by decide⟩
  obtain ⟨summary, file, h⟩ := produce_memorySink (fun _ => "") (by decide) hadmits
  exact ⟨summary, file, h, (produce_playable keeps_memorySink rfl rfl (by decide) h
    (reads_readerOf _) {}).2.2.1 (by decide)⟩

/-- Silence in `count` appends of `size` bytes and one of `rest`. -/
def silence (count size rest : Nat) : List (List UInt8) :=
  List.replicate count (List.replicate size 0) ++ [List.replicate rest 0]

theorem length_silence (count size rest : Nat) :
    (silence count size rest).flatten.length = count * size + rest := by
  rw [silence, List.flatten_append, List.length_append, List.length_flatten, List.map_replicate,
    List.length_replicate, List.sum_replicate_nat, List.flatten_singleton, List.length_replicate]

theorem length_of_mem_silence {count size rest : Nat} {packed : List UInt8}
    (h : packed ∈ silence count size rest) : packed.length = size ∨ packed.length = rest := by
  rcases List.mem_append.mp h with h | h
  · exact .inl (List.eq_of_mem_replicate h ▸ List.length_replicate)
  · exact .inr (List.mem_singleton.mp h ▸ List.length_replicate)

/-- What the writer admits past 32 bits it completes, and the validator does not take it. -/
theorem refused_of_large (sha256Hex : List UInt8 → String) {format : Pcm24WavFormat}
    {appends : List (List UInt8)} (hvalid : validFormat format = true)
    (hadmits : Admits format appends)
    (hlarge : uint32Max < 44 + appends.flatten.length + appends.flatten.length % 2)
    (before : WavPayload) :
    ∃ summary file, produce memorySink sha256Hex {} format appends = .ok (summary, file) ∧
      summary.fileBytes = 44 + appends.flatten.length + appends.flatten.length % 2 ∧
      ∀ payload, validatePcm2448kWav format.channels (readerOf file.bytes) before ≠
        .ok payload := by
  obtain ⟨summary, file, h⟩ := produce_memorySink sha256Hex hvalid hadmits
  obtain ⟨-, hfits, -, hfile, hbytes, -⟩ := file_produce keeps_memorySink rfl h
  have hreads := reads_readerOf file.bytes
  have hcontents : file.bytes = wavFile format appends.flatten := congrArg ByteFile.bytes hfile
  rw [hcontents] at hreads
  rw [length_wavFile] at hbytes
  refine ⟨summary, file, h, hbytes, ?_⟩
  intro payload haccept
  rw [hcontents] at haccept
  rcases not_validate_of_large hreads hfits (by rwa [length_wavFile]) format.channels before with
    hrefused | hrefused
  · simp [hrefused] at haccept
  · simp [hrefused] at haccept

/-- 2^32 - 40 bytes of silence: the writer completes a file of 2^32 + 4 bytes, and the validator
does not take it. -/
theorem large_artifact_refused :
    ∃ summary file,
      produce memorySink (fun _ => "") {} ⟨48000, 1⟩ (silence 87381 49152 16344) =
          .ok (summary, file) ∧
        summary.fileBytes = 4294967300 ∧
        ∀ payload, validatePcm24Mono48kWav (readerOf file.bytes) {} ≠ .ok payload := by
  have hlength : (silence 87381 49152 16344).flatten.length = 4294967256 := length_silence ..
  have hadmits : Admits ⟨48000, 1⟩ (silence 87381 49152 16344) := by
    refine ⟨?_, ?_, by rw [hlength]; decide⟩
    · intro packed hpacked
      rcases length_of_mem_silence hpacked with h | h <;> rw [h] <;> decide
    · intro packed hpacked
      rcases length_of_mem_silence hpacked with h | h <;> rw [h] <;> decide
  obtain ⟨summary, file, h, hbytes, hrefused⟩ := refused_of_large (fun _ => "") (by decide) hadmits
    (by rw [hlength]; decide) {}
  rw [hlength] at hbytes
  exact ⟨summary, file, h, hbytes, hrefused⟩

end WaveformGenerator.Artifact
