import WaveformGenerator.Artifact.Scan

/-!
# What the validator accepts

An accepted file is a RIFF header and a sequence of chunks, one of them a format chunk and one a
data chunk; the payload reported is the data chunk's.
-/

namespace WaveformGenerator.Artifact

open Riff (padded)

/-- A reader whose reads, when they succeed, give the bytes of a file, which may be longer than the
size the reader has for it. -/
structure WavReader.Serves (reader : WavReader) (bytes : List UInt8) : Prop where
  size : reader.fileSize.toNat ≤ bytes.length
  read : ∀ {read offset count data}, reader.read = some read →
    offset.toNat + count ≤ reader.fileSize.toNat → read offset count = .ok data →
    data = slice bytes offset.toNat count

theorem WavReader.Serves.readExact {reader : WavReader} {bytes data : List UInt8}
    (h : reader.Serves bytes) {offset : UInt32} {count : Nat}
    (hread : wavReadExact reader offset count = .ok data) :
    data = slice bytes offset.toNat count ∧ offset.toNat + count ≤ bytes.length := by
  have hsize := h.size
  unfold wavReadExact at hread
  split at hread
  · cases hread
  · rename_i read hsome
    split at hread
    · cases hread
    · rename_i hbounds
      simp only [Bool.or_eq_true, decide_eq_true_eq, not_or, UInt32.not_lt, Nat.not_lt] at hbounds
      obtain ⟨hoffset, hcount⟩ := hbounds
      rw [UInt32.toNat_sub_of_le _ _ hoffset] at hcount
      rw [UInt32.le_iff_toNat_le] at hoffset
      exact ⟨h.read hsome (by omega) hread, by omega⟩

/-! ## The words of a chunk -/

theorem getD_take {bytes : List UInt8} {n i : Nat} (h : i < n) :
    (bytes.take n).getD i 0 = bytes.getD i 0 := by
  rw [List.getD_eq_getElem?_getD, List.getElem?_take_of_lt h, ← List.getD_eq_getElem?_getD]

theorem readU16_take {bytes : List UInt8} {n i : Nat} (h : i + 2 ≤ n) :
    readU16 (bytes.take n) i = readU16 bytes i := by
  unfold readU16
  rw [getD_take (by omega), getD_take (by omega)]

theorem readU32_take {bytes : List UInt8} {n i : Nat} (h : i + 4 ≤ n) :
    readU32 (bytes.take n) i = readU32 bytes i := by
  unfold readU32
  rw [getD_take (by omega), getD_take (by omega), getD_take (by omega), getD_take (by omega)]

theorem le32_injective {a b : UInt32} (h : le32 a = le32 b) : a = b := by
  have hword : ∀ word, readU32 (le32 word) 0 = word := fun word => by
    have := readU32_le32 [] [] word
    rwa [List.nil_append, List.append_nil] at this
  rw [← hword a, h, hword]

/-- A chunk is known by the first four bytes of its header. -/
theorem readU32_eq_iff {bytes : List UInt8} (h : 4 ≤ bytes.length) (word : UInt32) :
    readU32 bytes 0 = word ↔ bytes.take 4 = le32 word := by
  have hle : le32 (readU32 bytes 0) = bytes.take 4 := le32_readU32 (by omega)
  rw [← hle]
  exact ⟨fun h => by rw [h], le32_injective⟩

/-- What the sixteen bytes of a format say. -/
def Format.unpack (header : List UInt8) : Format where
  audioFormat := readU16 header 0
  channels := readU16 header 2
  sampleRate := readU32 header 4
  byteRate := readU32 header 8
  blockAlign := readU16 header 12
  bitsPerSample := readU16 header 14
  haveFormat := true

theorem Format.unpack_take {header : List UInt8} {n : Nat} (h : 16 ≤ n) :
    unpack (header.take n) = unpack header := by
  unfold unpack
  rw [readU16_take (by omega), readU16_take (by omega), readU32_take (by omega),
    readU32_take (by omega), readU16_take (by omega), readU16_take (by omega)]

/-! ## The chunks of an accepted file -/

def isFormat (chunk : Riff.Chunk) : Bool := chunk.id = textBytes "fmt "
def isData (chunk : Riff.Chunk) : Bool := chunk.id = textBytes "data"

/-- The formats the scan has found. -/
def Format.found (format : Format) : List Format :=
  if format.haveFormat then [{ format with haveData := false }] else []

/-- The data it has found: where they start, and how many bytes they are. -/
def WavPayload.found (payload : WavPayload) (format : Format) : List (Nat × Nat) :=
  if format.haveData then [(payload.offset.toNat, payload.bytes.toNat)] else []

section
variable {reader : WavReader} {bytes : List UInt8} {state after : RiffState} {chunk : Chunk}
  {header : List UInt8} {payload payload' : WavPayload} {format format' : Format}

/-- The chunk of the file that a pass reads. -/
def Chunk.riff (chunk : Chunk) (bytes header : List UInt8) : Riff.Chunk :=
  ⟨header.take 4, slice bytes chunk.offset.toNat chunk.bytes.toNat⟩

theorem takeChunk_ok (hserves : reader.Serves bytes)
    (hchunk : ReadChunk reader state chunk after header)
    (h : takeChunk reader chunk payload format = .ok (payload', format')) :
    format'.found = format.found ++
        ([chunk.riff bytes header].filter isFormat).map (Format.unpack ·.payload) ∧
      payload'.found format' = payload.found format ++ ([chunk.riff bytes header].filter isData).map
        (fun _ => (chunk.offset.toNat, chunk.bytes.toNat)) ∧
      (isFormat (chunk.riff bytes header) = true → 16 ≤ chunk.bytes.toNat) := by
  obtain ⟨hheader, hbounds⟩ := hserves.readExact hchunk.read
  have hlength : 4 ≤ header.length := by
    rw [hheader, length_slice hbounds]
    decide
  have hfmt : isFormat (chunk.riff bytes header) =
      decide (chunk.id = wavFourcc 'f' 'm' 't' ' ') := by
    rw [hchunk.id, Bool.eq_iff_iff, decide_eq_true_eq, readU32_eq_iff hlength]
    exact decide_eq_true_iff
  have hdata : isData (chunk.riff bytes header) =
      decide (chunk.id = wavFourcc 'd' 'a' 't' 'a') := by
    rw [hchunk.id, Bool.eq_iff_iff, decide_eq_true_eq, readU32_eq_iff hlength]
    exact decide_eq_true_iff
  unfold takeChunk at h
  rw [List.filter_singleton, List.filter_singleton, hfmt, hdata]
  by_cases hid : chunk.id = wavFourcc 'f' 'm' 't' ' '
  · have hother : ¬chunk.id = wavFourcc 'd' 'a' 't' 'a' := by
      rw [hid]
      decide
    rw [if_pos hid] at h
    rw [decide_eq_true hid, decide_eq_false hother]
    unfold readFormat at h
    cases hfound : format.haveFormat with
    | true =>
      rw [hfound] at h
      cases h
    | false =>
      rw [hfound, if_neg Bool.false_ne_true] at h
      split at h
      · cases h
      · rename_i hlong
        rw [UInt32.not_lt, UInt32.le_iff_toNat_le] at hlong
        have hlong : 16 ≤ chunk.bytes.toNat := hlong
        split at h
        · cases h
        · rename_i fields hfields
          obtain ⟨hfields, -⟩ := hserves.readExact hfields
          have hunpack : Format.unpack (chunk.riff bytes header).payload =
              Format.unpack fields := by
            rw [hfields]
            show Format.unpack (List.take _ _) = Format.unpack (List.take _ _)
            rw [Format.unpack_take hlong, Format.unpack_take (Nat.le_refl _)]
          cases h
          refine ⟨?_, (List.append_nil _).symm, fun _ => hlong⟩
          rw [Format.found, Format.found, hfound, if_neg Bool.false_ne_true]
          show [_] = [Format.unpack (chunk.riff bytes header).payload]
          rw [hunpack]
          rfl
  · rw [if_neg hid] at h
    rw [decide_eq_false hid]
    by_cases hid' : chunk.id = wavFourcc 'd' 'a' 't' 'a'
    · rw [if_pos hid'] at h
      rw [decide_eq_true hid']
      cases hfound : format.haveData with
      | true =>
        rw [hfound] at h
        cases h
      | false =>
        rw [hfound, if_neg Bool.false_ne_true] at h
        cases h
        refine ⟨(List.append_nil _).symm, ?_, fun h => by cases h⟩
        rw [WavPayload.found, WavPayload.found, hfound, if_neg Bool.false_ne_true]
        rfl
    · rw [if_neg hid'] at h
      rw [decide_eq_false hid']
      cases h
      exact ⟨(List.append_nil _).symm, (List.append_nil _).symm, fun h => by cases h⟩

/-- The chunk at the cursor is the first of what is left, and the next cursor is behind it. -/
theorem chunks_of_readChunk (hserves : reader.Serves bytes) (hcursor : state.cursor < state.end)
    (hend : state.end.toNat ≤ bytes.length)
    (hchunk : ReadChunk reader state chunk after header) {rest : List Riff.Chunk}
    (hrest : Riff.chunks (slice bytes chunk.next.toNat (state.end.toNat - chunk.next.toNat)) =
      some rest) :
    Riff.chunks (slice bytes state.cursor.toNat (state.end.toNat - state.cursor.toNat)) =
        some (chunk.riff bytes header :: rest) ∧
      (chunk.riff bytes header).payload.length = chunk.bytes.toNat := by
  obtain ⟨hheader, -⟩ := hserves.readExact hchunk.read
  have hoffset := hchunk.offset
  have hnext := hchunk.next
  have hfits := hchunk.fits
  have hlength := @length_slice _ bytes state.cursor.toNat
    (state.end.toNat - state.cursor.toNat) (by omega)
  have hlt := UInt32.lt_iff_toNat_lt.mp hcursor
  have hne : slice bytes state.cursor.toNat (state.end.toNat - state.cursor.toNat) ≠ [] := by
    intro hnil
    rw [hnil] at hlength
    exact absurd hlength (by rw [List.length_nil]; omega)
  have hsize : Riff.sizeAt (slice bytes state.cursor.toNat
      (state.end.toNat - state.cursor.toNat)) = chunk.bytes.toNat := by
    rw [Riff.sizeAt, hchunk.bytes, hheader]
    show (readU32 (List.take _ _) 4).toNat = (readU32 (List.take _ _) 4).toNat
    rw [readU32_take (by omega), readU32_take (by omega)]
  have hpayload : (chunk.riff bytes header).payload.length = chunk.bytes.toNat := by
    refine length_slice ?_
    unfold padded at hnext
    omega
  refine ⟨?_, hpayload⟩
  rw [Riff.chunks_eq_some hne, hsize, hlength]
  refine ⟨by omega, rest, ?_, ?_⟩
  · rw [← hrest, slice, slice, List.drop_take, List.drop_drop, hnext, Nat.add_assoc,
      Nat.sub_sub]
  · congr 1
    unfold Chunk.riff
    congr 1
    · rw [hheader, slice, slice, List.take_take, List.take_take]
      congr 1
      omega
    · rw [slice_slice (by unfold padded at hnext; omega), hoffset]

/-- What the scan finds from a cursor on is what the chunks from there on hold. -/
theorem walkChunks_ok (hserves : reader.Serves bytes)
    (hcursor : state.cursor.toNat ≤ state.end.toNat) (hend : state.end.toNat ≤ bytes.length)
    (h : walkChunks reader state payload format = .ok (payload', format')) :
    ∃ all, Riff.chunks (slice bytes state.cursor.toNat
        (state.end.toNat - state.cursor.toNat)) = some all ∧
      format'.found = format.found ++ (all.filter isFormat).map (Format.unpack ·.payload) ∧
      payload'.found format' = payload.found format ++
        ((Riff.located state.cursor.toNat all).filter (isData ·.2)).map
          (fun placed => (placed.1, placed.2.payload.length)) ∧
      ∀ chunk ∈ all.filter isFormat, 16 ≤ chunk.payload.length := by
  induction state, payload, format using walkChunks.induct reader with
  | case1 state payload format hlt error hread =>
    rw [walkChunks_refused hlt hread] at h
    cases h
  | case2 state payload format hlt chunk after hread error htake =>
    rw [walkChunks_untaken hlt hread htake] at h
    cases h
  | case3 state payload format hlt chunk after hread mid midFormat htake ih =>
    rw [walkChunks_step hlt hread htake] at h
    obtain ⟨header, hchunk⟩ := readChunk_ok hcursor hread
    have hnextEnd : chunk.next.toNat ≤ after.end.toNat := hchunk.end ▸ hchunk.fits
    obtain ⟨rest, hrest, hformats, hdatas, hlong⟩ := ih hnextEnd (hchunk.end ▸ hend) h
    obtain ⟨htakeFormat, htakeData, htakeLong⟩ := takeChunk_ok hserves hchunk htake
    have hrest : Riff.chunks (slice bytes chunk.next.toNat
        (state.end.toNat - chunk.next.toNat)) = some rest := hchunk.end ▸ hrest
    obtain ⟨hall, hpayload⟩ := chunks_of_readChunk hserves hlt hend hchunk hrest
    have hplace : state.cursor.toNat + (chunk.riff bytes header).length = chunk.next.toNat := by
      rw [Riff.Chunk.length, hpayload, hchunk.next, Nat.add_assoc]
    refine ⟨_, hall, ?_, ?_, ?_⟩
    · rw [hformats, htakeFormat, List.append_assoc, ← List.map_append, ← List.filter_append]
      rfl
    · rw [hdatas, htakeData, List.append_assoc, Riff.located, hplace, ← hchunk.offset,
        ← hpayload, List.filter_cons, List.filter_cons]
      dsimp only
      split <;> rfl
    · intro c hc
      rw [List.mem_filter, List.mem_cons] at hc
      obtain ⟨rfl | hmem, hid⟩ := hc
      · rw [hpayload]
        exact htakeLong hid
      · exact hlong c (List.mem_filter.mpr ⟨hmem, hid⟩)
  | case4 state payload format hlt =>
    rw [walkChunks_end hlt] at h
    cases h
    refine ⟨[], ?_, (List.append_nil _).symm, (List.append_nil _).symm, fun _ h => by cases h⟩
    have hle := UInt32.le_iff_toNat_le.mp (UInt32.not_lt.mp hlt)
    rw [show state.end.toNat - state.cursor.toNat = 0 by omega, slice, List.take_zero]
    exact Riff.chunks_nil

end

/-- A file whose payload, in frames of the format asked for, is what the validator reports. -/
structure Accepted (size : Nat) (bytes : List UInt8) (channels bits : UInt16)
    (payload : WavPayload) : Prop where
  riff : slice bytes 0 4 = textBytes "RIFF" ∧ slice bytes 8 4 = textBytes "WAVE" ∧
    (readU32 bytes 4).toNat + 8 = size
  inside : payload.offset.toNat + payload.bytes.toNat ≤ size
  chunks : ∃ all fmt data, Riff.chunks (slice bytes 12 (size - 12)) = some all ∧
    all.filter isFormat = [fmt] ∧ 16 ≤ fmt.payload.length ∧
    Format.unpack fmt.payload = {
      audioFormat := 1, channels, sampleRate := 48000
      byteRate := 48000 * payload.bytesPerFrame.toUInt32
      blockAlign := payload.bytesPerFrame, bitsPerSample := bits, haveFormat := true } ∧
    (Riff.located 12 all).filter (isData ·.2) = [(payload.offset.toNat, data)] ∧
    data.payload = slice bytes payload.offset.toNat payload.bytes.toNat
  nonempty : 0 < payload.bytes.toNat
  format : (bits = 16 ∧ channels = 1) ∨ (bits = 24 ∧ (channels = 1 ∨ channels = 2))
  width : payload.bitsPerSample = bits
  align : payload.bytesPerFrame.toNat = bits.toNat / 8 * channels.toNat
  whole : payload.bytes.toNat % payload.bytesPerFrame.toNat = 0

section
variable {reader : WavReader} {bytes : List UInt8} {before payload : WavPayload}
  {channels bits : UInt16}

/-- The format that plays: the last checks of `validate_pcm_wav`. -/
theorem validate_ok (h : validatePcmWav reader before channels bits = .ok payload) :
    ∃ parsed format, parseRiff reader before = .ok (parsed, format) ∧
      format.haveFormat = true ∧ format.haveData = true ∧ parsed.bytes ≠ 0 ∧
      ((bits = 16 ∧ channels = 1) ∨ (bits = 24 ∧ (channels = 1 ∨ channels = 2))) ∧
      { format with haveData := false } = {
        audioFormat := 1, channels, sampleRate := 48000
        byteRate := 48000 * (bits / 8 * channels).toUInt32
        blockAlign := bits / 8 * channels, bitsPerSample := bits, haveFormat := true } ∧
      parsed.bytes % (bits / 8 * channels).toUInt32 = 0 ∧
      payload = { parsed with bitsPerSample := bits, bytesPerFrame := bits / 8 * channels } := by
  unfold validatePcmWav at h
  split at h
  · cases h
  · rename_i parsed format hparse
    split at h
    · cases h
    · rename_i hformat
      rw [Bool.not_eq_true, Bool.not_eq_false'] at hformat
      split at h
      · cases h
      · rename_i hdata
        simp only [Bool.or_eq_true, Bool.not_eq_true', decide_eq_true_eq, not_or,
          Bool.not_eq_false] at hdata
        obtain ⟨hdata, hbytes⟩ := hdata
        dsimp only at h
        split at h
        · cases h
        · rename_i hfields
          simp only [Bool.or_eq_true, Bool.and_eq_true, decide_eq_true_eq, not_or, not_not,
            not_and_or, ne_eq] at hfields
          obtain ⟨⟨⟨⟨⟨⟨⟨⟨⟨hbits, hchannels⟩, hstereo⟩, haudio⟩, hchannels'⟩, hrate⟩, hbyteRate⟩,
            halign⟩, hbits'⟩, hwhole⟩ := hfields
          cases h
          refine ⟨parsed, format, hparse, hformat, hdata, hbytes, ?_, ?_, hwhole, ?_⟩
          · rcases hbits with hbits | hbits
            · refine .inl ⟨hbits, hchannels.resolve_right fun htwo => ?_⟩
              rcases hstereo with h | h
              · exact h htwo
              · exact absurd (hbits.symm.trans h) (by decide)
            · exact .inr ⟨hbits, hchannels⟩
          · rw [haudio, hchannels', hrate, hbyteRate, halign, hbits', hformat]
          · rw [hbits', halign]

theorem accepted (hserves : reader.Serves bytes)
    (h : validatePcmWav reader before channels bits = .ok payload) :
    Accepted reader.fileSize.toNat bytes channels bits payload := by
  obtain ⟨parsed, format, hparse, hformat, hdata, hbytes, hplays, hfields, hwhole, rfl⟩ :=
    validate_ok h
  unfold parseRiff at hparse
  cases hheader : readRiffHeader reader with
  | error error =>
    rw [hheader] at hparse
    cases hparse
  | ok state =>
    rw [hheader] at hparse
    obtain ⟨htwelve, rfl, header, hread, hriff, hwave, hsize⟩ := readRiffHeader_ok hheader
    obtain ⟨rfl, hbounds⟩ := hserves.readExact hread
    have hbounds : 12 ≤ bytes.length := hbounds
    have hcursor : (12 : UInt32).toNat ≤ reader.fileSize.toNat := htwelve
    obtain ⟨all, hall, hformats, hdatas, hlong⟩ := walkChunks_ok hserves hcursor hserves.size hparse
    have hall : Riff.chunks (slice bytes 12 (reader.fileSize.toNat - 12)) = some all := hall
    have hempty : Format.found {} = [] := rfl
    have hnone : before.found {} = [] := rfl
    rw [hempty, List.nil_append, Format.found, if_pos hformat] at hformats
    rw [hnone, List.nil_append, WavPayload.found, if_pos hdata] at hdatas
    obtain ⟨fmt, hfmt, hunpack⟩ := List.map_eq_singleton_iff.mp hformats.symm
    obtain ⟨⟨offset, data⟩, hplaced, hplace⟩ := List.map_eq_singleton_iff.mp hdatas.symm
    obtain ⟨rfl, hlength⟩ := Prod.mk.inj hplace
    have hplaced : (Riff.located 12 all).filter (isData ·.2) = [(parsed.offset.toNat, data)] :=
      hplaced
    have hmem : (parsed.offset.toNat, data) ∈ Riff.located 12 all := by
      have := List.mem_singleton_self (parsed.offset.toNat, data)
      rw [← hplaced] at this
      exact (List.mem_filter.mp this).1
    have hsizes := hserves.size
    obtain ⟨hfirst, hlast⟩ := Riff.located_bounds hmem
    have hpayload := Riff.located_payload hall hmem
    rw [Riff.sum_length hall, length_slice (by omega)] at hlast
    dsimp only at hfirst hlast hlength hpayload
    rw [hlength] at hlast hpayload
    have htake : ∀ at' word, at' + 4 ≤ 12 → readU32 (slice bytes (UInt32.toNat 0) 12) at' = word →
        slice bytes at' 4 = le32 word := by
      rintro at' _ hle rfl
      have hlength : (slice bytes (UInt32.toNat 0) 12).length = 12 := length_slice hbounds
      rw [le32_readU32 (by rw [hlength]; exact hle)]
      refine Eq.trans ?_ (@slice_slice _ bytes _ _ _ _ hle).symm
      rw [show UInt32.toNat 0 = 0 from rfl, Nat.zero_add]
    have halign : (bits / 8 * channels).toNat = bits.toNat / 8 * channels.toNat ∧
        (bits / 8 * channels).toUInt32.toNat = (bits / 8 * channels).toNat := by
      rcases hplays with ⟨rfl, rfl⟩ | ⟨rfl, rfl | rfl⟩ <;> exact ⟨rfl, rfl⟩
    exact {
      riff := by
        refine ⟨htake 0 _ (by decide) hriff, htake 8 _ (by decide) hwave, ?_⟩
        rw [← hsize, slice, readU32_take (by decide)]
        rfl
      inside := by
        show parsed.offset.toNat + parsed.bytes.toNat ≤ _
        omega
      chunks := by
        refine ⟨all, fmt, data, hall, hfmt, hlong fmt ?_, ?_, hplaced, ?_⟩
        · rw [hfmt]
          exact List.mem_singleton_self fmt
        · rw [hunpack, hfields]
        · have hplace : 12 + (parsed.offset.toNat - 12) = parsed.offset.toNat := by omega
          rw [hpayload, slice_slice (by omega), hplace]
      nonempty := toNat_pos32 hbytes
      format := hplays
      width := rfl
      align := halign.1
      whole := by
        have := congrArg UInt32.toNat hwhole
        rw [UInt32.toNat_mod, halign.2] at this
        exact this }

/-- **WAV validation is safe.** The scan stops, within the file's size, at the end or at a refusal,
its cursor rising with each pass; no sum or difference wraps; nothing is asked for outside the file,
and nothing not asked for matters; and what is accepted is a well-formed file. -/
theorem validatePcmWav_safe (reader : WavReader) (before : WavPayload) (channels bits : UInt16) :
    (∀ n state payload format, Scan reader before n state payload format →
      state.end = reader.fileSize ∧ 12 + 8 * n ≤ state.cursor.toNat ∧
      (∀ bytes, NoWrap state bytes) ∧
      ∀ chunk after, readChunk reader state = .ok (chunk, after) →
        state.cursor < chunk.next ∧ chunk.next ≤ state.end) ∧
    ((∃ error, readRiffHeader reader = .error error ∧ parseRiff reader before = .error error) ∨
      ∃ n state payload format, Scan reader before n state payload format ∧
        Stops reader state payload format (parseRiff reader before)) ∧
    (∀ header, wavReadExact reader 0 12 = .ok header → readU32 header 4 ≤ 4294967287 →
      (readU32 header 4 + 8).toNat = (readU32 header 4).toNat + 8) ∧
    (∀ offset count, Asked reader before offset count →
      offset.toNat + count ≤ reader.fileSize.toNat) ∧
    (∀ other, SameAnswers reader other before →
      validatePcmWav other before channels bits = validatePcmWav reader before channels bits) ∧
    ∀ bytes payload, reader.Serves bytes →
      validatePcmWav reader before channels bits = .ok payload →
        Accepted reader.fileSize.toNat bytes channels bits payload := by
  refine ⟨?_, ?_, ?_, fun _ _ h => h.inside, fun _ h => h.validate channels bits,
    fun _ _ hserves h => accepted hserves h⟩
  · intro n state payload format hscan
    obtain ⟨hend, hleast, hle, -⟩ := hscan.bounds
    refine ⟨hend, hleast, noWrap hle, fun chunk after hread => ?_⟩
    obtain ⟨header, hchunk⟩ := readChunk_ok hle hread
    have hnext := hchunk.next
    rw [UInt32.lt_iff_toNat_lt, UInt32.le_iff_toNat_le]
    exact ⟨by omega, hchunk.fits⟩
  · unfold parseRiff
    cases hheader : readRiffHeader reader with
    | error error => exact .inl ⟨error, rfl, rfl⟩
    | ok state => exact .inr (Scan.stops (.start hheader))
  · intro header _ hlimit
    have h8 : (8 : UInt32).toNat = 8 := rfl
    have hmost : (readU32 header 4).toNat ≤ 4294967287 := UInt32.le_iff_toNat_le.mp hlimit
    exact toNat_add32 (by rw [h8]; omega)

end

end WaveformGenerator.Artifact
