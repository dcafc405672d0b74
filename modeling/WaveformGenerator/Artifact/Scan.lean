import WaveformGenerator.Artifact.Wav
import WaveformGenerator.Lib.Riff

/-!
# The chunk scan of the validator

The states the scan reaches, one pass after another: the cursor rises with each pass and stays
within the file, no sum or difference of 32 bits wraps, and every read is asked for inside the file.
-/

namespace WaveformGenerator.Artifact

open Riff (padded)

theorem and_one_toNat32 (n : UInt32) : (n &&& 1).toNat = n.toNat % 2 := by
  rw [UInt32.toNat_and]
  exact Nat.and_one_is_mod _

/-! ## One pass -/

/-- The sums and differences of a pass at `state`, in the order they are taken, are those of the
numbers, whatever length the chunk's header gives. Each is under the checks before it. -/
structure NoWrap (state : RiffState) (bytes : UInt32) : Prop where
  left : state.cursor.toNat ≤ state.end.toNat
  offset : 8 ≤ state.end - state.cursor →
    (state.cursor + 8).toNat = state.cursor.toNat + 8 ∧ state.cursor.toNat + 8 ≤ state.end.toNat
  padding : 8 ≤ state.end - state.cursor → bytes ≤ state.end - (state.cursor + 8) →
    (bytes + (bytes &&& 1)).toNat = padded bytes.toNat
  next : 8 ≤ state.end - state.cursor → bytes ≤ state.end - (state.cursor + 8) →
    bytes + (bytes &&& 1) ≤ state.end - (state.cursor + 8) →
    (state.cursor + 8 + (bytes + (bytes &&& 1))).toNat =
      state.cursor.toNat + 8 + padded bytes.toNat
  counted : state.headerBytes ≤ wavHeaderByteLimit - 8 →
    (state.headerBytes + 8).toNat = state.headerBytes.toNat + 8 ∧
      state.headerBytes.toNat + 8 ≤ wavHeaderByteLimit.toNat
  skipped : state.headerBytes ≤ wavHeaderByteLimit - 8 →
    bytes + (bytes &&& 1) ≤ wavHeaderByteLimit - (state.headerBytes + 8) →
    (state.headerBytes + 8 + (bytes + (bytes &&& 1))).toNat =
      state.headerBytes.toNat + 8 + (bytes + (bytes &&& 1)).toNat

section
variable {reader : WavReader} {state after : RiffState} {chunk : Chunk}

theorem toNat_left (hcursor : state.cursor.toNat ≤ state.end.toNat) :
    (state.end - state.cursor).toNat = state.end.toNat - state.cursor.toNat :=
  UInt32.toNat_sub_of_le _ _ (UInt32.le_iff_toNat_le.mpr hcursor)

theorem offset_toNat (hcursor : state.cursor.toNat ≤ state.end.toNat)
    (hroom : 8 ≤ state.end - state.cursor) :
    (state.cursor + 8).toNat = state.cursor.toNat + 8 ∧
      state.cursor.toNat + 8 ≤ state.end.toNat := by
  have h8 : (8 : UInt32).toNat = 8 := rfl
  have hend := state.end.toNat_lt
  rw [UInt32.le_iff_toNat_le, toNat_left hcursor, h8] at hroom
  exact ⟨toNat_add32 (by rw [h8]; omega), by omega⟩

theorem rest_toNat (hcursor : state.cursor.toNat ≤ state.end.toNat)
    (hroom : 8 ≤ state.end - state.cursor) :
    (state.end - (state.cursor + 8)).toNat = state.end.toNat - (state.cursor.toNat + 8) := by
  obtain ⟨hoffset, hfits⟩ := offset_toNat hcursor hroom
  rw [UInt32.toNat_sub_of_le _ _ (by rw [UInt32.le_iff_toNat_le, hoffset]; exact hfits), hoffset]

theorem padding_toNat {bytes limit : UInt32} (hbytes : bytes ≤ limit)
    (hlimit : limit.toNat + 1 < 2 ^ 32) :
    (bytes + (bytes &&& 1)).toNat = padded bytes.toNat := by
  rw [UInt32.le_iff_toNat_le] at hbytes
  rw [toNat_add32 (by rw [and_one_toNat32]; omega), and_one_toNat32]
  rfl

theorem noWrap (hcursor : state.cursor.toNat ≤ state.end.toNat) (bytes : UInt32) :
    NoWrap state bytes := by
  have h8 : (8 : UInt32).toNat = 8 := rfl
  have hlast : (wavHeaderByteLimit - 8).toNat = 65528 := rfl
  have hlimit : wavHeaderByteLimit.toNat = 65536 := rfl
  have hend := state.end.toNat_lt
  have hcounted : state.headerBytes ≤ wavHeaderByteLimit - 8 →
      (state.headerBytes + 8).toNat = state.headerBytes.toNat + 8 ∧
        state.headerBytes.toNat + 8 ≤ wavHeaderByteLimit.toNat := by
    intro h
    rw [UInt32.le_iff_toNat_le, hlast] at h
    exact ⟨toNat_add32 (by rw [h8]; omega), by rw [hlimit]; omega⟩
  have hpadding : 8 ≤ state.end - state.cursor → bytes ≤ state.end - (state.cursor + 8) →
      (bytes + (bytes &&& 1)).toNat = padded bytes.toNat := fun hroom hbytes =>
    padding_toNat hbytes (by rw [rest_toNat hcursor hroom]; omega)
  refine ⟨hcursor, offset_toNat hcursor, hpadding, ?_, hcounted, ?_⟩
  · intro hroom hbytes hfits
    obtain ⟨hoffset, hle⟩ := offset_toNat hcursor hroom
    rw [UInt32.le_iff_toNat_le, rest_toNat hcursor hroom] at hfits
    rw [toNat_add32 (by rw [hoffset]; omega), hoffset, hpadding hroom hbytes]
  · intro hroom hfits
    obtain ⟨hheader, hle⟩ := hcounted hroom
    have hsub : (wavHeaderByteLimit - (state.headerBytes + 8)).toNat =
        65536 - (state.headerBytes.toNat + 8) := by
      rw [UInt32.toNat_sub_of_le _ _ (by rw [UInt32.le_iff_toNat_le, hheader]; exact hle), hheader,
        hlimit]
    rw [UInt32.le_iff_toNat_le, hsub] at hfits
    rw [toNat_add32 (by rw [hheader]; omega), hheader]

/-- What a pass reads, when it reads a chunk. -/
structure ReadChunk (reader : WavReader) (state : RiffState) (chunk : Chunk) (after : RiffState)
    (header : List UInt8) : Prop where
  read : wavReadExact reader state.cursor 8 = .ok header
  id : chunk.id = readU32 header 0
  bytes : chunk.bytes = readU32 header 4
  offset : chunk.offset.toNat = state.cursor.toNat + 8
  next : chunk.next.toNat = state.cursor.toNat + 8 + padded chunk.bytes.toNat
  fits : chunk.next.toNat ≤ state.end.toNat
  «end» : after.end = state.end
  headerBytes : after.headerBytes.toNat = state.headerBytes.toNat + 8 +
    if chunk.id = wavFourcc 'd' 'a' 't' 'a' then 0 else padded chunk.bytes.toNat
  limit : after.headerBytes.toNat ≤ wavHeaderByteLimit.toNat

theorem readChunk_ok (hcursor : state.cursor.toNat ≤ state.end.toNat)
    (h : readChunk reader state = .ok (chunk, after)) :
    ∃ header, ReadChunk reader state chunk after header := by
  unfold readChunk at h
  simp only [Bool.or_eq_true, decide_eq_true_eq] at h
  split at h
  · cases h
  case isFalse hroom =>
    obtain ⟨hroom, hcounted⟩ := not_or.mp hroom
    rw [UInt32.not_lt] at hroom hcounted
    split at h
    · cases h
    case h_2 header hread =>
      have hwrap := noWrap hcursor (readU32 header 4)
      obtain ⟨hoffset, -⟩ := hwrap.offset hroom
      obtain ⟨hheader, hlimit⟩ := hwrap.counted hcounted
      split at h
      · cases h
      case isFalse hbytes =>
        rw [UInt32.not_lt] at hbytes
        split at h
        · cases h
        case isFalse hpadded =>
          obtain ⟨-, hpadded⟩ := not_or.mp hpadded
          rw [UInt32.not_lt] at hpadded
          have hnext := hwrap.next hroom hbytes hpadded
          have hfits : state.cursor.toNat + 8 + padded (readU32 header 4).toNat ≤
              state.end.toNat := by
            rw [UInt32.le_iff_toNat_le, rest_toNat hcursor hroom,
              hwrap.padding hroom hbytes] at hpadded
            have := (hwrap.offset hroom).2
            omega
          refine ⟨header, ?_⟩
          split at h
          · rename_i hid
            split at h
            · cases h
            · rename_i hskip
              rw [UInt32.not_lt] at hskip
              have hskipped := hwrap.skipped hcounted hskip
              rw [hwrap.padding hroom hbytes] at hskipped
              cases h
              refine ⟨hread, rfl, rfl, hoffset, hnext, hnext ▸ hfits, rfl, ?_, ?_⟩
              · rw [if_neg hid]
                exact hskipped
              · rw [UInt32.le_iff_toNat_le, hwrap.padding hroom hbytes,
                  UInt32.toNat_sub_of_le _ _
                    (by rw [UInt32.le_iff_toNat_le, hheader]; exact hlimit), hheader] at hskip
                show (state.headerBytes + 8 + _).toNat ≤ _
                rw [hskipped]
                omega
          · rename_i hid
            cases h
            refine ⟨hread, rfl, rfl, hoffset, hnext, hnext ▸ hfits, rfl, ?_, ?_⟩
            · rw [if_pos (not_not.mp hid)]
              exact hheader
            · show (state.headerBytes + 8).toNat ≤ _
              rw [hheader]
              exact hlimit

end

/-! ## The states of a scan -/

/-- The states at the head of the loop of `parse_riff`, and how many passes came before. -/
inductive Scan (reader : WavReader) (before : WavPayload) :
    Nat → RiffState → WavPayload → Format → Prop
  | start {state} : readRiffHeader reader = .ok state → Scan reader before 0 state before {}
  | pass {n state payload format chunk after payload' format'} :
    Scan reader before n state payload format → state.cursor < state.end →
    readChunk reader state = .ok (chunk, after) →
    takeChunk reader chunk payload format = .ok (payload', format') →
    Scan reader before (n + 1) { after with cursor := chunk.next } payload' format'

/-- The bytes that the validator asks for. -/
inductive Asked (reader : WavReader) (before : WavPayload) : UInt32 → Nat → Prop
  | header : 12 ≤ reader.fileSize → Asked reader before 0 12
  | chunk {n state payload format} : Scan reader before n state payload format →
    state.cursor < state.end → 8 ≤ state.end - state.cursor →
    state.headerBytes ≤ wavHeaderByteLimit - 8 → Asked reader before state.cursor 8
  | format {n state payload format chunk after} : Scan reader before n state payload format →
    state.cursor < state.end → readChunk reader state = .ok (chunk, after) →
    chunk.id = wavFourcc 'f' 'm' 't' ' ' → format.haveFormat = false → 16 ≤ chunk.bytes →
    Asked reader before chunk.offset 16

section
variable {reader : WavReader} {before payload : WavPayload} {state : RiffState} {format : Format}
  {n : Nat}

/-- The header's length is the file's. -/
theorem readRiffHeader_ok (h : readRiffHeader reader = .ok state) :
    12 ≤ reader.fileSize.toNat ∧ state = { «end» := reader.fileSize } ∧
      ∃ header, wavReadExact reader 0 12 = .ok header ∧
        readU32 header 0 = wavFourcc 'R' 'I' 'F' 'F' ∧
        readU32 header 8 = wavFourcc 'W' 'A' 'V' 'E' ∧
        (readU32 header 4).toNat + 8 = reader.fileSize.toNat := by
  have h8 : (8 : UInt32).toNat = 8 := rfl
  unfold readRiffHeader at h
  split at h
  · cases h
  case isFalse htwelve =>
    rw [UInt32.lt_iff_toNat_lt, Nat.not_lt] at htwelve
    split at h
    · cases h
    case h_2 header hread =>
      dsimp only at h
      split at h
      · cases h
      case isFalse hfields =>
        simp only [Bool.or_eq_true, decide_eq_true_eq, not_or, not_not, UInt32.not_lt] at hfields
        obtain ⟨⟨⟨⟨hriff, hwave⟩, hleast⟩, hlimit⟩, hsize⟩ := hfields
        have hsum : (readU32 header 4 + 8).toNat = (readU32 header 4).toNat + 8 := by
          have hmost : (readU32 header 4).toNat ≤ 4294967287 := UInt32.le_iff_toNat_le.mp hlimit
          exact toNat_add32 (by rw [h8]; omega)
        cases h
        exact ⟨htwelve, by rw [hsize], header, hread, hriff, hwave, by rw [← hsum, hsize]⟩

/-- Each pass leaves the end where it is and takes the cursor on by eight bytes at least. -/
theorem Scan.bounds (h : Scan reader before n state payload format) :
    state.end = reader.fileSize ∧ 12 + 8 * n ≤ state.cursor.toNat ∧
      state.cursor.toNat ≤ state.end.toNat ∧
      state.headerBytes.toNat ≤ wavHeaderByteLimit.toNat := by
  induction h with
  | start h =>
    obtain ⟨hsize, rfl, -⟩ := readRiffHeader_ok h
    exact ⟨rfl, Nat.le_refl _, hsize, (by decide : (12 : UInt32).toNat ≤ _)⟩
  | pass _ hcursor hread _ ih =>
    obtain ⟨hend, hleast, hle, -⟩ := ih
    obtain ⟨header, hchunk⟩ := readChunk_ok hle hread
    have hnext := hchunk.next
    refine ⟨hchunk.end.trans hend, ?_, ?_, hchunk.limit⟩
    · show _ ≤ (Chunk.next _).toNat
      omega
    · show (Chunk.next _).toNat ≤ _
      rw [hchunk.end]
      exact hchunk.fits

theorem Asked.inside {offset : UInt32} {count : Nat} (h : Asked reader before offset count) :
    offset.toNat + count ≤ reader.fileSize.toNat := by
  cases h with
  | header h => exact UInt32.le_iff_toNat_le.mp h
  | chunk hscan _ hroom _ =>
    obtain ⟨hend, -, hle, -⟩ := hscan.bounds
    rw [← hend]
    exact (offset_toNat hle hroom).2
  | format hscan _ hread _ _ hbytes =>
    obtain ⟨hend, -, hle, -⟩ := hscan.bounds
    obtain ⟨header, hchunk⟩ := readChunk_ok hle hread
    have hoffset := hchunk.offset
    have hnext := hchunk.next
    have hfits := hchunk.fits
    have hlong : 16 ≤ (Chunk.bytes _).toNat := UInt32.le_iff_toNat_le.mp hbytes
    unfold padded at hnext
    rw [← hend]
    omega

/-- Where a scan stops: at the end, or at a pass that refuses the file. -/
def Stops (reader : WavReader) (state : RiffState) (payload : WavPayload) (format : Format)
    (result : Except WavValidationError (WavPayload × Format)) : Prop :=
  (state.cursor = state.end ∧ result = .ok (payload, format)) ∨
    state.cursor < state.end ∧ ∃ error, result = .error error ∧
      (readChunk reader state = .error error ∨ ∃ chunk after,
        readChunk reader state = .ok (chunk, after) ∧
          takeChunk reader chunk payload format = .error error)

theorem Scan.stops (h : Scan reader before n state payload format) :
    ∃ n' state' payload' format', Scan reader before n' state' payload' format' ∧
      Stops reader state' payload' format' (walkChunks reader state payload format) := by
  induction state, payload, format using walkChunks.induct reader generalizing n with
  | case1 state payload format hcursor error hread =>
    exact ⟨n, state, payload, format, h,
      .inr ⟨hcursor, error, walkChunks_refused hcursor hread .., .inl hread⟩⟩
  | case2 state payload format hcursor chunk after hread error htake =>
    exact ⟨n, state, payload, format, h, .inr ⟨hcursor, error,
      walkChunks_untaken hcursor hread htake, .inr ⟨chunk, after, hread, htake⟩⟩⟩
  | case3 state payload format hcursor chunk after hread payload' format' htake ih =>
    rw [walkChunks_step hcursor hread htake]
    exact ih (h.pass hcursor hread htake)
  | case4 state payload format hcursor =>
    obtain ⟨-, -, hle, -⟩ := h.bounds
    refine ⟨n, state, payload, format, h, .inl ⟨?_, walkChunks_end hcursor ..⟩⟩
    exact UInt32.le_antisymm (UInt32.le_iff_toNat_le.mpr hle) (UInt32.not_lt.mp hcursor)

end

/-! ## What the validator reads -/

section
variable {reader other : WavReader} {before : WavPayload}

/-- `other` answers what the validator asks of `reader` as `reader` does. -/
structure SameAnswers (reader other : WavReader) (before : WavPayload) : Prop where
  fileSize : other.fileSize = reader.fileSize
  answers : ∀ offset count, Asked reader before offset count →
    wavReadExact other offset count = wavReadExact reader offset count

theorem SameAnswers.readChunk (h : SameAnswers reader other before) {n : Nat} {state : RiffState}
    {payload : WavPayload} {format : Format} (hscan : Scan reader before n state payload format)
    (hcursor : state.cursor < state.end) :
    Artifact.readChunk other state = Artifact.readChunk reader state := by
  unfold Artifact.readChunk
  by_cases hroom : (state.end - state.cursor < 8 ||
      state.headerBytes > wavHeaderByteLimit - 8) = true
  · rw [if_pos hroom, if_pos hroom]
  · rw [if_neg hroom, if_neg hroom]
    rw [Bool.or_eq_true, decide_eq_true_eq, decide_eq_true_eq, not_or, UInt32.not_lt,
      gt_iff_lt, UInt32.not_lt] at hroom
    rw [h.answers _ _ (.chunk hscan hcursor hroom.1 hroom.2)]

theorem SameAnswers.takeChunk (h : SameAnswers reader other before) {n : Nat} {state after}
    {payload : WavPayload} {format : Format} (hscan : Scan reader before n state payload format)
    (hcursor : state.cursor < state.end) {chunk : Chunk}
    (hread : Artifact.readChunk reader state = .ok (chunk, after)) :
    Artifact.takeChunk other chunk payload format =
      Artifact.takeChunk reader chunk payload format := by
  unfold Artifact.takeChunk
  by_cases hid : chunk.id = wavFourcc 'f' 'm' 't' ' '
  · rw [if_pos hid, if_pos hid]
    unfold readFormat
    cases hfound : format.haveFormat with
    | true => rfl
    | false =>
      by_cases hshort : chunk.bytes < 16
      · rw [if_pos hshort, if_pos hshort]
      · rw [if_neg hshort, if_neg hshort,
          h.answers _ _ (.format hscan hcursor hread hid hfound (UInt32.not_lt.mp hshort))]
  · rw [if_neg hid, if_neg hid]

theorem SameAnswers.walkChunks (h : SameAnswers reader other before) {n : Nat} {state : RiffState}
    {payload : WavPayload} {format : Format} (hscan : Scan reader before n state payload format) :
    Artifact.walkChunks other state payload format =
      Artifact.walkChunks reader state payload format := by
  induction state, payload, format using walkChunks.induct reader generalizing n with
  | case1 state payload format hcursor error hread =>
    rw [walkChunks_refused hcursor hread,
      walkChunks_refused hcursor ((h.readChunk hscan hcursor).trans hread)]
  | case2 state payload format hcursor chunk after hread error htake =>
    rw [walkChunks_untaken hcursor hread htake, walkChunks_untaken hcursor
      ((h.readChunk hscan hcursor).trans hread) ((h.takeChunk hscan hcursor hread).trans htake)]
  | case3 state payload format hcursor chunk after hread payload' format' htake ih =>
    rw [walkChunks_step hcursor hread htake, walkChunks_step hcursor
      ((h.readChunk hscan hcursor).trans hread) ((h.takeChunk hscan hcursor hread).trans htake)]
    exact ih (hscan.pass hcursor hread htake)
  | case4 state payload format hcursor =>
    rw [walkChunks_end hcursor, walkChunks_end hcursor]

/-- The result depends on the bytes asked for and on no others. -/
theorem SameAnswers.validate (h : SameAnswers reader other before) (channels bits : UInt16) :
    validatePcmWav other before channels bits = validatePcmWav reader before channels bits := by
  have hheader : readRiffHeader other = readRiffHeader reader := by
    unfold readRiffHeader
    rw [h.fileSize]
    by_cases hshort : reader.fileSize < 12
    · rw [if_pos hshort, if_pos hshort]
    · rw [if_neg hshort, if_neg hshort, h.answers _ _ (.header (UInt32.not_lt.mp hshort))]
  have hparse : parseRiff other before = parseRiff reader before := by
    unfold parseRiff
    rw [hheader]
    cases hstart : readRiffHeader reader with
    | error error => rfl
    | ok state => exact h.walkChunks (.start hstart)
  unfold validatePcmWav
  rw [hparse]

end
end WaveformGenerator.Artifact
