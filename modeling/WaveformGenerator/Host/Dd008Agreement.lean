import WaveformGenerator.Dd008.RoundTrip
import WaveformGenerator.Host.Dd008

/-!
# The two DD-008 codecs

The host's checksum, stuffing and parsing are the firmware's, as long as the build's payloads are
none that the host refuses.
-/

namespace WaveformGenerator.Host.Dd008

open WaveformGenerator.Dd008 (CdcMuxConfig CdcMuxFrameView Wrote admits_of_encodeFrame cdcMuxCrc32c
  cdcMuxCrcSize cdcMuxHeaderSize closed_flatMap_wireOf cobsDecode_loads decode_packetOf decodedFrame
  eq_decodedFrame_of_parseFrame frameBody length_decodedFrame length_frameBody length_packetOf_le
  packetOf packetOf_ne_nil readU16_decodedFrame readU32_sequence wireOf)

/-! ## CRC-32C -/

theorem low32_of_lt {n : Nat} (h : n < 2 ^ 32) : low32 n = n := by
  rw [low32]
  omega

theorem toNat_crc32cBit (crc : UInt32) :
    crc32cBit crc.toNat = (WaveformGenerator.Dd008.crc32cBit crc).toNat := by
  have hbit : (crc &&& 1).toNat = crc.toNat % 2 := by
    rw [UInt32.toNat_and]
    exact Nat.and_two_pow_sub_one_eq_mod _ 1
  have hmask : low32 (-(crc.toNat &&& 1 : Nat)) = (0 - (crc &&& 1)).toNat := by
    rw [UInt32.toNat_sub, hbit, show crc.toNat &&& 1 = crc.toNat % 2 from
      Nat.and_two_pow_sub_one_eq_mod _ 1, low32, UInt32.toNat_zero]
    omega
  have hshift : crc.toNat >>> 1 = (crc >>> 1).toNat := by simp
  have hword : (crc.toNat >>> 1) ^^^ (0x82F63B78 &&& (0 - (crc &&& 1)).toNat) =
      (WaveformGenerator.Dd008.crc32cBit crc).toNat := by
    rw [WaveformGenerator.Dd008.crc32cBit, UInt32.toNat_xor, UInt32.toNat_and, hshift]
    rfl
  rw [crc32cBit, hmask, hword]
  exact low32_of_lt (UInt32.toNat_lt _)

theorem toNat_crc32cByte (crc : UInt32) (value : UInt8) :
    crc32cByte crc.toNat value = (WaveformGenerator.Dd008.crc32cByte crc value).toNat := by
  have hxor : crc.toNat ^^^ value.toNat = (crc ^^^ value.toUInt32).toNat := by simp
  have hbits : ∀ n (word : UInt32), Nat.repeat crc32cBit n word.toNat =
      (Nat.repeat WaveformGenerator.Dd008.crc32cBit n word).toNat := by
    intro n word
    induction n with
    | zero => rfl
    | succ n ih => rw [Nat.repeat, Nat.repeat, ih, toNat_crc32cBit]
  rw [crc32cByte, hxor, hbits]
  rfl

/-- The host's checksum is the firmware's. -/
theorem crc32c_eq (bytes : List UInt8) :
    crc32c bytes = (cdcMuxCrc32c bytes).toNat := by
  have hfold : ∀ (crc : UInt32), bytes.foldl crc32cByte crc.toNat =
      (bytes.foldl WaveformGenerator.Dd008.crc32cByte crc).toNat := by
    induction bytes with
    | nil => exact fun _ => rfl
    | cons byte bytes ih =>
      intro crc
      rw [List.foldl_cons, List.foldl_cons, toNat_crc32cByte, ih]
  rw [crc32c, cdcMuxCrc32c, UInt32.toNat_xor, ← hfold]
  rfl

/-! ## Stuffing -/

/-- The loop with blocks closed, a place for the next code and an open run behind it. -/
theorem foldl_push (payload closed run : List UInt8) (hrun : run.length < Cobs.maximumRun) :
    (payload.foldl Stuffing.push
      { output := closed ++ 0 :: run, codeIndex := closed.length, code := run.length + 1 }).setCode =
        closed ++ Cobs.stuff run payload := by
  induction payload generalizing closed run with
  | nil => simp [Stuffing.setCode, Cobs.stuff, Cobs.block]
  | cons value payload ih =>
    -- closing the block of a run leaves a place for the next code
    have hclose (run : List UInt8) : Stuffing.closeBlock
        { output := closed ++ 0 :: run, codeIndex := closed.length, code := run.length + 1 } =
          { output := (closed ++ Cobs.block run) ++ 0 :: [],
            codeIndex := (closed ++ Cobs.block run).length, code := ([] : List UInt8).length + 1 } := by
      simp [Stuffing.closeBlock, Stuffing.setCode, Cobs.block]
    rw [List.foldl_cons, Stuffing.push, Cobs.stuff]
    by_cases hvalue : value = 0
    · rw [if_pos hvalue, if_pos hvalue, hclose, ih _ _ (by decide), List.append_assoc]
    · rw [if_neg hvalue, if_neg hvalue]
      have hpush : Stuffing.mk ((closed ++ 0 :: run) ++ [value]) closed.length
          (run.length + 1 + 1) = Stuffing.mk (closed ++ 0 :: (run ++ [value])) closed.length
            ((run ++ [value]).length + 1) := by
        simp
      simp only [hpush]
      by_cases hfull : run.length + 1 = Cobs.maximumRun
      · rw [if_pos hfull, if_pos (by simp [hfull, Cobs.maximumRun]), hclose, ih _ _ (by decide),
          List.append_assoc]
      · rw [if_neg hfull, if_neg (by simp; unfold Cobs.maximumRun at hfull; omega)]
        exact ih closed (run ++ [value]) (by simp; omega)

/-- The host stuffs as the firmware does. -/
theorem cobsEncode_eq (payload : List UInt8) : cobsEncode payload = Cobs.encode payload :=
  foldl_push payload [] [] (by decide)

/-- The host unstuffs what decodes, and raises on everything else. -/
theorem cobsDecodeLoop_eq (packet output : List UInt8) :
    (∀ body, Cobs.decode packet = some body → cobsDecodeLoop output packet = .ok (output ++ body)) ∧
      (Cobs.decode packet = none → ∃ message,
        cobsDecodeLoop output packet = .error (.muxError message)) := by
  fun_induction cobsDecodeLoop output packet with
  | case1 output => simp
  | case2 output packet => simp [Cobs.decode]
  | case3 output code packet hcode count hshort =>
    have hnone : Cobs.decode (code :: packet) = none := by
      rw [Cobs.decode, if_pos (.inr hshort)]
    simp [hnone]
  | case4 output code packet hcode count hshort output' packet' ih =>
    simp only [dite_eq_ite] at ih
    have hdecode : Cobs.decode (code :: packet) = (Cobs.decode packet').map fun body =>
        packet.take count ++ if code ≠ 255 ∧ packet' ≠ [] then 0 :: body else body := by
      rw [Cobs.decode, if_neg (not_or.mpr ⟨hcode, hshort⟩)]
    constructor
    · intro body hbody
      rw [hdecode, Option.map_eq_some_iff] at hbody
      obtain ⟨tail, htail, rfl⟩ := hbody
      rw [ih.1 tail htail]
      split <;> simp [output', *]
    · intro hnone
      rw [hdecode, Option.map_eq_none_iff] at hnone
      exact ih.2 hnone

theorem cobsDecode_of_some {packet body : List UInt8} (h : Cobs.decode packet = some body) :
    cobsDecode packet = .ok body :=
  (cobsDecodeLoop_eq packet []).1 body h

/-! ## Frames -/

/-- A firmware frame as the host reads it. -/
def Frame.ofView (frame : CdcMuxFrameView) : Frame where
  frameType := frame.type.value.toNat
  channel := frame.channel.value.toNat
  sequence := frame.sequence.toNat
  payload := frame.payload

theorem pack_of_lt {width n : Nat} (h : n < 256 ^ width) : pack width n = .ok (le width n) :=
  if_pos h

theorem le_one (byte : UInt8) : le 1 byte.toNat = [byte] := by simp [le]

/-- The host encodes an admitted frame as the firmware does. -/
theorem encodeFrame_eq {config : CdcMuxConfig} {frame : CdcMuxFrameView} (h : config.Admits frame)
    (hsize : frame.payload.length ≤ maxPayload) :
    encodeFrame frame.type.value.toNat frame.channel.value.toNat frame.sequence.toNat
      frame.payload = .ok (wireOf frame) := by
  have hlength : frame.payload.length < 2 ^ 16 :=
    Nat.lt_of_le_of_lt (Nat.le_trans h.2.2.2 config.most) (by decide)
  have hheader : magic ++ le 1 version ++ le 1 frame.type.value.toNat ++
      le 1 frame.channel.value.toNat ++ le 1 0 ++ le 2 frame.payload.length ++
        le 4 frame.sequence.toNat ++ frame.payload = frameBody frame := by
    rw [le_one, le_one, ← le32_eq, ← UInt16.toNat_ofNat_of_lt' hlength, ← le16_eq]
    rfl
  have hcrc : crc32c (frameBody frame) < 256 ^ 4 := by
    rw [crc32c_eq]
    exact UInt32.toNat_lt _
  rw [encodeFrame, if_neg (Nat.not_lt.mpr hsize), pack_of_lt (by decide),
    pack_of_lt frame.type.value.toNat_lt, pack_of_lt frame.channel.value.toNat_lt,
    pack_of_lt (by decide), pack_of_lt hlength, pack_of_lt frame.sequence.toNat_lt]
  simp only [Except.bind, bind, hheader, pack_of_lt hcrc]
  rw [crc32c_eq, ← le32_eq, cobsEncode_eq]
  rfl

/-- The host reads what the firmware wrote of a frame. -/
theorem parseFrame_decodedFrame {config : CdcMuxConfig} {frame : CdcMuxFrameView}
    (h : config.Admits frame) (hsize : frame.payload.length ≤ maxPayload) :
    parseFrame (decodedFrame frame) = .ok (.ofView frame) := by
  have hlength : (decodedFrame frame).length = 12 + frame.payload.length + 4 :=
    length_decodedFrame frame
  have hbodyLength : (frameBody frame).length = 12 + frame.payload.length :=
    length_frameBody frame
  have hsizeField : ofLe (((decodedFrame frame).drop 6).take 2) = frame.payload.length := by
    rw [← toNat_readU16 (by omega), readU16_decodedFrame h]
  have hsequence : ofLe (((decodedFrame frame).drop 8).take 4) = frame.sequence.toNat := by
    rw [← toNat_readU32 (by omega), readU32_sequence]
  have hbody : (decodedFrame frame).take ((decodedFrame frame).length - 4) = frameBody frame := by
    rw [hlength, Nat.add_sub_cancel, decodedFrame]
    exact List.take_left' hbodyLength
  have hcrc : (decodedFrame frame).drop ((decodedFrame frame).length - 4) =
      le32 (cdcMuxCrc32c (frameBody frame)) := by
    rw [hlength, Nat.add_sub_cancel, decodedFrame]
    exact List.drop_left' hbodyLength
  have hpayload : (frameBody frame).drop 12 = frame.payload := List.drop_left' rfl
  have hmagic : (decodedFrame frame).take 2 = magic := rfl
  have hversion : ofLe (((decodedFrame frame).drop 2).take 1) = version := rfl
  have hflags : ofLe (((decodedFrame frame).drop 5).take 1) = 0 := rfl
  have htype : ofLe (((decodedFrame frame).drop 3).take 1) = frame.type.value.toNat := rfl
  have hchannel : ofLe (((decodedFrame frame).drop 4).take 1) = frame.channel.value.toNat := rfl
  have hcrcField : ofLe (le32 (cdcMuxCrc32c (frameBody frame))) =
      crc32c (frameBody frame) := by
    rw [le32_eq, ofLe_le (UInt32.toNat_lt _), crc32c_eq]
  rw [parseFrame, if_neg (by omega)]
  simp only [hmagic, hversion, hflags, hsizeField, hbody, hcrc, hcrcField]
  rw [if_neg (by simp), if_neg (by simp), if_neg (by simp), if_neg (by omega), if_neg (by simp),
    htype, hchannel, hsequence, hpayload]
  rfl

theorem decodeFrame_packetOf {config : CdcMuxConfig} {frame : CdcMuxFrameView}
    (h : config.Admits frame) (hsize : frame.payload.length ≤ maxPayload) :
    decodeFrame (packetOf frame) = .ok (.ofView frame) := by
  rw [decodeFrame, cobsDecode_of_some (decode_packetOf frame)]
  exact parseFrame_decodedFrame h hsize

/-! ## The stream decoder -/

open Delimited

/-- A packet that `feed` decodes: one that is neither empty nor longer than its buffer. -/
def Kept (packet : List UInt8) : Prop := packet ≠ [] ∧ packet.length ≤ maxPacket

instance : DecidablePred Kept := fun _ => inferInstanceAs (Decidable (_ ∧ _))

/-- The packets of a stream that `feed` decodes. -/
def kept (packet stream : List UInt8) : List (List UInt8) :=
  (closed 0 packet stream).filter Kept

example : kept [1] [2, 0, 0, 3, 0, 4] = [[1, 2], [3]] := by decide +kernel

theorem kept_append (packet a b : List UInt8) :
    kept packet (a ++ b) = kept packet a ++ kept (opened 0 packet a) b := by
  rw [kept, closed_append, List.filter_append]
  rfl

/-- The decoder holds the open packet, or is discarding it since it grew too long. -/
def Follows (decoder : StreamDecoder) (packet : List UInt8) : Prop :=
  decoder = if packet.length ≤ maxPacket then { packet } else { discarding := true }

theorem kept_cons_ne {value : UInt8} (h : value ≠ 0) (packet stream : List UInt8) :
    kept packet (value :: stream) = kept (packet ++ [value]) stream := by
  rw [kept, closed, if_neg h]
  rfl

theorem kept_zero_of_kept {packet : List UInt8} (h : Kept packet) (stream : List UInt8) :
    kept packet (0 :: stream) = packet :: kept [] stream := by
  rw [kept, closed_delimiter, List.filter_cons_of_pos (by simpa using h)]
  rfl

theorem kept_zero_of_not_kept {packet : List UInt8} (h : ¬Kept packet) (stream : List UInt8) :
    kept packet (0 :: stream) = kept [] stream := by
  rw [kept, closed_delimiter, List.filter_cons_of_neg (by simpa using h)]
  rfl

section
variable {decoder : StreamDecoder} {packet : List UInt8}

theorem feedLoop_byte (h : Follows decoder packet) {value : UInt8} (hvalue : value ≠ 0) :
    ∃ decoder', Follows decoder' (packet ++ [value]) ∧ ∀ before stream,
      decoder.feedLoop before (value :: stream) = decoder'.feedLoop before stream := by
  have hlength : (packet ++ [value]).length = packet.length + 1 := by simp
  by_cases hlong : packet.length ≤ maxPacket
  · rw [Follows, if_pos hlong] at h
    subst h
    by_cases hfull : packet.length = maxPacket
    · refine ⟨{ discarding := true }, ?_, fun before stream => ?_⟩
      · rw [Follows, hlength, if_neg (by omega)]
      · rw [StreamDecoder.feedLoop, if_neg hvalue, if_neg (by simp), if_pos hfull]
    · refine ⟨{ packet := packet ++ [value] }, ?_, fun before stream => ?_⟩
      · rw [Follows, hlength, if_pos (by omega)]
      · rw [StreamDecoder.feedLoop, if_neg hvalue, if_neg (by simp), if_neg hfull]
  · rw [Follows, if_neg hlong] at h
    subst h
    refine ⟨{ discarding := true }, ?_, fun before stream => ?_⟩
    · rw [Follows, hlength, if_neg (by omega)]
    · rw [StreamDecoder.feedLoop, if_neg hvalue, if_pos rfl]

/-- The delimiter of a packet that is not kept only opens the next one. -/
theorem feedLoop_skip (h : Follows decoder packet) (hkept : ¬Kept packet) :
    ∃ decoder', Follows decoder' [] ∧ ∀ before stream,
      decoder.feedLoop before (0 :: stream) = decoder'.feedLoop before stream := by
  refine ⟨{}, rfl, fun before stream => ?_⟩
  by_cases hlong : packet.length ≤ maxPacket
  · have hnil : packet = [] := by
      by_contra hne
      exact hkept ⟨hne, hlong⟩
    subst hnil
    rw [Follows, if_pos hlong] at h
    subst h
    rw [StreamDecoder.feedLoop, if_pos rfl, if_neg (by simp), if_neg (by simp)]
  · rw [Follows, if_neg hlong] at h
    subst h
    rw [StreamDecoder.feedLoop, if_pos rfl, if_pos rfl]

theorem feedLoop_decode (h : Follows decoder packet) (hkept : Kept packet) {frame : Frame}
    (hframe : decodeFrame packet = .ok frame) :
    ∃ decoder', Follows decoder' [] ∧ ∀ before stream,
      decoder.feedLoop before (0 :: stream) = decoder'.feedLoop (before ++ [frame]) stream := by
  rw [Follows, if_pos hkept.2] at h
  subst h
  refine ⟨{}, rfl, fun before stream => ?_⟩
  rw [StreamDecoder.feedLoop, if_pos rfl, if_neg (by simp), if_pos hkept.1]
  simp only [hframe]

theorem feedLoop_raise (h : Follows decoder packet) (hkept : Kept packet) {error : HostError}
    (herror : decodeFrame packet = .error error) (before : List Frame) (stream : List UInt8) :
    decoder.feedLoop before (0 :: stream) = (.error error, decoder) := by
  rw [Follows, if_pos hkept.2] at h
  subst h
  rw [StreamDecoder.feedLoop, if_pos rfl, if_neg (by simp), if_pos hkept.1]
  simp only [herror]

/-- The frames that some packets decode to. -/
def Decode (packets : List (List UInt8)) (frames : List Frame) : Prop :=
  List.Forall₂ (fun body frame => decodeFrame body = .ok frame) packets frames

/-- A stream whose kept packets decode gives their frames. -/
theorem feedLoop_of_decode {stream : List UInt8} {frames : List Frame} (h : Follows decoder packet)
    (hframes : Decode (kept packet stream) frames) (before : List Frame) :
    ∃ decoder', Follows decoder' (opened 0 packet stream) ∧
      decoder.feedLoop before stream = (.ok (before ++ frames), decoder') := by
  induction stream generalizing packet decoder frames before with
  | nil =>
    cases hframes
    exact ⟨decoder, h, by rw [List.append_nil, StreamDecoder.feedLoop_nil]⟩
  | cons value stream ih =>
    by_cases hvalue : value = 0
    · subst hvalue
      rw [opened_delimiter]
      by_cases hkept : Kept packet
      · rw [kept_zero_of_kept hkept] at hframes
        cases hframes with
        | cons hframe hframes =>
          obtain ⟨decoder', hfollows, hstep⟩ := feedLoop_decode h hkept hframe
          obtain ⟨last, hlast, hrest⟩ := ih hfollows hframes (before ++ [_])
          rw [List.append_assoc, List.singleton_append] at hrest
          exact ⟨last, hlast, (hstep ..).trans hrest⟩
      · rw [kept_zero_of_not_kept hkept] at hframes
        obtain ⟨decoder', hfollows, hstep⟩ := feedLoop_skip h hkept
        rw [hstep]
        exact ih hfollows hframes before
    · rw [kept_cons_ne hvalue] at hframes
      obtain ⟨decoder', hfollows, hstep⟩ := feedLoop_byte h hvalue
      rw [hstep, opened, if_neg hvalue]
      exact ih hfollows hframes before

/-- A kept packet that does not decode raises, and the frames of the chunk are lost. -/
theorem feedLoop_of_malformed {stream body : List UInt8} {error : HostError}
    (h : Follows decoder packet) (hbody : body ∈ kept packet stream)
    (herror : decodeFrame body = .error error) (before : List Frame) :
    ∃ error decoder', decoder.feedLoop before stream = (.error error, decoder') := by
  induction stream generalizing packet decoder before with
  | nil => cases hbody
  | cons value stream ih =>
    by_cases hvalue : value = 0
    · subst hvalue
      by_cases hkept : Kept packet
      · rw [kept_zero_of_kept hkept] at hbody
        cases hdecode : decodeFrame packet with
        | error raised => exact ⟨raised, decoder, feedLoop_raise h hkept hdecode before stream⟩
        | ok frame =>
          obtain ⟨decoder', hfollows, hstep⟩ := feedLoop_decode h hkept hdecode
          rw [hstep]
          rcases List.mem_cons.mp hbody with rfl | hbody
          · rw [herror] at hdecode
            cases hdecode
          · exact ih hfollows hbody _
      · rw [kept_zero_of_not_kept hkept] at hbody
        obtain ⟨decoder', hfollows, hstep⟩ := feedLoop_skip h hkept
        rw [hstep]
        exact ih hfollows hbody before
    · rw [kept_cons_ne hvalue] at hbody
      obtain ⟨decoder', hfollows, hstep⟩ := feedLoop_byte h hvalue
      rw [hstep]
      exact ih hfollows hbody before

theorem Decode.append {a b : List (List UInt8)} {frames : List Frame}
    (h : Decode (a ++ b) frames) :
    ∃ front back, frames = front ++ back ∧ Decode a front ∧ Decode b back := by
  induction a generalizing frames with
  | nil => exact ⟨[], frames, rfl, .nil, h⟩
  | cons body a ih =>
    cases h with
    | cons hframe hrest =>
      obtain ⟨front, back, rfl, hfront, hback⟩ := ih hrest
      exact ⟨_ :: front, back, rfl, .cons hframe hfront, hback⟩

/-- Chunks whose kept packets decode give their frames, however the stream was cut. -/
theorem feedChunks_of_decode {chunks : List (List UInt8)} {frames : List Frame}
    (h : Follows decoder packet) (hframes : Decode (kept packet chunks.flatten) frames) :
    ∃ decoder', Follows decoder' (opened 0 packet chunks.flatten) ∧
      decoder.feedChunks chunks = (.ok frames, decoder') := by
  induction chunks generalizing packet decoder frames with
  | nil =>
    cases hframes
    exact ⟨decoder, h, rfl⟩
  | cons chunk chunks ih =>
    rw [List.flatten_cons, kept_append] at hframes
    obtain ⟨front, back, rfl, hfront, hback⟩ := hframes.append
    obtain ⟨mid, hmid, hchunk⟩ := feedLoop_of_decode h hfront []
    obtain ⟨decoder', hfollows, hrest⟩ := ih hmid hback
    refine ⟨decoder', by rwa [List.flatten_cons, opened_append], ?_⟩
    rw [StreamDecoder.feedChunks, StreamDecoder.feed, hchunk]
    simp only [hrest, List.nil_append]

end

/-! ## Agreement -/

/-- The firmware's codec in some build and the host's agree: the host writes the same bytes, reads
every packet that the firmware accepts as the firmware does, and decodes what the firmware wrote in
whatever chunks it arrives. -/
structure CodecsAgree (config : CdcMuxConfig) : Prop where
  encode : ∀ frame wire, WaveformGenerator.Dd008.encodeFrame config frame = .ok wire →
    encodeFrame frame.type.value.toNat frame.channel.value.toNat frame.sequence.toNat
      frame.payload = .ok wire
  decode : ∀ (packet : List UInt8) (before after : Buffer) size, (0 : UInt8) ∉ packet →
    before.overrun = false → before.size = config.maximumDecodedFrameSize →
      WaveformGenerator.Dd008.cobsDecode packet before = (.ok size, after) →
        (WaveformGenerator.Dd008.parseFrame config (after.bytes.take size)).valid →
          decodeFrame packet =
            .ok (.ofView (WaveformGenerator.Dd008.parseFrame config (after.bytes.take size)).frame)
  stream : ∀ frames (wires chunks : List (List UInt8)),
    Wrote config frames wires → chunks.flatten = wires.flatten →
      ∃ decoder, StreamDecoder.feedChunks {} chunks = (.ok (frames.map .ofView), decoder)

section
variable {config : CdcMuxConfig}

theorem length_le_of_admits (hsize : config.maximumPayloadSize ≤ maxPayload)
    {frame : CdcMuxFrameView} (h : config.Admits frame) : frame.payload.length ≤ maxPayload :=
  Nat.le_trans h.2.2.2 hsize

/-- The host keeps the packet of every frame that the firmware can write. -/
theorem kept_packetOf (hsize : config.maximumPayloadSize ≤ maxPayload) {frame : CdcMuxFrameView}
    (h : config.Admits frame) : Kept (packetOf frame) := by
  refine ⟨packetOf_ne_nil frame,
    Nat.le_trans (length_packetOf_le h) ?_⟩
  simp only [CdcMuxConfig.maximumCobsPacketSize, CdcMuxConfig.maximumDecodedFrameSize,
    cdcMuxHeaderSize, cdcMuxCrcSize, maxPayload,
    maxPacket] at hsize ⊢
  omega

theorem kept_of_closed (hsize : config.maximumPayloadSize ≤ maxPayload)
    {frames : List CdcMuxFrameView} (h : ∀ frame ∈ frames, config.Admits frame)
    {packet stream : List UInt8} (hclosed : closed 0 packet stream = frames.map packetOf) :
    kept packet stream = frames.map packetOf := by
  rw [kept, hclosed]
  refine List.filter_eq_self.mpr fun body hbody => ?_
  obtain ⟨frame, hframe, rfl⟩ := List.mem_map.mp hbody
  exact decide_eq_true (kept_packetOf hsize (h frame hframe))

theorem kept_flatMap_wireOf (hsize : config.maximumPayloadSize ≤ maxPayload)
    {frames : List CdcMuxFrameView} (h : ∀ frame ∈ frames, config.Admits frame) :
    kept [] (frames.flatMap wireOf) = frames.map packetOf :=
  kept_of_closed hsize h (closed_flatMap_wireOf frames)

theorem decode_map_packetOf (hsize : config.maximumPayloadSize ≤ maxPayload)
    {frames : List CdcMuxFrameView} (h : ∀ frame ∈ frames, config.Admits frame) :
    Decode (frames.map packetOf) (frames.map .ofView) := by
  induction frames with
  | nil => exact .nil
  | cons frame frames ih =>
    rw [List.forall_mem_cons] at h
    exact .cons (decodeFrame_packetOf h.1 (length_le_of_admits hsize h.1)) (ih h.2)

theorem codecsAgree (hsize : config.maximumPayloadSize ≤ maxPayload) : CodecsAgree config where
  encode frame wire h := by
    obtain ⟨hadmits, rfl⟩ := admits_of_encodeFrame h
    exact encodeFrame_eq hadmits (length_le_of_admits hsize hadmits)
  decode packet before after size _ hoverrun hspace hdecode hvalid := by
    have hloads := cobsDecode_loads packet hoverrun
    rw [hdecode] at hloads
    obtain ⟨-, -, -, body, hbody, -, hbytes⟩ := hloads
    rw [List.take_zero, List.nil_append] at hbytes
    rw [hbytes] at hvalid ⊢
    obtain ⟨frame, hadmits, rfl⟩ := eq_decodedFrame_of_parseFrame hvalid
    rw [WaveformGenerator.Dd008.parseFrame_decodedFrame hadmits, decodeFrame,
      cobsDecode_of_some hbody]
    exact parseFrame_decodedFrame hadmits (length_le_of_admits hsize hadmits)
  stream frames wires chunks hwrote hchunks := by
    obtain ⟨hadmits, hwires⟩ := hwrote.eq
    have hdecode := decode_map_packetOf hsize hadmits
    rw [← kept_flatMap_wireOf hsize hadmits, ← hwires, ← hchunks] at hdecode
    have hnew : Follows {} [] := rfl
    obtain ⟨decoder, -, hfeed⟩ := feedChunks_of_decode hnew hdecode
    exact ⟨decoder, hfeed⟩

/-- A build whose payloads the host refuses writes frames that the host does not. -/
theorem length_le_of_codecsAgree (h : CodecsAgree config) :
    config.maximumPayloadSize ≤ maxPayload := by
  by_contra hbig
  let frame : CdcMuxFrameView :=
    { type := .streamData, channel := .controlStatus, payload := List.replicate 1025 0 }
  have hlength : frame.payload.length = 1025 := List.length_replicate
  have hadmits : config.Admits frame := by
    refine ⟨by decide, by decide, rfl, ?_⟩
    rw [hlength]
    exact Nat.lt_of_not_le hbig
  have hencode := h.encode frame _ (WaveformGenerator.Dd008.encodeFrame_of_admits hadmits)
  rw [encodeFrame, if_pos (by rw [hlength]; decide)] at hencode
  cases hencode

/-- The codecs agree in the build as it is, and in all builds up to the host's payload limit. -/
theorem codecs_agree :
    CodecsAgree {} ∧ ∀ config, CodecsAgree config ↔ config.maximumPayloadSize ≤ maxPayload :=
  ⟨codecsAgree (by decide), fun _ => ⟨length_le_of_codecsAgree, codecsAgree⟩⟩

end

end WaveformGenerator.Host.Dd008
