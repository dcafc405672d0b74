import WaveformGenerator.Dd008.Stuffing
import WaveformGenerator.Lib.UInt

/-!
# DD-008 frames on the wire

A frame that the encoder admits has one wire, which it stores whole or not at all; the packet of
that wire parses to the frame.
-/

namespace WaveformGenerator.Dd008

variable (config : CdcMuxConfig) {frame : CdcMuxFrameView}

/-- The frames that `encode_cdc_mux_frame` accepts. -/
def CdcMuxConfig.Admits (frame : CdcMuxFrameView) : Prop :=
  knownType frame.type ∧ knownChannel frame.channel ∧
    validTypeChannel frame.type frame.channel frame.payload.length ∧
    frame.payload.length ≤ config.maximumPayloadSize

instance : DecidablePred config.Admits := fun _ => inferInstanceAs (Decidable (_ ∧ _))

/-- The packet of a frame, without its delimiter. -/
def packetOf (frame : CdcMuxFrameView) : List UInt8 := Cobs.encode (decodedFrame frame)

/-- The bytes of a frame on the wire. -/
def wireOf (frame : CdcMuxFrameView) : List UInt8 := packetOf frame ++ [0]

theorem length_frameBody (frame : CdcMuxFrameView) :
    (frameBody frame).length = cdcMuxHeaderSize + frame.payload.length := by
  simp [frameBody, cdcMuxHeaderSize]
  omega

theorem length_decodedFrame (frame : CdcMuxFrameView) :
    (decodedFrame frame).length = cdcMuxHeaderSize + frame.payload.length + cdcMuxCrcSize := by
  rw [decodedFrame, List.length_append, length_frameBody, length_le32]
  rfl

theorem zero_not_mem_packetOf (frame : CdcMuxFrameView) : (0 : UInt8) ∉ packetOf frame :=
  Cobs.zero_not_mem_encode _

theorem packetOf_ne_nil (frame : CdcMuxFrameView) : packetOf frame ≠ [] :=
  Cobs.stuff_ne_nil [] (decodedFrame frame)

theorem decode_packetOf (frame : CdcMuxFrameView) :
    Cobs.decode (packetOf frame) = some (decodedFrame frame) :=
  Cobs.decode_encode _

variable {config}

theorem length_decodedFrame_le (h : config.Admits frame) :
    (decodedFrame frame).length ≤ config.maximumDecodedFrameSize := by
  rw [length_decodedFrame]
  exact Nat.add_le_add_right (Nat.add_le_add_left h.2.2.2 _) _

/-- The packet of an admitted frame fits the decoder's buffer. -/
theorem length_packetOf_le (h : config.Admits frame) :
    (packetOf frame).length ≤ config.maximumCobsPacketSize := by
  have hdecoded := length_decodedFrame_le h
  refine Nat.le_trans (Cobs.length_encode_le _) ?_
  exact Nat.succ_le_succ (Nat.add_le_add hdecoded (Nat.div_le_div_right hdecoded))

/-- An admitted frame fits the declared maximum wire size. -/
theorem length_wireOf_le (h : config.Admits frame) :
    (wireOf frame).length ≤ config.maximumWireFrameSize := by
  rw [wireOf, List.length_append]
  exact Nat.succ_le_succ (length_packetOf_le h)

/-! ## Parsing -/

theorem readU16_decodedFrame (h : config.Admits frame) :
    (readU16 (decodedFrame frame) 6).toNat = frame.payload.length := by
  have hlength : frame.payload.length < 2 ^ 16 :=
    Nat.lt_of_le_of_lt (Nat.le_trans h.2.2.2 config.most) (by decide)
  have hread := readU16_le16
    [magic0, magic1, cdcMuxProtocolVersion, frame.type.value, frame.channel.value, 0]
    (le32 frame.sequence ++ frame.payload ++ le32 (cdcMuxCrc32c (frameBody frame)))
    (.ofNat frame.payload.length)
  have hsplit : decodedFrame frame =
      [magic0, magic1, cdcMuxProtocolVersion, frame.type.value, frame.channel.value, 0] ++
        (le16 (.ofNat frame.payload.length) ++ (le32 frame.sequence ++ frame.payload ++
          le32 (cdcMuxCrc32c (frameBody frame)))) := by
    simp [decodedFrame, frameBody]
  rw [hsplit]
  exact (congrArg UInt16.toNat hread).trans (UInt16.toNat_ofNat_of_lt' hlength)

theorem readU32_sequence (frame : CdcMuxFrameView) :
    readU32 (decodedFrame frame) 8 = frame.sequence := by
  have hread := readU32_le32
    ([magic0, magic1, cdcMuxProtocolVersion, frame.type.value, frame.channel.value, 0] ++
      le16 (.ofNat frame.payload.length))
    (frame.payload ++ le32 (cdcMuxCrc32c (frameBody frame))) frame.sequence
  rw [decodedFrame, frameBody, List.append_assoc, List.append_assoc]
  exact hread

theorem readU32_crc (frame : CdcMuxFrameView) :
    readU32 (decodedFrame frame) (cdcMuxHeaderSize + frame.payload.length) =
      cdcMuxCrc32c (frameBody frame) := by
  have hread := readU32_le32 (frameBody frame) [] (cdcMuxCrc32c (frameBody frame))
  rw [List.append_nil, length_frameBody] at hread
  exact hread

/-- An admitted frame parses to itself. -/
theorem parseFrame_decodedFrame (h : config.Admits frame) :
    parseFrame config (decodedFrame frame) = .accepted frame := by
  have hread := readU16_decodedFrame h
  obtain ⟨htype, hchannel, hvalid, hsize⟩ := h
  have hlength := length_decodedFrame frame
  have hbody : (decodedFrame frame).take (cdcMuxHeaderSize + frame.payload.length) =
      frameBody frame := List.take_left' (length_frameBody frame)
  have hrest : (decodedFrame frame).drop cdcMuxHeaderSize =
      frame.payload ++ le32 (cdcMuxCrc32c (frameBody frame)) := by
    rw [decodedFrame, frameBody, List.append_assoc]
    exact List.drop_left' rfl
  have h0 : (decodedFrame frame).getD 0 0 = magic0 := rfl
  have h1 : (decodedFrame frame).getD 1 0 = magic1 := rfl
  have h2 : (decodedFrame frame).getD 2 0 = cdcMuxProtocolVersion := rfl
  have h3 : (decodedFrame frame).getD 3 0 = frame.type.value := rfl
  have h4 : (decodedFrame frame).getD 4 0 = frame.channel.value := rfl
  have h5 : (decodedFrame frame).getD 5 0 = 0 := rfl
  rw [parseFrame, if_neg (by rw [hlength]; omega), if_neg (by rw [h0, h1]; simp),
    if_neg (by rw [h2]; simp), if_neg (by rw [h5]; simp)]
  simp only [hread]
  rw [if_neg (by rw [hlength]; omega), hbody, readU32_crc, if_neg (by simp)]
  simp only [h3, h4, htype, hchannel, hvalid, Bool.not_true, Bool.false_eq_true, if_false,
    readU32_sequence, hrest, List.take_left]

/-- The header's bytes and the two fields behind it. -/
theorem eq_header_append {decoded : List UInt8} (h : cdcMuxHeaderSize ≤ decoded.length) :
    decoded = [decoded.getD 0 0, decoded.getD 1 0, decoded.getD 2 0, decoded.getD 3 0,
      decoded.getD 4 0, decoded.getD 5 0] ++ le16 (readU16 decoded 6) ++
        le32 (readU32 decoded 8) ++ decoded.drop cdcMuxHeaderSize := by
  rw [cdcMuxHeaderSize] at h ⊢
  have hfront : decoded.take 6 = [decoded.getD 0 0, decoded.getD 1 0, decoded.getD 2 0,
      decoded.getD 3 0, decoded.getD 4 0, decoded.getD 5 0] := by
    rw [← List.drop_zero (l := decoded)]
    iterate 6 rw [take_drop_succ (by omega)]
    simp
  rw [le16_readU16 (by omega), le32_readU32 (by omega), ← hfront]
  have h6 : decoded.drop 6 = (decoded.drop 6).take 2 ++ decoded.drop 8 := by
    rw [← List.drop_drop (i := 2) (j := 6), List.take_append_drop]
  have h8 : decoded.drop 8 = (decoded.drop 8).take 4 ++ decoded.drop 12 := by
    rw [← List.drop_drop (i := 4) (j := 8), List.take_append_drop]
  rw [List.append_assoc, List.append_assoc, ← h8, ← h6, List.take_append_drop]

/-- A packet that parses is that of an admitted frame, byte for byte. -/
theorem eq_decodedFrame_of_parseFrame {decoded : List UInt8}
    (h : (parseFrame config decoded).valid) :
    ∃ frame, config.Admits frame ∧ decoded = decodedFrame frame := by
  unfold parseFrame at h
  split at h
  · cases h
  split at h
  · cases h
  split at h
  · cases h
  split at h
  · cases h
  rename_i hlong hmagic hversion hflags
  extract_lets payloadSize crcOffset type channel at h
  split at h
  · cases h
  split at h
  · cases h
  split at h
  · cases h
  split at h
  · cases h
  split at h
  · cases h
  rename_i hlength hcrc htype hchannel hvalid
  simp only [not_or, not_not, Nat.not_lt] at hlong hmagic
  simp only [not_or, not_not, Nat.not_lt] at hversion hflags hlength hcrc
  simp only [Bool.not_eq_true', Bool.not_eq_false] at htype hchannel hvalid
  have hheader : cdcMuxHeaderSize ≤ decoded.length := by omega
  have hrest : (decoded.drop cdcMuxHeaderSize).length = payloadSize + cdcMuxCrcSize := by
    rw [List.length_drop]
    omega
  have hpayload : ((decoded.drop cdcMuxHeaderSize).take payloadSize).length = payloadSize :=
    List.length_take_of_le (by omega)
  let frame : CdcMuxFrameView :=
    ⟨type, channel, readU32 decoded 8, (decoded.drop cdcMuxHeaderSize).take payloadSize⟩
  refine ⟨frame, ⟨htype, hchannel, by rwa [hpayload], by rw [hpayload]; exact hlength.1⟩, ?_⟩
  have hsize : UInt16.ofNat frame.payload.length = readU16 decoded 6 := by
    rw [show frame.payload.length = (readU16 decoded 6).toNat from hpayload, UInt16.ofNat_toNat]
  have hsplit : decoded = frameBody frame ++ decoded.drop crcOffset := by
    have hdrop : decoded.drop cdcMuxHeaderSize = frame.payload ++ decoded.drop crcOffset := by
      rw [show crcOffset = cdcMuxHeaderSize + payloadSize from rfl, ← List.drop_drop]
      exact (List.take_append_drop ..).symm
    have h := eq_header_append hheader
    rw [hdrop, hmagic.1, hmagic.2, hversion, hflags, ← hsize, ← List.append_assoc] at h
    exact h
  have hoffset : (frameBody frame).length = crcOffset := by
    rw [length_frameBody]
    exact congrArg _ hpayload
  have hbody : decoded.take crcOffset = frameBody frame := by
    rw [hsplit]
    exact List.take_left' hoffset
  have htail : decoded.drop crcOffset = le32 (cdcMuxCrc32c (frameBody frame)) := by
    have hlast : (decoded.drop crcOffset).length = 4 := by
      rw [List.length_drop]
      simp only [cdcMuxCrcSize] at hlength
      omega
    rw [← hbody, ← hcrc, le32_readU32 (by rw [List.length_drop] at hlast; omega),
      List.take_of_length_le (Nat.le_of_eq hlast)]
  rw [decodedFrame, ← htail]
  exact hsplit

/-! ## Encoding -/

/-- A frame that is not admitted is refused, and the buffer is as it was. -/
theorem encodeCdcMuxFrame_refuses (h : ¬config.Admits frame) (output : Buffer) :
    ∃ status, status.code = .invalidArgument ∧
      encodeCdcMuxFrame config frame output = (.error status, output) := by
  unfold encodeCdcMuxFrame
  split
  · exact ⟨_, rfl, rfl⟩
  · split
    · exact ⟨_, rfl, rfl⟩
    · rename_i hkind hsize
      simp only [Bool.or_eq_true, Bool.not_eq_true', not_or, Bool.not_eq_false] at hkind
      exact absurd ⟨hkind.1.1, hkind.1.2, hkind.2, Nat.not_lt.mp hsize⟩ h

/-- The encoder stores the wire of an admitted frame, or refuses a buffer too small for it. -/
theorem encodeCdcMuxFrame_stores (h : config.Admits frame) (output : List UInt8) :
    Stores (wireOf frame) output (encodeCdcMuxFrame config frame { bytes := output }) := by
  obtain ⟨htype, hchannel, hvalid, hsize⟩ := h
  have hpacket := List.length_pos_of_ne_nil (packetOf_ne_nil frame)
  have hwire : (wireOf frame).length = (packetOf frame).length + 1 := List.length_append
  rw [encodeCdcMuxFrame, if_neg (by simp [htype, hchannel, hvalid]), if_neg (by omega)]
  split
  · rename_i hshort
    exact ⟨rfl, by simp [Buffer.size] at hshort; omega, rfl, rfl⟩
  · rename_i hroom
    rw [Nat.not_lt] at hroom
    have hstores := cobsEncode_stores (decodedFrame frame) (output.take (output.length - 1))
    have hspan : (output.take (output.length - 1)).length = output.length - 1 :=
      List.length_take_of_le (Nat.sub_le ..)
    have hfirst : Buffer.first { bytes := output } (Buffer.size { bytes := output } - 1) =
        { bytes := output.take (output.length - 1) } := rfl
    rw [hfirst]
    change Stores (packetOf frame) _ _ at hstores
    generalize cobsEncode (decodedFrame frame) { bytes := output.take (output.length - 1) } =
      outcome at hstores ⊢
    rcases outcome with ⟨status | size, span⟩
    · obtain ⟨hcode, hbig, hsame, hoverrun⟩ := hstores
      rw [hspan] at hbig hsame
      refine ⟨hcode, by omega, Buffer.size_withFirst ?_, by simp [Buffer.withFirst, hoverrun]⟩
      rw [hsame]
      exact Nat.sub_le ..
    · obtain ⟨rfl, hfits, rfl⟩ := hstores
      rw [hspan] at hfits
      have hlt : (packetOf frame).length < output.length := by
        simp only [Buffer.size] at hroom
        omega
      simp only [Buffer.withFirst_append hfits (Nat.sub_le ..)]
      rw [if_neg (by simp [Buffer.size]; omega), List.drop_eq_getElem_cons hlt, Buffer.store_mid]
      refine ⟨hwire.symm, hwire ▸ hlt, ?_⟩
      rw [wireOf, List.append_assoc, List.length_append]
      rfl

/-- What `send_frame` writes of an admitted frame is its wire. -/
theorem encodeFrame_of_admits (h : config.Admits frame) :
    encodeFrame config frame = .ok (wireOf frame) := by
  have hstores := encodeCdcMuxFrame_stores h (List.replicate config.maximumWireFrameSize 0)
  have hfits := length_wireOf_le h
  rw [encodeFrame, Buffer.zeros]
  generalize encodeCdcMuxFrame config frame _ = outcome at hstores ⊢
  rcases outcome with ⟨status | size, after⟩
  · have hbig := hstores.2.1
    rw [List.length_replicate] at hbig
    omega
  · obtain ⟨rfl, -, rfl⟩ := hstores
    simp only [List.take_left]

/-- Only admitted frames are written. -/
theorem admits_of_encodeFrame {wire : List UInt8} (h : encodeFrame config frame = .ok wire) :
    config.Admits frame ∧ wire = wireOf frame := by
  by_cases hadmits : config.Admits frame
  · rw [encodeFrame_of_admits hadmits] at h
    exact ⟨hadmits, (Except.ok.inj h).symm⟩
  · obtain ⟨status, -, hrefuses⟩ :=
      encodeCdcMuxFrame_refuses hadmits (.zeros config.maximumWireFrameSize)
    rw [encodeFrame, hrefuses] at h
    cases h

end WaveformGenerator.Dd008
