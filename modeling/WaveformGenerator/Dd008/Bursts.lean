import WaveformGenerator.Dd008.Frames
import WaveformGenerator.Lib.Lfsr

/-!
# Errors in bursts

The CRC-32C is what a shift register leaves, fed with the bytes of a frame from each byte's lowest
bit on. All frames with their checksums leave it alike, so two of them do not differ in a burst of
at most 32 bits.
-/

namespace WaveformGenerator.Dd008

/-! ## Bits -/

/-- Bit `n` of some bytes, the lowest bit of each byte first. -/
def bitAt (bytes : List UInt8) (n : Nat) : Bool := (bytes.getD (n / 8) 0).toNat.testBit (n % 8)

def bitsOf (bytes : List UInt8) : List Bool := (List.range (8 * bytes.length)).map (bitAt bytes)

@[simp] theorem length_bitsOf (bytes : List UInt8) : (bitsOf bytes).length = 8 * bytes.length := by
  rw [bitsOf, List.length_map, List.length_range]

theorem getD_bitsOf (bytes : List UInt8) (n : Nat) : (bitsOf bytes).getD n false = bitAt bytes n := by
  by_cases hn : n < 8 * bytes.length
  · rw [List.getD_eq_getElem _ _ (by rw [length_bitsOf]; exact hn)]
    simp [bitsOf]
  · rw [List.getD_eq_default _ _ (by rw [length_bitsOf]; omega), bitAt,
      List.getD_eq_default _ _ (by omega)]
    simp

theorem bitAt_append_left {a b : List UInt8} {n : Nat} (h : n < 8 * a.length) :
    bitAt (a ++ b) n = bitAt a n := by
  rw [bitAt, bitAt, List.getD_append _ _ _ _ (by omega)]

theorem bitAt_append_right {a b : List UInt8} {n : Nat} (h : 8 * a.length ≤ n) :
    bitAt (a ++ b) n = bitAt b (n - 8 * a.length) := by
  have hindex : n / 8 - a.length = (n - 8 * a.length) / 8 := by omega
  have hbit : n % 8 = (n - 8 * a.length) % 8 := by omega
  rw [bitAt, bitAt, List.getD_append_right _ _ _ _ (by omega), hindex, hbit]

theorem bitsOf_append (a b : List UInt8) : bitsOf (a ++ b) = bitsOf a ++ bitsOf b := by
  apply List.ext_getElem
  · simp [Nat.mul_add]
  · intro n hn hn'
    rw [← List.getD_eq_getElem _ false hn, ← List.getD_eq_getElem _ false hn', getD_bitsOf]
    by_cases hfront : n < 8 * a.length
    · rw [List.getD_append _ _ _ _ (by rw [length_bitsOf]; exact hfront), getD_bitsOf,
        bitAt_append_left hfront]
    · rw [List.getD_append_right _ _ _ _ (by rw [length_bitsOf]; omega), getD_bitsOf, length_bitsOf,
        bitAt_append_right (by omega)]

/-- The bits of bytes are those of the number they are. -/
theorem bitAt_eq_testBit (bytes : List UInt8) (n : Nat) : bitAt bytes n = (ofLe bytes).testBit n := by
  induction bytes generalizing n with
  | nil => simp [bitAt, ofLe]
  | cons byte bytes ih =>
    have hbyte : byte.toNat < 2 ^ 8 := byte.toNat_lt
    rw [ofLe, Nat.add_comm, show (256 : Nat) = 2 ^ 8 from rfl, Nat.testBit_two_pow_mul_add _ hbyte]
    by_cases hn : n < 8
    · rw [if_pos hn, bitAt, Nat.div_eq_of_lt hn, Nat.mod_eq_of_lt hn]
      rfl
    · rw [if_neg hn, ← ih, ← List.singleton_append, bitAt_append_right]
      · rfl
      · exact Nat.not_lt.mp hn

theorem bitsOf_injective {a b : List UInt8} (hlength : a.length = b.length)
    (h : bitsOf a = bitsOf b) : a = b := by
  have hvalue : ofLe a = ofLe b := by
    apply Nat.eq_of_testBit_eq
    intro n
    rw [← bitAt_eq_testBit, ← bitAt_eq_testBit, ← getD_bitsOf, ← getD_bitsOf, h]
  have := congrArg (le a.length) hvalue
  rwa [le_ofLe, hlength, le_ofLe] at this

/-! ## The checksum as a register -/

def polynomial : BitVec 32 := crc32cPolynomial.toBitVec

theorem msb_polynomial : polynomial.msb = true := by decide

theorem toBitVec_crc32cBit (crc : UInt32) :
    (crc32cBit crc).toBitVec = Lfsr.step polynomial crc.toBitVec := by
  have hlow : crc &&& 1 = if crc.toBitVec.getLsbD 0 then 1 else 0 := by
    rw [← UInt32.toNat_inj, UInt32.toNat_and]
    show crc.toNat &&& 1 = _
    rw [Nat.and_one_is_mod, BitVec.getLsbD, Nat.testBit_zero]
    have hmod := Nat.mod_two_eq_zero_or_one crc.toNat
    rcases hmod with h | h <;> simp [h, UInt32.toNat_toBitVec]
  unfold crc32cBit Lfsr.step
  rw [hlow]
  have hshift : (crc >>> 1).toBitVec = crc.toBitVec >>> 1 := UInt32.toBitVec_shiftRight ..
  cases crc.toBitVec.getLsbD 0 with
  | false =>
    rw [if_neg Bool.false_ne_true, if_neg Bool.false_ne_true, UInt32.toBitVec_xor, hshift]
    show crc.toBitVec >>> 1 ^^^ (crc32cPolynomial &&& (0 - 0)).toBitVec = _
    rw [show (crc32cPolynomial &&& (0 - 0)).toBitVec = 0#32 from rfl, BitVec.xor_zero]
  | true =>
    rw [if_pos rfl, if_pos rfl, UInt32.toBitVec_xor, hshift]
    rfl

theorem toBitVec_repeat (n : Nat) (crc : UInt32) :
    (Nat.repeat crc32cBit n crc).toBitVec = (Lfsr.step polynomial)^[n] crc.toBitVec := by
  induction n with
  | zero => rfl
  | succ n ih =>
    rw [Nat.repeat, toBitVec_crc32cBit, ih, Function.iterate_succ_apply']

theorem ofBits_bitsOf (bytes : List UInt8) :
    Lfsr.ofBits 32 (bitsOf bytes) = .ofNat 32 (ofLe bytes) := by
  apply BitVec.eq_of_getLsbD_eq
  intro i hi
  rw [Lfsr.getLsbD_ofBits _ hi, getD_bitsOf, bitAt_eq_testBit, BitVec.getLsbD_ofNat,
    decide_eq_true hi, Bool.true_and]

theorem toBitVec_crc32cByte (crc : UInt32) (byte : UInt8) :
    (crc32cByte crc byte).toBitVec = Lfsr.run polynomial crc.toBitVec (bitsOf [byte]) := by
  have hbyte : byte.toUInt32.toBitVec = Lfsr.ofBits 32 (bitsOf [byte]) := by
    rw [ofBits_bitsOf, ofLe, ofLe, Nat.mul_zero, Nat.add_zero]
    apply BitVec.eq_of_toNat_eq
    rw [BitVec.toNat_ofNat, Nat.mod_eq_of_lt (Nat.lt_trans byte.toNat_lt (by decide))]
    exact UInt8.toNat_toUInt32 byte
  rw [crc32cByte, toBitVec_repeat, Lfsr.run_eq polynomial _ (by simp), length_bitsOf,
    UInt32.toBitVec_xor, hbyte]
  rfl

theorem toBitVec_foldl (crc : UInt32) (bytes : List UInt8) :
    (bytes.foldl crc32cByte crc).toBitVec =
      Lfsr.run polynomial crc.toBitVec (bitsOf bytes) := by
  induction bytes generalizing crc with
  | nil => rfl
  | cons byte bytes ih =>
    have hbits : bitsOf (byte :: bytes) = bitsOf [byte] ++ bitsOf bytes := bitsOf_append [byte] bytes
    rw [List.foldl_cons, ih, toBitVec_crc32cByte, hbits, Lfsr.run_append]

/-- What the register holds behind a frame and its checksum, whatever the frame. -/
def residue : BitVec 32 := (Lfsr.step polynomial)^[32] (BitVec.allOnes 32)

theorem run_decodedFrame (frame : CdcMuxFrameView) :
    Lfsr.run polynomial (BitVec.allOnes 32) (bitsOf (decodedFrame frame)) = residue := by
  have hbody := toBitVec_foldl 0xFFFFFFFF (frameBody frame)
  have hword : BitVec.ofNat 32 (ofLe (le32 (cdcMuxCrc32c (frameBody frame)))) =
      Lfsr.run polynomial (BitVec.allOnes 32) (bitsOf (frameBody frame)) ^^^ BitVec.allOnes 32 := by
    rw [le32_eq, ofLe_le (cdcMuxCrc32c (frameBody frame)).toNat_lt]
    show BitVec.ofNat 32 (cdcMuxCrc32c (frameBody frame)).toBitVec.toNat = _
    rw [BitVec.ofNat_toNat, BitVec.setWidth_eq, cdcMuxCrc32c, UInt32.toBitVec_xor, hbody]
    rfl
  rw [decodedFrame, bitsOf_append, Lfsr.run_append, Lfsr.run_eq polynomial _ (by simp),
    ofBits_bitsOf, hword, ← BitVec.xor_assoc, BitVec.xor_self, BitVec.zero_xor, length_bitsOf]
  rfl

/-! ## Bursts -/

/-- Bytes with an error in them, in some bits of at most 32 in a row. -/
structure Burst (sent received : List UInt8) : Prop where
  length : received.length = sent.length
  ne : received ≠ sent
  within : ∃ first, ∀ n, bitAt received n ≠ bitAt sent n → first ≤ n ∧ n < first + 32

/-- Other bytes in the place of at most four. -/
theorem Burst.replaced (before after : List UInt8) {bytes other : List UInt8}
    (hfour : bytes.length ≤ 4) (hlength : other.length = bytes.length) (hne : other ≠ bytes) :
    Burst (before ++ (bytes ++ after)) (before ++ (other ++ after)) where
  length := by simp [hlength]
  ne h := hne (List.append_cancel_right (List.append_cancel_left h))
  within := by
    refine ⟨8 * before.length, fun n hn => ?_⟩
    by_contra hout
    apply hn
    by_cases hfront : n < 8 * before.length
    · rw [bitAt_append_left hfront, bitAt_append_left hfront]
    · rw [bitAt_append_right (Nat.not_lt.mp hfront), bitAt_append_right (Nat.not_lt.mp hfront),
        bitAt_append_right (by omega), bitAt_append_right (by omega), hlength]

/-- **Burst errors are detected.** No burst of at most 32 bits, counted as the CRC takes them, the
lowest bit of each byte first, turns the decoded bytes of a frame into bytes that parse. -/
theorem burst_detected (config : CdcMuxConfig) {decoded corrupted : List UInt8}
    (hvalid : (parseFrame config decoded).valid) (hburst : Burst decoded corrupted) :
    (parseFrame config corrupted).valid = false := by
  by_contra hparsed
  obtain ⟨frame, -, rfl⟩ := eq_decodedFrame_of_parseFrame hvalid
  obtain ⟨frame', -, rfl⟩ := eq_decodedFrame_of_parseFrame (by simpa using hparsed)
  obtain ⟨first, hwithin⟩ := hburst.within
  refine hburst.ne (bitsOf_injective hburst.length ?_)
  refine @Lfsr.eq_of_run_eq _ _ msb_polynomial (BitVec.allOnes 32) _ _ ?_ ?_ first fun n hn => ?_
  · rw [length_bitsOf, length_bitsOf, hburst.length]
  · rw [run_decodedFrame, run_decodedFrame]
  · rw [getD_bitsOf, getD_bitsOf] at hn
    exact hwithin n hn

/-- Another sequence number in a frame that is otherwise as it was. -/
theorem burst_detected_sequence :
    let decoded := decodedFrame ⟨.reset, .link, 1, []⟩
    let corrupted := decoded.take 8 ++ ([2, 0, 0, 0] ++ decoded.drop 12)
    (parseFrame {} decoded).valid ∧ (parseFrame {} corrupted).valid = false := by
  have hvalid : (parseFrame {} (decodedFrame ⟨.reset, .link, 1, []⟩)).valid := by decide +kernel
  have hburst := Burst.replaced ((decodedFrame ⟨.reset, .link, 1, []⟩).take 8)
    ((decodedFrame ⟨.reset, .link, 1, []⟩).drop 12) (by decide : [1, 0, 0, 0].length ≤ 4)
    (rfl : [2, 0, 0, 0].length = _) (by decide : [(2 : UInt8), 0, 0, 0] ≠ [1, 0, 0, 0])
  exact ⟨hvalid, burst_detected {} hvalid hburst⟩

end WaveformGenerator.Dd008
