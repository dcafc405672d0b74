import WaveformGenerator.Common.Crc32
import WaveformGenerator.Lib.Lfsr

/-!
# The CRC-32, bit by bit

What the table does with a byte is what the shift register of the polynomial does with its bits,
the lowest first.
-/

namespace WaveformGenerator

/-- The bits of a byte in the order in which they are fed, the lowest first. -/
def byteBits (byte : UInt8) : List Bool := (List.range 8).map byte.toNat.testBit

/-- The reflected CRC-32: the register starts with all bits set, is fed bit by bit, and is
complemented at the end. -/
def serialCrc32 (bytes : List UInt8) : UInt32 :=
  ⟨~~~Lfsr.run 0xEDB88320#32 (BitVec.allOnes 32) (bytes.flatMap byteBits)⟩

theorem toBitVec_crc32Bit (remainder : UInt32) :
    (crc32Bit remainder).toBitVec = Lfsr.step crc32Polynomial.toBitVec remainder.toBitVec := by
  have hlow : remainder &&& 1 ≠ 0 ↔ remainder.toBitVec.getLsbD 0 = true := by
    rw [Ne, ← UInt32.toNat_inj, UInt32.toNat_and]
    show ¬remainder.toNat &&& 1 = 0 ↔ _
    rw [Nat.and_one_is_mod, BitVec.getLsbD, Nat.testBit_zero, decide_eq_true_iff,
      UInt32.toNat_toBitVec]
    omega
  have hshift : (remainder >>> 1).toBitVec = remainder.toBitVec >>> 1 :=
    UInt32.toBitVec_shiftRight ..
  unfold crc32Bit Lfsr.step
  by_cases h : remainder.toBitVec.getLsbD 0 = true
  · rw [if_pos (hlow.mpr h), if_pos h, UInt32.toBitVec_xor, hshift]
  · rw [if_neg (hlow.not.mpr h), if_neg h, hshift]

theorem toBitVec_repeat_crc32Bit (n : Nat) (remainder : UInt32) :
    (Nat.repeat crc32Bit n remainder).toBitVec =
      (Lfsr.step crc32Polynomial.toBitVec)^[n] remainder.toBitVec := by
  induction n with
  | zero => rfl
  | succ n ih => rw [Nat.repeat, toBitVec_crc32Bit, ih, Function.iterate_succ_apply']

theorem getLsbD_toUInt32 (byte : UInt8) (i : Nat) :
    byte.toUInt32.toBitVec.getLsbD i = byte.toNat.testBit i := by
  rw [BitVec.getLsbD, UInt32.toNat_toBitVec, UInt8.toNat_toUInt32]

theorem ofBits_byteBits (byte : UInt8) :
    Lfsr.ofBits 32 (byteBits byte) = byte.toUInt32.toBitVec := by
  apply BitVec.eq_of_getLsbD_eq
  intro i hi
  rw [Lfsr.getLsbD_ofBits _ hi, getLsbD_toUInt32, byteBits]
  by_cases hbit : i < 8
  · rw [List.getD_eq_getElem _ _ (by simpa using hbit), List.getElem_map, List.getElem_range]
  · rw [List.getD_eq_default _ _ (by simpa using hbit), Nat.testBit_lt_two_pow]
    exact Nat.lt_of_lt_of_le byte.toNat_lt (Nat.pow_le_pow_right (by decide) (by omega))

namespace Crc32

/-- The entry that a byte selects holds eight steps from the lowest byte of the register. -/
theorem toBitVec_crc32Table (state : UInt32) (byte : UInt8) :
    (crc32Table (index state byte)).toBitVec =
      (Lfsr.step crc32Polynomial.toBitVec)^[8]
        ((state ^^^ byte.toUInt32).toBitVec &&& crc32ByteMask.toBitVec) := by
  have hindex : UInt32.ofNat (index state byte) = (state ^^^ byte.toUInt32) &&& crc32ByteMask :=
    UInt32.ofNat_toNat
  rw [crc32Table, hindex, toBitVec_repeat_crc32Bit, UInt32.toBitVec_and]

theorem getLsbD_crc32ByteMask (i : Nat) :
    crc32ByteMask.toBitVec.getLsbD i = decide (i < 8) := by
  show Nat.testBit (2 ^ 8 - 1) i = decide (i < 8)
  exact Nat.testBit_two_pow_sub_one 8 i

/-- The step lemma: a byte through the table is its bits through the register. -/
theorem toBitVec_updateByte (crc : Crc32) (byte : UInt8) :
    (crc.updateByte byte).state.toBitVec =
      Lfsr.run crc32Polynomial.toBitVec crc.state.toBitVec (byteBits byte) := by
  have hlow : ∀ i, ((crc.state ^^^ byte.toUInt32).toBitVec &&& crc32ByteMask.toBitVec).getLsbD i =
      (decide (i < 8) && (crc.state ^^^ byte.toUInt32).toBitVec.getLsbD i) := by
    intro i
    rw [BitVec.getLsbD_and, getLsbD_crc32ByteMask, Bool.and_comm]
  -- the byte is shifted out of the register whole
  have hshift : (crc.state ^^^ byte.toUInt32).toBitVec >>> 8 = crc.state.toBitVec >>> 8 := by
    apply BitVec.eq_of_getLsbD_eq
    intro i _
    rw [BitVec.getLsbD_ushiftRight, BitVec.getLsbD_ushiftRight, UInt32.toBitVec_xor,
      BitVec.getLsbD_xor, getLsbD_toUInt32, Nat.testBit_lt_two_pow, Bool.xor_false]
    exact Nat.lt_of_lt_of_le byte.toNat_lt (Nat.pow_le_pow_right (by decide) (by omega))
  have hstate : (crc.state >>> 8).toBitVec = crc.state.toBitVec >>> 8 :=
    UInt32.toBitVec_shiftRight ..
  rw [Lfsr.run_eq _ _ (by simp [byteBits]), ofBits_byteBits, ← UInt32.toBitVec_xor]
  show (crc.state >>> 8 ^^^ crc32Table (index crc.state byte)).toBitVec = (Lfsr.step _)^[8] _
  rw [UInt32.toBitVec_xor, hstate, toBitVec_crc32Table, Lfsr.iterate_eq_table _ hlow, hshift]

theorem toBitVec_update (crc : Crc32) (bytes : List UInt8) :
    (crc.update bytes).state.toBitVec =
      Lfsr.run crc32Polynomial.toBitVec crc.state.toBitVec (bytes.flatMap byteBits) := by
  induction bytes generalizing crc with
  | nil => rfl
  | cons byte bytes ih =>
    rw [List.flatMap_cons, Lfsr.run_append, ← toBitVec_updateByte, ← ih]
    rfl

/-- **The table is the register.** From any state the table-driven update leaves what the
bit-serial register does, so the checksum is the reflected CRC-32; and bytes may come in parts. -/
theorem update_serial :
    (∀ (crc : Crc32) (bytes : List UInt8), (crc.update bytes).state.toBitVec =
      Lfsr.run 0xEDB88320#32 crc.state.toBitVec (bytes.flatMap byteBits)) ∧
    (∀ bytes, crc32 bytes = serialCrc32 bytes) ∧
    ∀ (crc : Crc32) (a b : List UInt8), crc.update (a ++ b) = (crc.update a).update b := by
  refine ⟨fun crc bytes => crc.toBitVec_update bytes, fun bytes => ?_, update_append⟩
  have hupdate := toBitVec_update {} bytes
  apply UInt32.toBitVec_inj.mp
  rw [crc32, value, UInt32.toBitVec_xor, hupdate]
  show Lfsr.run _ (BitVec.allOnes 32) _ ^^^ BitVec.allOnes 32 = ~~~_
  rw [BitVec.xor_allOnes]
  rfl

end Crc32

end WaveformGenerator
