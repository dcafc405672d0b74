import Mathlib.Data.UInt
import Mathlib.Data.List.Basic

/-!
# Bytes in memory

Little-endian words, and blocks of memory that remember a store outside their bounds.
-/

namespace WaveformGenerator

/-- A text's characters, one byte each. -/
def textBytes (text : String) : List UInt8 := text.toList.map fun ch => .ofNat ch.toNat

/-! ## Little-endian words -/

/-- The `width` lowest bytes of `n`, the lowest first. -/
def le : Nat → Nat → List UInt8
  | 0, _ => []
  | width + 1, n => UInt8.ofNat n :: le width (n / 256)

def ofLe : List UInt8 → Nat
  | [] => 0
  | byte :: bytes => byte.toNat + 256 * ofLe bytes

theorem ofLe_le {width n : Nat} (h : n < 256 ^ width) : ofLe (le width n) = n := by
  induction width generalizing n with
  | zero => simp at h; simp [le, ofLe, h]
  | succ width ih =>
    have hhigh : n / 256 < 256 ^ width := by
      rw [Nat.div_lt_iff_lt_mul (by decide), ← Nat.pow_succ]
      exact h
    simp only [le, ofLe, ih hhigh, UInt8.toNat_ofNat']
    omega

theorem le_ofLe (bytes : List UInt8) : le bytes.length (ofLe bytes) = bytes := by
  induction bytes with
  | nil => rfl
  | cons byte bytes ih =>
    have := byte.toNat_lt
    have hhigh : (byte.toNat + 256 * ofLe bytes) / 256 = ofLe bytes := by omega
    have hlow : UInt8.ofNat (byte.toNat + 256 * ofLe bytes) = byte := by
      rw [← UInt8.toNat_inj, UInt8.toNat_ofNat']
      omega
    rw [List.length_cons, ofLe, le, hlow, hhigh, ih]

/-- `write_u16`: the bytes of a halfword. -/
def le16 (value : UInt16) : List UInt8 := [value.toUInt8, (value >>> 8).toUInt8]

/-- `write_u32`: the bytes of a word. -/
def le32 (value : UInt32) : List UInt8 :=
  [value.toUInt8, (value >>> 8).toUInt8, (value >>> 16).toUInt8, (value >>> 24).toUInt8]

/-- `read_u16` at an offset that the caller has checked. -/
def readU16 (bytes : List UInt8) (offset : Nat) : UInt16 :=
  (bytes.getD offset 0).toUInt16 ||| (bytes.getD (offset + 1) 0).toUInt16 <<< 8

/-- `read_u32` at an offset that the caller has checked. -/
def readU32 (bytes : List UInt8) (offset : Nat) : UInt32 :=
  (bytes.getD offset 0).toUInt32 ||| (bytes.getD (offset + 1) 0).toUInt32 <<< 8 |||
    (bytes.getD (offset + 2) 0).toUInt32 <<< 16 ||| (bytes.getD (offset + 3) 0).toUInt32 <<< 24

@[simp] theorem length_le16 (value : UInt16) : (le16 value).length = 2 := rfl

@[simp] theorem length_le32 (value : UInt32) : (le32 value).length = 4 := rfl

theorem le16_eq (value : UInt16) : le16 value = le 2 value.toNat := by
  simp only [le16, le, List.cons.injEq, and_true]
  refine ⟨?_, ?_⟩ <;> rw [← UInt8.toNat_inj] <;> simp [Nat.shiftRight_eq_div_pow]

theorem le32_eq (value : UInt32) : le32 value = le 4 value.toNat := by
  simp only [le32, le, List.cons.injEq, and_true]
  refine ⟨?_, ?_, ?_, ?_⟩ <;> rw [← UInt8.toNat_inj] <;>
    simp [Nat.shiftRight_eq_div_pow, Nat.div_div_eq_div_mul]

/-- Bytes put side by side do not carry into one another. -/
theorem or_shiftLeft (low high i : Nat) (h : low < 2 ^ i) :
    low ||| high * 2 ^ i = low + high * 2 ^ i := by
  rw [Nat.or_comm, Nat.mul_comm, ← Nat.two_pow_add_eq_or_of_lt h, Nat.add_comm]

theorem take_drop_succ {bytes : List UInt8} {offset : Nat} (h : offset < bytes.length) (n : Nat) :
    (bytes.drop offset).take (n + 1) =
      bytes.getD offset 0 :: (bytes.drop (offset + 1)).take n := by
  rw [List.drop_eq_getElem_cons h, List.take_succ_cons, List.getD_eq_getElem?_getD,
    List.getElem?_eq_getElem h, Option.getD_some]

theorem toNat_readU16 {bytes : List UInt8} {offset : Nat} (h : offset + 2 ≤ bytes.length) :
    (readU16 bytes offset).toNat = ofLe ((bytes.drop offset).take 2) := by
  rw [take_drop_succ (by omega), take_drop_succ (by omega), List.take_zero, readU16]
  generalize bytes.getD offset 0 = a
  generalize bytes.getD (offset + 1) 0 = b
  have := a.toNat_lt
  have := b.toNat_lt
  simp only [UInt16.toNat_or, UInt16.toNat_shiftLeft, Nat.shiftLeft_eq, UInt8.toNat_toUInt16, ofLe,
    UInt16.reduceToNat, Nat.reduceMod]
  rw [Nat.mod_eq_of_lt (by omega), or_shiftLeft _ _ 8 (by omega)]
  omega

theorem toNat_readU32 {bytes : List UInt8} {offset : Nat} (h : offset + 4 ≤ bytes.length) :
    (readU32 bytes offset).toNat = ofLe ((bytes.drop offset).take 4) := by
  rw [take_drop_succ (by omega), take_drop_succ (by omega), take_drop_succ (by omega),
    take_drop_succ (by omega), List.take_zero, readU32]
  generalize bytes.getD offset 0 = a
  generalize bytes.getD (offset + 1) 0 = b
  generalize bytes.getD (offset + 2) 0 = c
  generalize bytes.getD (offset + 3) 0 = d
  have := a.toNat_lt
  have := b.toNat_lt
  have := c.toNat_lt
  have := d.toNat_lt
  simp only [UInt32.toNat_or, UInt32.toNat_shiftLeft, Nat.shiftLeft_eq, UInt8.toNat_toUInt32, ofLe,
    UInt32.reduceToNat, Nat.reduceMod]
  rw [Nat.mod_eq_of_lt (by omega), Nat.mod_eq_of_lt (by omega), Nat.mod_eq_of_lt (by omega),
    or_shiftLeft _ _ 8 (by omega), or_shiftLeft _ _ 16 (by omega), or_shiftLeft _ _ 24 (by omega)]
  omega

/-- What `write_u16` stored is what `read_u16` loads. -/
theorem readU16_le16 (before after : List UInt8) (value : UInt16) :
    readU16 (before ++ (le16 value ++ after)) before.length = value := by
  rw [← UInt16.toNat_inj, toNat_readU16 (by simp), List.drop_left,
    List.take_left' (length_le16 value), le16_eq, ofLe_le value.toNat_lt]

/-- What `write_u32` stored is what `read_u32` loads. -/
theorem readU32_le32 (before after : List UInt8) (value : UInt32) :
    readU32 (before ++ (le32 value ++ after)) before.length = value := by
  rw [← UInt32.toNat_inj, toNat_readU32 (by simp), List.drop_left,
    List.take_left' (length_le32 value), le32_eq, ofLe_le value.toNat_lt]

/-- Loading a halfword and storing it gives the bytes it was loaded from. -/
theorem le16_readU16 {bytes : List UInt8} {offset : Nat} (h : offset + 2 ≤ bytes.length) :
    le16 (readU16 bytes offset) = (bytes.drop offset).take 2 := by
  have hlength : ((bytes.drop offset).take 2).length = 2 := by simp; omega
  have hle := le_ofLe ((bytes.drop offset).take 2)
  rwa [hlength, ← toNat_readU16 h, ← le16_eq] at hle

/-- Loading a word and storing it gives the bytes it was loaded from. -/
theorem le32_readU32 {bytes : List UInt8} {offset : Nat} (h : offset + 4 ≤ bytes.length) :
    le32 (readU32 bytes offset) = (bytes.drop offset).take 4 := by
  have hlength : ((bytes.drop offset).take 4).length = 4 := by simp; omega
  have hle := le_ofLe ((bytes.drop offset).take 4)
  rwa [hlength, ← toNat_readU32 h, ← le32_eq] at hle

/-! ## Bounded buffers -/

/-- A block of memory. A store outside it is not made, and is remembered. -/
structure Buffer where
  bytes : List UInt8
  overrun : Bool := false
  deriving DecidableEq, Repr

namespace Buffer

def size (buffer : Buffer) : Nat := buffer.bytes.length

def zeros (size : Nat) : Buffer := { bytes := List.replicate size 0 }

def store (buffer : Buffer) (index : Nat) (byte : UInt8) : Buffer :=
  if index < buffer.size then { buffer with bytes := buffer.bytes.set index byte }
  else { buffer with overrun := true }

/-- `copy_n` to a place in the buffer. -/
def copy (buffer : Buffer) (index : Nat) (bytes : List UInt8) : Buffer :=
  if index + bytes.length ≤ buffer.size then
    { buffer with
      bytes := buffer.bytes.take index ++ bytes ++ buffer.bytes.drop (index + bytes.length) }
  else { buffer with overrun := true }

/-- The span of the first `n` bytes. -/
def first (buffer : Buffer) (n : Nat) : Buffer := { buffer with bytes := buffer.bytes.take n }

/-- The buffer after a call that was handed the span of its first bytes. -/
def withFirst (buffer span : Buffer) : Buffer where
  bytes := span.bytes ++ buffer.bytes.drop span.size
  overrun := span.overrun || buffer.overrun

@[simp] theorem size_zeros (n : Nat) : (zeros n).size = n := List.length_replicate

@[simp] theorem size_store (buffer : Buffer) (index : Nat) (byte : UInt8) :
    (buffer.store index byte).size = buffer.size := by
  unfold store
  split <;> simp [size]

theorem store_of_lt {buffer : Buffer} {index : Nat} (h : index < buffer.size) (byte : UInt8) :
    buffer.store index byte = { buffer with bytes := buffer.bytes.set index byte } :=
  if_pos h

theorem copy_of_le {buffer : Buffer} {index : Nat} {bytes : List UInt8}
    (h : index + bytes.length ≤ buffer.size) :
    buffer.copy index bytes = { buffer with
      bytes := buffer.bytes.take index ++ bytes ++ buffer.bytes.drop (index + bytes.length) } :=
  if_pos h

theorem size_withFirst {buffer span : Buffer} (h : span.size ≤ buffer.size) :
    (buffer.withFirst span).size = buffer.size := by
  simp only [withFirst, size, List.length_append, List.length_drop] at h ⊢
  omega

/-- Bytes in front of a span are in front of the buffer. -/
theorem withFirst_append {bytes wire : List UInt8} {n : Nat} (h : wire.length ≤ n)
    (hn : n ≤ bytes.length) :
    withFirst { bytes } { bytes := wire ++ (bytes.take n).drop wire.length } =
      { bytes := wire ++ bytes.drop wire.length } := by
  have hspan : wire.length + ((bytes.take n).drop wire.length).length = n := by
    rw [List.length_drop, List.length_take]
    omega
  have hrest : (bytes.take n).drop wire.length ++ bytes.drop n = bytes.drop wire.length := by
    conv_rhs => rw [← List.take_append_drop n bytes, List.drop_append_of_le_length
      (by rw [List.length_take]; omega)]
  simp only [withFirst, size, List.length_append, hspan, List.append_assoc, hrest, Bool.or_false]

/-- A store at a place the bytes are known around. -/
theorem store_mid (before after : List UInt8) (old byte : UInt8) :
    store { bytes := before ++ old :: after } before.length byte =
      { bytes := before ++ byte :: after } := by
  rw [store_of_lt (by simp [size])]
  simp

end Buffer

end WaveformGenerator
