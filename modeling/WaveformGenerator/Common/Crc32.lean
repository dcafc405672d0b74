import Mathlib.Data.UInt

/-!
# CRC-32 (`common/crc32.hpp`)

The zlib-compatible checksum, reflected and driven by a table. Over any split of its input it is
the checksum of the whole.
-/

namespace WaveformGenerator

def crc32Polynomial : UInt32 := 0xEDB88320
def crc32Initial : UInt32 := 0xFFFFFFFF
def crc32FinalXor : UInt32 := 0xFFFFFFFF
def crc32ByteMask : UInt32 := 0xFF

/-- One bit of a table entry's remainder. -/
def crc32Bit (remainder : UInt32) : UInt32 :=
  if remainder &&& 1 ≠ 0 then (remainder >>> 1) ^^^ crc32Polynomial else remainder >>> 1

/-- `crc32_table`, by the byte. -/
def crc32Table (byte : Fin 256) : UInt32 := Nat.repeat crc32Bit 8 (.ofNat byte)

structure Crc32 where
  state : UInt32 := crc32Initial
  deriving DecidableEq, Repr

namespace Crc32

/-- The entry a byte selects: `(state ^ byte) & 0xFF`. -/
def index (state : UInt32) (byte : UInt8) : Fin 256 :=
  ⟨((state ^^^ byte.toUInt32) &&& crc32ByteMask).toNat, by
    rw [UInt32.toNat_and]
    exact Nat.lt_of_le_of_lt Nat.and_le_right (by decide)⟩

def updateByte (crc : Crc32) (byte : UInt8) : Crc32 :=
  ⟨(crc.state >>> 8) ^^^ crc32Table (index crc.state byte)⟩

/-- Continues the checksum over `bytes`. -/
def update (crc : Crc32) (bytes : List UInt8) : Crc32 := bytes.foldl updateByte crc

/-- The checksum of everything given to `update`. -/
def value (crc : Crc32) : UInt32 := crc.state ^^^ crc32FinalXor

theorem update_append (crc : Crc32) (a b : List UInt8) :
    crc.update (a ++ b) = (crc.update a).update b :=
  List.foldl_append

end Crc32

def crc32 (bytes : List UInt8) : UInt32 := (Crc32.update {} bytes).value

/-- The standard check value, that of the ASCII digits. -/
example : crc32 [49, 50, 51, 52, 53, 54, 55, 56, 57] = 0xCBF43926 := by decide +kernel

end WaveformGenerator
