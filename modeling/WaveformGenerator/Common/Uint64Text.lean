import Mathlib.Data.UInt

/-!
# Numbers as text (`common/uint64_text.hpp`)

The digits of a 64-bit number, decimal or lowercase hexadecimal, padded with zeros to a least count.
-/

namespace WaveformGenerator

/-- The bases that `uint64_text` admits. -/
inductive Uint64Base
  | decimal
  | hexadecimal
  deriving DecidableEq, Repr

namespace Uint64Base

def value : Uint64Base → UInt64
  | decimal => 10
  | hexadecimal => 16

end Uint64Base

/-- `digits`. -/
def uint64Digits : List Char := "0123456789abcdef".toList

theorem toNat_div_base (base : Uint64Base) (value : UInt64) :
    (value / base.value).toNat = value.toNat / base.value.toNat := UInt64.toNat_div ..

/-- The loop of `uint64_text` behind `count` digits, the lowest digit first. -/
def uint64DigitsFrom (base : Uint64Base) (minimumDigits : Nat) (value : UInt64) (count : Nat) :
    List Char :=
  let digit := uint64Digits.getD (value % base.value).toNat '0'
  if value / base.value ≠ 0 ∨ count + 1 < minimumDigits then
    digit :: uint64DigitsFrom base minimumDigits (value / base.value) (count + 1)
  else
    [digit]
termination_by value.toNat + (minimumDigits - count)
decreasing_by
  rename_i hmore
  rw [toNat_div_base]
  have hbase : 2 ≤ base.value.toNat := by cases base <;> decide
  have hle : value.toNat / base.value.toNat ≤ value.toNat := Nat.div_le_self ..
  rcases hmore with hvalue | hcount
  · have hpositive : value.toNat ≠ 0 := by
      intro hzero
      apply hvalue
      rw [← UInt64.toNat_inj, toNat_div_base, hzero, Nat.zero_div]
      rfl
    have hlt := Nat.div_lt_self (Nat.pos_of_ne_zero hpositive) hbase
    omega
  · omega

/-- `uint64_text` of a base and a least count of digits, up to its NUL. -/
def uint64TextOf (base : Uint64Base) (minimumDigits : Nat) (value : UInt64) : List Char :=
  (uint64DigitsFrom base minimumDigits value 0).reverse

/-- `uint64_text` as it is called without template arguments. -/
def uint64Text (value : UInt64) : List Char := uint64TextOf .decimal 1 value

/-- The array that holds the text has room for its NUL behind the longest. -/
def uint64TextStorageSize : Nat := 21

end WaveformGenerator
