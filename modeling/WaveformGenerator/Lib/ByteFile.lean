import Mathlib.Data.List.Basic

/-!
# Files of bytes

A file's contents and its position. A write puts bytes over what is there, and past the end.
-/

namespace WaveformGenerator

/-! ## Lists written in place -/

section
variable {α : Type u}

/-- `data` put at `offset`. -/
def overwrite (bytes : List α) (offset : Nat) (data : List α) : List α :=
  bytes.take offset ++ data ++ bytes.drop (offset + data.length)

theorem length_overwrite {bytes : List α} {offset : Nat} (h : offset ≤ bytes.length)
    (data : List α) :
    (overwrite bytes offset data).length = max bytes.length (offset + data.length) := by
  simp only [overwrite, List.length_append, List.length_take, List.length_drop]
  omega

@[simp] theorem overwrite_nil (bytes : List α) (offset : Nat) :
    overwrite bytes offset [] = bytes := by
  simp [overwrite]

theorem overwrite_length (bytes data : List α) :
    overwrite bytes bytes.length data = bytes ++ data := by
  simp [overwrite]

/-- A write over the front leaves what follows it. -/
theorem overwrite_zero {front front' : List α} (h : front'.length = front.length)
    (rest : List α) : overwrite (front ++ rest) 0 front' = front' ++ rest := by
  simp [overwrite, h]

/-- Bytes in front of a write stay. -/
theorem take_overwrite {bytes : List α} {offset n : Nat} (hoffset : offset ≤ bytes.length)
    (h : n ≤ offset) (data : List α) : (overwrite bytes offset data).take n = bytes.take n := by
  rw [overwrite, List.append_assoc, List.take_append_of_le_length (by simp; omega),
    List.take_take, Nat.min_eq_left h]

/-- Bytes behind a write stay. -/
theorem drop_overwrite {bytes : List α} {offset n : Nat} {data : List α}
    (hoffset : offset ≤ bytes.length) (h : offset + data.length ≤ n) :
    (overwrite bytes offset data).drop n = bytes.drop n := by
  have hfront : (bytes.take offset ++ data).length = offset + data.length := by simp; omega
  obtain ⟨rest, rfl⟩ := Nat.exists_eq_add_of_le h
  rw [overwrite, ← List.drop_drop, ← hfront, List.drop_left, List.drop_drop, hfront]

/-- The `n` bytes from `offset` on. -/
def slice (bytes : List α) (offset n : Nat) : List α := (bytes.drop offset).take n

theorem length_slice {bytes : List α} {offset n : Nat} (h : offset + n ≤ bytes.length) :
    (slice bytes offset n).length = n := by
  simp only [slice, List.length_take, List.length_drop]
  omega

theorem slice_slice {bytes : List α} {first count offset n : Nat} (h : offset + n ≤ count) :
    slice (slice bytes first count) offset n = slice bytes (first + offset) n := by
  rw [slice, slice, slice, List.drop_take, List.take_take, List.drop_drop,
    Nat.min_eq_left (by omega)]

theorem slice_append_left {front : List α} {offset n : Nat} (h : offset + n ≤ front.length)
    (rest : List α) : slice (front ++ rest) offset n = slice front offset n := by
  rw [slice, List.drop_append_of_le_length (by omega),
    List.take_append_of_le_length (by simp; omega)]
  rfl

/-- A slice a write does not touch. -/
theorem slice_overwrite {bytes : List α} {offset first n : Nat} {data : List α}
    (hoffset : offset ≤ bytes.length)
    (h : first + n ≤ offset ∨ offset + data.length ≤ first) :
    slice (overwrite bytes offset data) first n = slice bytes first n := by
  rcases h with h | h
  · rw [slice, slice, List.take_drop, List.take_drop, take_overwrite hoffset h]
  · rw [slice, drop_overwrite hoffset h]
    rfl

/-- A write right behind a slice makes it longer. -/
theorem slice_overwrite_end {bytes : List α} {offset first n : Nat} {data : List α}
    (hoffset : offset ≤ bytes.length) (h : first + n = offset) :
    slice (overwrite bytes offset data) first (n + data.length) = slice bytes first n ++ data := by
  subst h
  have hfront : (bytes.take (first + n)).length = first + n := by simp; omega
  have hslice : slice bytes first n = (bytes.take (first + n)).drop first := by
    rw [slice, List.drop_take, Nat.add_sub_cancel_left]
  have htotal : ((bytes.take (first + n)).drop first ++ data).length = n + data.length := by
    simp only [List.length_append, List.length_drop, hfront, Nat.add_sub_cancel_left]
  rw [hslice, slice, overwrite, List.append_assoc,
    List.drop_append_of_le_length (by omega), ← List.append_assoc, ← htotal, List.take_left]

end

/-! ## Files -/

structure ByteFile where
  bytes : List UInt8 := []
  position : Nat := 0
  deriving DecidableEq, Repr

namespace ByteFile

def write (file : ByteFile) (data : List UInt8) : ByteFile :=
  { bytes := overwrite file.bytes file.position data, position := file.position + data.length }

def seek (file : ByteFile) (offset : Nat) : ByteFile := { file with position := offset }

/-- A write at the end appends. -/
theorem write_end (bytes data : List UInt8) :
    (ByteFile.mk bytes bytes.length).write data =
      ⟨bytes ++ data, (bytes ++ data).length⟩ := by
  simp only [write, overwrite_length, List.length_append]

end ByteFile
end WaveformGenerator
