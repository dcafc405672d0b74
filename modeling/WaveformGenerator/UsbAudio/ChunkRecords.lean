import WaveformGenerator.Lib.Ring
import WaveformGenerator.UsbAudio.Format

/-!
# Chunk records (`rt1170/usb_audio.cpp`)

A ring of eight records, one for each chunk written to the FIFO and not yet confirmed sent. Each
operation does to the records in order what its name says.
-/

namespace WaveformGenerator.UsbAudio

structure ChunkRecord where
  start : FrameCount := 0
  fileFrames : FrameCount := 0
  crc32Left : UInt32 := 0
  crc32Right : UInt32 := 0
  deriving DecidableEq, Repr

def chunkRecordCapacity : Nat := 8
def recordIndexMask : Nat := chunkRecordCapacity - 1

def chunkRecordsFull : Status := ⟨.bufferTooSmall, "UAC2 chunk records full"⟩

structure ChunkRecords where
  records : Vector ChunkRecord 8 := .replicate 8 {}
  first : Fin 8 := 0
  count : Nat := 0
  deriving DecidableEq, Repr

namespace ChunkRecords

def isEmpty (r : ChunkRecords) : Bool := r.count == 0

def isFull (r : ChunkRecords) : Bool := r.count == chunkRecordCapacity

/-- The slot `i` places behind the oldest record's: `(first_ + i) & record_index_mask`. -/
def slot (r : ChunkRecords) (i : Nat) : Fin 8 :=
  ⟨(r.first + i) &&& recordIndexMask, Nat.lt_of_le_of_lt Nat.and_le_right (by decide)⟩

def push (r : ChunkRecords) (record : ChunkRecord) : Status × ChunkRecords :=
  if r.isFull then
    (chunkRecordsFull, r)
  else
    (.success, { r with
      records := r.records.setIfInBounds (r.slot r.count) record
      count := r.count + 1 })

def front (r : ChunkRecords) : Option ChunkRecord :=
  if r.isEmpty then none else some r.records[r.first]

def pop (r : ChunkRecords) : ChunkRecords :=
  if r.isEmpty then r else { r with first := r.slot 1, count := r.count - 1 }

def dropNewest (r : ChunkRecords) : ChunkRecords :=
  if r.isEmpty then r else { r with count := r.count - 1 }

def clear (r : ChunkRecords) : ChunkRecords := { r with first := 0, count := 0 }

theorem slot_lt (r : ChunkRecords) (i : Nat) : (r.slot i).val < 8 := (r.slot i).isLt

/-- The slots once the file frames of the `n` oldest records are forgotten. -/
def forgetUpTo (r : ChunkRecords) : Nat → Vector ChunkRecord 8
  | 0 => r.records
  | n + 1 =>
    (r.forgetUpTo n).setIfInBounds (r.slot n)
      { getElem (r.forgetUpTo n) (r.slot n) (slot_lt r n) with fileFrames := 0 }

/-- A new play starts: the queued chunks carry no file frames for it. -/
def forgetFileFrames (r : ChunkRecords) : ChunkRecords :=
  { r with records := r.forgetUpTo r.count }

/-! ## The records in order -/

/-- The records, oldest first. -/
def toList (r : ChunkRecords) : List ChunkRecord := Ring.segment r.records r.first r.count

@[simp] theorem length_toList (r : ChunkRecords) : r.toList.length = r.count :=
  Ring.length_segment ..

theorem slot_val (r : ChunkRecords) (i : Nat) : (r.slot i).val = (r.first + i) % 8 :=
  Nat.and_two_pow_sub_one_eq_mod (r.first + i) 3

theorem item_slot (r : ChunkRecords) (records : Vector ChunkRecord 8) (i : Nat) :
    getElem records (r.slot i) (slot_lt r i) = Ring.item records (r.first + i) :=
  congrArg (fun j : Fin 8 => records[j]) (Fin.ext (r.slot_val i))

/-- A record pushed while there is room is the newest. -/
theorem push_of_lt (r : ChunkRecords) (record : ChunkRecord) (h : r.count < 8) :
    (r.push record).1 = .success ∧ (r.push record).2.toList = r.toList ++ [record] ∧
      (r.push record).2.count = r.count + 1 := by
  have hroom : ¬ r.isFull = true := by
    simp [isFull, chunkRecordCapacity]
    omega
  rw [push, if_neg hroom]
  refine ⟨rfl, ?_, rfl⟩
  simp only [toList, slot_val]
  exact Ring.segment_store r.records r.first h record

theorem front_eq (r : ChunkRecords) : r.front = r.toList.head? := by
  unfold front isEmpty toList
  cases hcount : r.count with
  | zero => rfl
  | succ n =>
    rw [if_neg (by simp), Ring.segment_cons, List.head?_cons]
    have hfirst : Fin.ofNat 8 r.first = r.first := Fin.ofNat_val_eq_self _
    simp only [Ring.item, hfirst]

theorem toList_pop (r : ChunkRecords) : r.pop.toList = r.toList.tail := by
  unfold pop isEmpty toList
  cases hcount : r.count with
  | zero => simp [hcount]
  | succ n =>
    rw [if_neg (by simp), Ring.segment_cons, List.tail_cons]
    simp only [slot_val, Nat.add_sub_cancel]
    exact Ring.segment_congr _ (Nat.mod_mod ..) n

theorem item_forgetUpTo (r : ChunkRecords) {n i : Nat} (hn : n ≤ 8) (hi : i < 8) :
    Ring.item (r.forgetUpTo n) (r.first + i) =
      if i < n then { Ring.item r.records (r.first + i) with fileFrames := 0 }
      else Ring.item r.records (r.first + i) := by
  induction n with
  | zero => rfl
  | succ n ih =>
    rw [forgetUpTo, item_slot, slot_val]
    rcases Nat.lt_trichotomy i n with hlt | rfl | hgt
    · rw [Ring.item_store_ne _ (Ring.slot_ne hlt (by omega)), ih (by omega), if_pos hlt,
        if_pos (by omega)]
    · rw [Ring.item_store, ih (by omega), if_neg (by omega), if_pos (by omega)]
    · rw [Ring.item_store_ne _ (Ring.slot_ne hgt (by omega)).symm, ih (by omega),
        if_neg (by omega), if_neg (by omega)]

theorem toList_forgetFileFrames (r : ChunkRecords) (h : r.count ≤ 8) :
    r.forgetFileFrames.toList = r.toList.map fun record => { record with fileFrames := 0 } := by
  simp only [toList, forgetFileFrames, Ring.segment, List.map_map]
  refine List.map_congr_left fun i hi => ?_
  have hlt := List.mem_range.mp hi
  rw [item_forgetUpTo r h (by omega), if_pos hlt]
  rfl

end ChunkRecords

end WaveformGenerator.UsbAudio
