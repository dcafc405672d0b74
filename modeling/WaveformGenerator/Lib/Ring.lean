import Mathlib.Data.Nat.ModEq
import Mathlib.Data.List.Basic

/-!
# Rings

A vector of `c` slots carries an endless stream: item `i` lives in slot `i % c`. `segment` reads
the items from a start on; a store past its end appends, and moving its start drops.
-/

namespace WaveformGenerator.Ring

variable {α : Type u} {c : Nat}

/-- Items less than a ring apart live in different slots. -/
theorem slot_ne {start i n : Nat} (hi : i < n) (hn : n < c) :
    (start + i) % c ≠ (start + n) % c := fun h =>
  have hmod : i ≡ n [MOD c] := Nat.ModEq.add_left_cancel' start h
  absurd (hmod.eq_of_lt_of_lt (Nat.lt_trans hi hn) hn) (Nat.ne_of_lt hi)

variable [NeZero c]

/-- Item `i` of the stream the slots carry. -/
def item (slots : Vector α c) (i : Nat) : α := slots[Fin.ofNat c i]

/-- The `n` items from `start` on. -/
def segment (slots : Vector α c) (start n : Nat) : List α :=
  (List.range n).map fun i => item slots (start + i)

theorem item_congr (slots : Vector α c) {i j : Nat} (h : i % c = j % c) :
    item slots i = item slots j := by
  unfold item
  congr 1
  exact Fin.ext h

@[simp] theorem segment_zero (slots : Vector α c) (start : Nat) : segment slots start 0 = [] := rfl

@[simp] theorem length_segment (slots : Vector α c) (start n : Nat) :
    (segment slots start n).length = n := by
  simp [segment]

theorem getElem?_segment (slots : Vector α c) (start : Nat) {i n : Nat} (h : i < n) :
    (segment slots start n)[i]? = some (item slots (start + i)) := by
  simp [segment, h]

theorem segment_succ (slots : Vector α c) (start n : Nat) :
    segment slots start (n + 1) = segment slots start n ++ [item slots (start + n)] := by
  simp [segment, List.range_succ]

theorem segment_add (slots : Vector α c) (start m n : Nat) :
    segment slots start (m + n) = segment slots start m ++ segment slots (start + m) n := by
  induction n with
  | zero => simp
  | succ n ih => rw [← Nat.add_assoc, segment_succ, ih, segment_succ, List.append_assoc,
      Nat.add_assoc]

theorem take_segment (slots : Vector α c) (start : Nat) {m n : Nat} (h : m ≤ n) :
    (segment slots start n).take m = segment slots start m := by
  rw [← Nat.add_sub_cancel' h, segment_add]
  exact List.take_left' (length_segment ..)

theorem drop_segment (slots : Vector α c) (start : Nat) {m n : Nat} (h : m ≤ n) :
    (segment slots start n).drop m = segment slots (start + m) (n - m) := by
  conv_lhs => rw [← Nat.add_sub_cancel' h, segment_add]
  exact List.drop_left' (length_segment ..)

theorem segment_cons (slots : Vector α c) (start n : Nat) :
    segment slots start (n + 1) = item slots start :: segment slots (start + 1) n := by
  rw [Nat.add_comm n 1, segment_add]
  rfl

theorem segment_congr (slots : Vector α c) {a b : Nat} (h : a % c = b % c) (n : Nat) :
    segment slots a n = segment slots b n := by
  refine List.map_congr_left fun i _ => item_congr slots ?_
  exact Nat.ModEq.add_right i h

theorem item_store_ne (slots : Vector α c) {i j : Nat} (h : i % c ≠ j % c) (x : α) :
    item (slots.setIfInBounds (j % c) x) i = item slots i := by
  simp only [item, Fin.getElem_fin, Fin.val_ofNat]
  rw [Vector.getElem_setIfInBounds_ne _ h.symm]

theorem item_store (slots : Vector α c) (i : Nat) (x : α) :
    item (slots.setIfInBounds (i % c) x) i = x := by
  simp [item]

/-- A store past the end appends to the segment, while the ring has room. -/
theorem segment_store (slots : Vector α c) (start : Nat) {n : Nat} (hn : n < c) (x : α) :
    segment (slots.setIfInBounds ((start + n) % c) x) start (n + 1) =
      segment slots start n ++ [x] := by
  rw [segment_succ, item_store]
  congr 1
  refine List.map_congr_left fun i hi => item_store_ne slots ?_ x
  exact slot_ne (List.mem_range.mp hi) hn

end WaveformGenerator.Ring
