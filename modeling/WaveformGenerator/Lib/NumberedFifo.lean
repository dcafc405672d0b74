import Mathlib.Data.List.Basic

/-!
# Numbered FIFOs

Items are numbered from 1 as they are pushed. An acknowledgement of a number frees the items with it
and below; a FIFO that holds as many items as it may takes none.
-/

namespace WaveformGenerator

structure NumberedFifo (α : Type u) where
  /-- The items held, oldest first. -/
  items : List (Nat × α) := []
  /-- The number that the next item gets. -/
  next : Nat := 1

namespace NumberedFifo

variable {α : Type u}

/-- None when `capacity` items are held. -/
def push (capacity : Nat) (fifo : NumberedFifo α) (x : α) : Option (NumberedFifo α) :=
  if fifo.items.length < capacity then
    some ⟨fifo.items ++ [(fifo.next, x)], fifo.next + 1⟩
  else none

/-- None for a number that has not been given. -/
def acknowledge (fifo : NumberedFifo α) (through : Nat) : Option (NumberedFifo α) :=
  if fifo.next ≤ through then none
  else some { fifo with items := fifo.items.filter (through < ·.1) }

/-- The number of the oldest item, 0 when there is none. -/
def oldest (fifo : NumberedFifo α) : Nat := (fifo.items.head?.map (·.1)).getD 0

/-- The numbers held are the last ones given. -/
structure Contiguous (fifo : NumberedFifo α) : Prop where
  positive : fifo.items.length < fifo.next
  numbers : fifo.items.map (·.1) =
    List.range' (fifo.next - fifo.items.length) fifo.items.length

variable {fifo fifo' : NumberedFifo α}

theorem contiguous_empty : Contiguous ({} : NumberedFifo α) := ⟨Nat.one_pos, rfl⟩

theorem Contiguous.push (h : fifo.Contiguous) {capacity : Nat} {x : α}
    (hpush : fifo.push capacity x = some fifo') : fifo'.Contiguous := by
  rw [NumberedFifo.push] at hpush
  split at hpush
  case isFalse => exact nomatch hpush
  case isTrue =>
    cases hpush
    have hpositive := h.positive
    have hstart : fifo.next + 1 - (fifo.items.length + 1) = fifo.next - fifo.items.length := by omega
    have hlast : fifo.next - fifo.items.length + fifo.items.length = fifo.next := by omega
    refine ⟨?_, ?_⟩
    · rw [List.length_append, List.length_singleton]
      exact Nat.add_lt_add_right hpositive 1
    · rw [List.map_append, h.numbers, List.length_append, List.length_singleton, hstart,
        List.range'_1_concat, hlast]
      rfl

theorem dropWhile_congr {l : List α} {p q : α → Bool} (h : ∀ x ∈ l, p x = q x) :
    l.dropWhile p = l.dropWhile q := by
  induction l with
  | nil => rfl
  | cons x l ih =>
    rw [List.forall_mem_cons] at h
    rw [List.dropWhile_cons, List.dropWhile_cons, h.1, ih h.2]

/-- Of ascending numbers, those past one are what is left behind the others. -/
theorem filter_eq_dropWhile {items : List (Nat × α)} (h : items.Pairwise (·.1 < ·.1))
    (through : Nat) : items.filter (through < ·.1) = items.dropWhile (·.1 ≤ through) := by
  induction items with
  | nil => rfl
  | cons item items ih =>
    rw [List.pairwise_cons] at h
    by_cases hitem : item.1 ≤ through
    · rw [List.filter_cons_of_neg (by simpa using hitem),
        List.dropWhile_cons_of_pos (by simpa using hitem), ih h.2]
    · rw [List.dropWhile_cons_of_neg (by simpa using hitem), List.filter_eq_self.mpr]
      intro other hother
      rcases List.mem_cons.mp hother with rfl | hother
      · simpa using hitem
      · have hless := h.1 other hother
        simp only [decide_eq_true_eq]
        omega

theorem Contiguous.pairwise (h : fifo.Contiguous) : fifo.items.Pairwise (·.1 < ·.1) := by
  have hnumbers : (fifo.items.map (·.1)).Pairwise (· < ·) := by
    rw [h.numbers]
    exact List.pairwise_lt_range'
  exact List.pairwise_map.mp hnumbers

theorem Contiguous.acknowledge (h : fifo.Contiguous) {through : Nat}
    (hacknowledge : fifo.acknowledge through = some fifo') : fifo'.Contiguous := by
  rw [NumberedFifo.acknowledge] at hacknowledge
  split at hacknowledge
  case isTrue => exact nomatch hacknowledge
  case isFalse =>
    cases hacknowledge
    have hsuffix : fifo.items.filter (through < ·.1) <:+ fifo.items := by
      rw [filter_eq_dropWhile h.pairwise]
      exact List.dropWhile_suffix _
    obtain ⟨front, hfront⟩ := hsuffix
    have hlength := congrArg List.length hfront
    have hpositive := h.positive
    rw [List.length_append] at hlength
    refine ⟨by show (fifo.items.filter _).length < fifo.next; omega, ?_⟩
    have hnumbers := h.numbers
    rw [← hfront, List.map_append, hfront, ← hlength,
      ← List.range'_append_1 (m := front.length)] at hnumbers
    have hsplit := List.append_inj_right hnumbers (by simp)
    rw [show _ = _ from hsplit]
    congr 1
    show _ = fifo.next - (fifo.items.filter _).length
    omega

end NumberedFifo

end WaveformGenerator
