import Mathlib.Data.List.DropRight

/-!
# Spliced streams

A splice takes a run out of a stream, or puts the last elements that went out in again. The splices
of a stream work from its front on; one whose place an earlier one took out does nothing.
-/

namespace WaveformGenerator

structure Splice where
  place : Nat
  repeats : Bool
  length : Nat
  deriving DecidableEq, Repr

namespace Splice

/-- How far a stream is taken, what has gone out for it, and how many splices have worked. -/
structure Track (α : Type u) where
  taken : Nat := 0
  out : List α := []
  worked : Nat := 0

variable {α : Type u} {t : Track α} {stream : List α}

/-- What has gone out once the stream is taken up to a place. -/
def Track.upTo (t : Track α) (stream : List α) (place : Nat) : List α :=
  t.out ++ (stream.take place).drop t.taken

def Track.splice (stream : List α) (t : Track α) (s : Splice) : Track α :=
  if s.place < t.taken then t
  else if s.repeats then
    ⟨s.place, t.upTo stream s.place ++ (t.upTo stream s.place).rtake s.length, t.worked + 1⟩
  else
    ⟨s.place + s.length, t.upTo stream s.place, t.worked + 1⟩

/-- The track behind some splices. -/
def track (stream : List α) (splices : List Splice) : Track α :=
  splices.foldl (Track.splice stream) {}

/-- The splices that a stream reaches. -/
def reached (stream : List α) (splices : List Splice) : List Splice :=
  splices.filter (·.place < stream.length)

/-- A stream with its splices. -/
def spliced (stream : List α) (splices : List Splice) : List α :=
  (track stream (reached stream splices)).upTo stream stream.length

/-! ## What has gone out -/

theorem Track.upTo_of_le {place : Nat} (h : place ≤ t.taken) : t.upTo stream place = t.out := by
  rw [upTo, List.drop_eq_nil_of_le (Nat.le_trans (List.length_take_le ..) h), List.append_nil]

theorem Track.upTo_append {a b : Nat} (htaken : t.taken ≤ a) (hab : a ≤ b) :
    t.upTo stream b = t.upTo stream a ++ (stream.take b).drop a := by
  have hsplit : (stream.take b).take a = stream.take a := by
    rw [List.take_take, Nat.min_eq_left hab]
  have hparts := List.take_append_drop (a - t.taken) ((stream.take b).drop t.taken)
  rw [List.drop_drop, List.take_drop, Nat.add_sub_cancel' htaken, hsplit] at hparts
  rw [upTo, upTo, List.append_assoc, hparts]

theorem Track.length_upTo {place : Nat} (h : place ≤ stream.length) :
    (t.upTo stream place).length = t.out.length + (place - t.taken) := by
  rw [upTo, List.length_append, List.length_drop, List.length_take, Nat.min_eq_left h]

theorem length_rtake (n : Nat) (l : List α) : (l.rtake n).length = min n l.length := by
  rw [List.rtake, List.length_drop]
  omega

theorem rtake_append (a b : List α) (n : Nat) :
    (a ++ b).rtake n = a.rtake (n - b.length) ++ b.rtake n := by
  have hfront : a.drop (a.length + b.length - n) = a.rtake (n - b.length) := by
    rcases Nat.le_total n b.length with hshort | hlong
    · rw [List.rtake, List.drop_eq_nil_of_le (by omega), List.drop_eq_nil_of_le (by omega)]
    · rw [List.rtake]
      congr 1
      omega
  have hback : a.length + b.length - n - a.length = b.length - n := by omega
  rw [List.rtake, List.drop_append, List.length_append, hfront, hback, ← List.rtake]

theorem rtake_rtake (l : List α) {n m : Nat} (h : n ≤ m) : (l.rtake m).rtake n = l.rtake n := by
  rw [List.rtake, length_rtake, List.rtake, List.rtake, List.drop_drop]
  congr 1
  omega

theorem rtake_of_length_le {l : List α} {n : Nat} (h : l.length ≤ n) : l.rtake n = l := by
  rw [List.rtake, Nat.sub_eq_zero_of_le h, List.drop_zero]

end Splice

end WaveformGenerator
