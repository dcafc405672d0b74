import WaveformGenerator.Lib.NumberedFifo
import WaveformGenerator.Playlist.ResultRing

/-!
# The result ring is a numbered FIFO

As long as the 32-bit numbers last, the ring answers every operation as a FIFO does that numbers its
blocks from 1 on without end and holds at most 32.
-/

namespace WaveformGenerator.Playlist

inductive RingOperation
  | push (block : ResultBlock)
  | acknowledge (through : UInt32)
  | copyOldest (size : Nat)
  | full
  | size
  | oldestSeq
  | nextSeq
  deriving DecidableEq, Repr

def RingOperation.isPush : RingOperation → Bool
  | push _ => true
  | _ => false

/-- What an operation returns. -/
inductive RingAnswer
  | status (status : Status)
  | freed (count : Nat)
  | blocks (blocks : List ResultBlock)
  | yesNo (answer : Bool)
  | number (number : Nat)
  deriving DecidableEq, Repr

namespace ResultRing

def perform (ring : ResultRing) : RingOperation → RingAnswer × ResultRing
  | .push block =>
    let (status, ring) := ring.push block
    (.status status, ring)
  | .acknowledge through =>
    match ring.acknowledge through with
    | (.error status, ring) => (.status status, ring)
    | (.ok freed, ring) => (.freed freed.toNat, ring)
  | .copyOldest size => (.blocks (ring.copyOldest size), ring)
  | .full => (.yesNo ring.full, ring)
  | .size => (.number ring.count.toNat, ring)
  | .oldestSeq => (.number ring.oldestSeq.toNat, ring)
  | .nextSeq => (.number ring.nextSeq.toNat, ring)

def answers (ring : ResultRing) : List RingOperation → List RingAnswer
  | [] => []
  | operation :: operations =>
    (ring.perform operation).1 :: (ring.perform operation).2.answers operations

def after (ring : ResultRing) (operations : List RingOperation) : ResultRing :=
  operations.foldl (fun ring operation => (ring.perform operation).2) ring

end ResultRing

/-! ## The FIFO -/

/-- A block with its number in it. -/
def stamped (item : Nat × ResultBlock) : ResultBlock := { item.2 with seq := .ofNat item.1 }

/-- The same operations on a FIFO of blocks. -/
def fifoPerform (fifo : NumberedFifo ResultBlock) :
    RingOperation → RingAnswer × NumberedFifo ResultBlock
  | .push block =>
    match fifo.push resultCapacity block with
    | none => (.status ringFull, fifo)
    | some fifo => (.status .success, fifo)
  | .acknowledge through =>
    match fifo.acknowledge through.toNat with
    | none => (.status ackRange, fifo)
    | some fifo' => (.freed (fifo.items.length - fifo'.items.length), fifo')
  | .copyOldest size => (.blocks ((fifo.items.take size).map stamped), fifo)
  | .full => (.yesNo (fifo.items.length == resultCapacity), fifo)
  | .size => (.number fifo.items.length, fifo)
  | .oldestSeq => (.number fifo.oldest, fifo)
  | .nextSeq => (.number fifo.next, fifo)

def fifoAnswers (fifo : NumberedFifo ResultBlock) : List RingOperation → List RingAnswer
  | [] => []
  | operation :: operations =>
    (fifoPerform fifo operation).1 :: fifoAnswers (fifoPerform fifo operation).2 operations

def fifoAfter (fifo : NumberedFifo ResultBlock) (operations : List RingOperation) :
    NumberedFifo ResultBlock :=
  operations.foldl (fun fifo operation => (fifoPerform fifo operation).2) fifo

/-- The ring holds what the FIFO holds. -/
structure Holds (ring : ResultRing) (fifo : NumberedFifo ResultBlock) : Prop where
  contiguous : fifo.Contiguous
  room : fifo.items.length ≤ resultCapacity
  count : ring.count.toNat = fifo.items.length
  next : ring.nextSeq.toNat = fifo.next
  blocks : Ring.segment ring.blocks ring.first fifo.items.length = fifo.items.map stamped

variable {ring : ResultRing} {fifo : NumberedFifo ResultBlock}

namespace Holds

theorem initial : Holds .initial {} where
  contiguous := NumberedFifo.contiguous_empty
  room := Nat.zero_le _
  count := rfl
  next := rfl
  blocks := rfl

theorem number_lt (h : Holds ring fifo) {item : Nat × ResultBlock} (hitem : item ∈ fifo.items) :
    item.1 < fifo.next := by
  have hnumber := List.mem_map_of_mem (f := (·.1)) hitem
  rw [h.contiguous.numbers, List.mem_range'_1] at hnumber
  have := h.contiguous.positive
  omega

theorem toNat_seq (h : Holds ring fifo) {item : Nat × ResultBlock} (hitem : item ∈ fifo.items) :
    (stamped item).seq.toNat = item.1 := by
  have hlast := h.next ▸ ring.nextSeq.toNat_lt
  exact toNat_ofNat32 (Nat.lt_trans (h.number_lt hitem) hlast)

/-! ### Push -/

theorem full_eq (h : Holds ring fifo) : ring.full = (fifo.items.length == resultCapacity) := by
  rw [ResultRing.full, h.count]

theorem push (h : Holds ring fifo) {fifo' : NumberedFifo ResultBlock} {block : ResultBlock}
    (hpush : fifo.push resultCapacity block = some fifo') (hnext : fifo.next + 1 < 2 ^ 32) :
    ∃ ring', ring.push block = (.success, ring') ∧ Holds ring' fifo' := by
  have hcontiguous := h.contiguous.push hpush
  rw [NumberedFifo.push] at hpush
  split at hpush
  case isFalse => cases hpush
  case isTrue hroom =>
    cases hpush
    have hnotFull : ring.full = false := by
      rw [h.full_eq]
      exact beq_false_of_ne (Nat.ne_of_lt hroom)
    have hone : (1 : UInt32).toNat = 1 := rfl
    refine ⟨_, by rw [ResultRing.push, if_neg (by simp [hnotFull])], hcontiguous, ?_, ?_, ?_, ?_⟩
    · rw [List.length_append, List.length_singleton]
      exact hroom
    · show (ring.count + 1).toNat = _
      have hsmall : fifo.items.length + 1 < 2 ^ 32 := Nat.lt_of_le_of_lt hroom (by decide)
      rw [toNat_add32 (by rw [h.count, hone]; exact hsmall), h.count, List.length_append]
      rfl
    · show (ring.nextSeq + 1).toNat = _
      rw [toNat_add32 (by rw [h.next, hone]; omega), h.next, hone]
    · have hstamp : { block with seq := ring.nextSeq } = stamped (fifo.next, block) := by
        rw [stamped, ← h.next, UInt32.ofNat_toNat]
      show Ring.segment (ring.blocks.setIfInBounds ((ring.first + ring.count.toNat) %
        resultCapacity) _) ring.first (fifo.items ++ [(fifo.next, block)]).length = _
      rw [List.length_append, List.length_singleton, List.map_append, h.count,
        Ring.segment_store _ _ hroom, h.blocks, hstamp]
      rfl

theorem push_refused (h : Holds ring fifo) {block : ResultBlock}
    (hpush : fifo.push resultCapacity block = none) : ring.push block = (ringFull, ring) := by
  rw [NumberedFifo.push] at hpush
  split at hpush
  case isTrue => cases hpush
  case isFalse hfull =>
    have hfull' : ring.full = true := by
      rw [h.full_eq]
      exact beq_iff_eq.mpr (Nat.le_antisymm h.room (Nat.not_lt.mp hfull))
    rw [ResultRing.push, if_pos hfull']

end Holds

/-! ### Acknowledge -/

/-- The loop drops the blocks up to `through` from the front. -/
theorem free_spec (through : UInt32) (ring : ResultRing) (freed : UInt32) :
    ∃ kept first, kept = (Ring.segment ring.blocks ring.first ring.count.toNat).dropWhile
        (·.seq ≤ through) ∧
      ResultRing.free through ring freed =
        (freed + .ofNat (ring.count.toNat - kept.length),
          { ring with first, count := .ofNat kept.length }) ∧
      Ring.segment ring.blocks first kept.length = kept := by
  induction hcount : ring.count.toNat generalizing ring freed with
  | zero =>
    have hzero : ring.count = 0 := UInt32.toNat_inj.mp hcount
    refine ⟨[], ring.first, rfl, ?_, rfl⟩
    rw [ResultRing.free, dif_neg (fun hmore => hmore.1 hzero)]
    simp [← hzero]
  | succ n ih =>
    have hpositive : ring.count ≠ 0 := by
      intro hzero
      rw [hzero] at hcount
      cases hcount
    rw [Ring.segment_cons]
    by_cases hseq : (Ring.item ring.blocks ring.first).seq ≤ through
    · obtain ⟨kept, first, hkept, hfree, hsegment⟩ := ih
        { ring with first := (ring.first + 1) % resultCapacity, count := ring.count - 1 }
        (freed + 1) (by rw [toNat_pred32 hpositive, hcount, Nat.add_sub_cancel])
      have hmod : ((ring.first + 1) % resultCapacity) % resultCapacity =
          (ring.first + 1) % resultCapacity := Nat.mod_mod ..
      rw [Ring.segment_congr _ hmod] at hkept
      have hlength : kept.length ≤ n := by
        have hdropped := (List.dropWhile_suffix (l := Ring.segment ring.blocks (ring.first + 1) n)
          (·.seq ≤ through)).length_le
        rw [Ring.length_segment] at hdropped
        rw [hkept]
        exact hdropped
      refine ⟨kept, first, ?_, ?_, hsegment⟩
      · rw [List.dropWhile_cons_of_pos (by simpa using hseq)]
        exact hkept
      · rw [ResultRing.free, dif_pos ⟨hpositive, hseq⟩, hfree]
        have hadd : freed + 1 + UInt32.ofNat (n - kept.length) =
            freed + UInt32.ofNat (n + 1 - kept.length) := by
          rw [Nat.sub_add_comm hlength, UInt32.ofNat_add, UInt32.add_assoc, UInt32.add_comm 1]
          rfl
        rw [hadd]
    · refine ⟨Ring.segment ring.blocks ring.first (n + 1), ring.first, ?_, ?_, ?_⟩
      · rw [List.dropWhile_cons_of_neg (by simpa using hseq), Ring.segment_cons]
      · rw [ResultRing.free, dif_neg (fun hmore => hseq hmore.2), Ring.length_segment]
        simp [← hcount]
      · rw [Ring.length_segment]

theorem Holds.acknowledge (h : Holds ring fifo) {fifo' : NumberedFifo ResultBlock}
    {through : UInt32} (hacknowledge : fifo.acknowledge through.toNat = some fifo') :
    ∃ freed ring', ring.acknowledge through = (.ok freed, ring') ∧ Holds ring' fifo' ∧
      freed.toNat = fifo.items.length - fifo'.items.length := by
  have hcontiguous := h.contiguous.acknowledge hacknowledge
  rw [NumberedFifo.acknowledge] at hacknowledge
  split at hacknowledge
  case isTrue => cases hacknowledge
  case isFalse hgiven =>
    cases hacknowledge
    obtain ⟨kept, first, hkept, hfree, hsegment⟩ := free_spec through ring 0
    have hitems : kept = (fifo.items.filter (through.toNat < ·.1)).map stamped := by
      rw [hkept, h.count, h.blocks, List.dropWhile_map, NumberedFifo.filter_eq_dropWhile
        h.contiguous.pairwise]
      congr 1
      refine NumberedFifo.dropWhile_congr fun item hitem => ?_
      simp only [Function.comp_apply, UInt32.le_iff_toNat_le, h.toNat_seq hitem]
    have hlength : kept.length = (fifo.items.filter (through.toNat < ·.1)).length := by
      rw [hitems, List.length_map]
    have hle : (fifo.items.filter (through.toNat < ·.1)).length ≤ fifo.items.length :=
      List.length_filter_le ..
    have hroom : fifo.items.length ≤ 32 := h.room
    have hgiven' : ¬ring.nextSeq ≤ through := by
      rw [UInt32.le_iff_toNat_le, h.next]
      exact hgiven
    have hring : ring.acknowledge through = (.ok (0 + .ofNat (ring.count.toNat - kept.length)),
        { ring with first, count := .ofNat kept.length }) := by
      rw [ResultRing.acknowledge, if_neg hgiven', hfree]
    refine ⟨_, _, hring, ⟨hcontiguous, Nat.le_trans hle hroom, ?_, h.next, ?_⟩, ?_⟩
    · rw [hlength]
      exact toNat_ofNat32 (by omega)
    · show Ring.segment ring.blocks first _ = _
      rw [← hitems, ← hsegment, hlength]
    · rw [UInt32.zero_add, h.count, hlength]
      exact toNat_ofNat32 (by omega)

theorem Holds.acknowledge_refused (h : Holds ring fifo) {through : UInt32}
    (hacknowledge : fifo.acknowledge through.toNat = none) :
    ring.acknowledge through = (.error ackRange, ring) := by
  rw [NumberedFifo.acknowledge] at hacknowledge
  split at hacknowledge
  case isFalse => cases hacknowledge
  case isTrue hbeyond =>
    rw [ResultRing.acknowledge, if_pos (by rw [UInt32.le_iff_toNat_le, h.next]; exact hbeyond)]

/-! ### Queries -/

theorem Holds.copyOldest (h : Holds ring fifo) (size : Nat) :
    ring.copyOldest size = (fifo.items.take size).map stamped := by
  have hle : min size fifo.items.length ≤ fifo.items.length := Nat.min_le_right ..
  rw [ResultRing.copyOldest, h.count]
  show Ring.segment ring.blocks ring.first (min size fifo.items.length) = _
  rw [← Ring.take_segment _ _ hle, h.blocks, ← List.map_take, ← List.take_take, List.take_length]

theorem Holds.oldestSeq (h : Holds ring fifo) : ring.oldestSeq.toNat = fifo.oldest := by
  have hblocks := h.blocks
  cases hitems : fifo.items with
  | nil =>
    have hcount : ring.count = 0 := UInt32.toNat_inj.mp (by rw [h.count, hitems]; rfl)
    rw [ResultRing.oldestSeq, if_pos hcount, NumberedFifo.oldest, hitems]
    rfl
  | cons item items =>
    have hcount : ring.count ≠ 0 := by
      intro hzero
      have hlength := h.count
      rw [hzero, hitems] at hlength
      cases hlength
    have hmem : item ∈ fifo.items := hitems ▸ List.mem_cons_self
    rw [hitems, List.length_cons, Ring.segment_cons, List.map_cons] at hblocks
    rw [ResultRing.oldestSeq, if_neg hcount, NumberedFifo.oldest, hitems, (List.cons.inj hblocks).1,
      h.toNat_seq hmem]
    rfl

/-! ## Runs -/

/-- The ring answers as the FIFO. -/
theorem Holds.perform (h : Holds ring fifo) (operation : RingOperation)
    (hnumbers : operation.isPush → fifo.next + 1 < 2 ^ 32) :
    (ring.perform operation).1 = (fifoPerform fifo operation).1 ∧
      Holds (ring.perform operation).2 (fifoPerform fifo operation).2 := by
  cases operation with
  | push block =>
    cases hpush : fifo.push resultCapacity block with
    | none => simp [ResultRing.perform, fifoPerform, hpush, h.push_refused hpush, h]
    | some fifo' =>
      obtain ⟨ring', hring, hholds⟩ := h.push hpush (hnumbers rfl)
      simp [ResultRing.perform, fifoPerform, hpush, hring, hholds]
  | acknowledge through =>
    cases hacknowledge : fifo.acknowledge through.toNat with
    | none =>
      simp [ResultRing.perform, fifoPerform, hacknowledge, h.acknowledge_refused hacknowledge, h]
    | some fifo' =>
      obtain ⟨freed, ring', hring, hholds, hfreed⟩ := h.acknowledge hacknowledge
      simp [ResultRing.perform, fifoPerform, hacknowledge, hring, hholds, hfreed]
  | copyOldest size => exact ⟨congrArg _ (h.copyOldest size), h⟩
  | full => exact ⟨congrArg _ h.full_eq, h⟩
  | size => exact ⟨congrArg _ h.count, h⟩
  | oldestSeq => exact ⟨congrArg _ h.oldestSeq, h⟩
  | nextSeq => exact ⟨congrArg _ h.next, h⟩

theorem next_fifoPerform (fifo : NumberedFifo ResultBlock) (operation : RingOperation) :
    (fifoPerform fifo operation).2.next ≤ fifo.next + if operation.isPush then 1 else 0 := by
  cases operation with
  | push block =>
    cases hpush : fifo.push resultCapacity block with
    | none => simp [fifoPerform, hpush]
    | some fifo' =>
      rw [NumberedFifo.push] at hpush
      split at hpush
      · cases hpush
        simp [fifoPerform, NumberedFifo.push, RingOperation.isPush, *]
      · cases hpush
  | acknowledge through =>
    cases hacknowledge : fifo.acknowledge through.toNat with
    | none => simp [fifoPerform, hacknowledge]
    | some fifo' =>
      rw [NumberedFifo.acknowledge] at hacknowledge
      split at hacknowledge
      · cases hacknowledge
      · cases hacknowledge
        simp [fifoPerform, NumberedFifo.acknowledge, *]
  | _ => exact Nat.le_add_right ..

theorem Holds.after (h : Holds ring fifo) (operations : List RingOperation)
    (hnumbers : fifo.next + operations.countP RingOperation.isPush < 2 ^ 32) :
    ring.answers operations = fifoAnswers fifo operations ∧
      Holds (ring.after operations) (fifoAfter fifo operations) := by
  induction operations generalizing ring fifo with
  | nil => exact ⟨rfl, h⟩
  | cons operation operations ih =>
    rw [List.countP_cons] at hnumbers
    have hnext := next_fifoPerform fifo operation
    obtain ⟨hanswer, hholds⟩ := h.perform operation fun hpush => by
      rw [if_pos hpush] at hnumbers
      omega
    obtain ⟨hanswers, hafter⟩ := ih hholds (by omega)
    exact ⟨congrArg₂ List.cons hanswer hanswers, hafter⟩

/-- What is refused changes nothing. -/
theorem perform_refused (ring : ResultRing) (operation : RingOperation) {status : Status}
    (hrefused : (ring.perform operation).1 = .status status) (hstatus : status ≠ .success) :
    (ring.perform operation).2 = ring := by
  cases operation with
  | push block =>
    cases hfull : ring.full with
    | true => simp [ResultRing.perform, ResultRing.push, hfull]
    | false =>
      simp only [ResultRing.perform, ResultRing.push, hfull] at hrefused
      exact absurd (RingAnswer.status.inj hrefused).symm hstatus
  | acknowledge through =>
    by_cases hbeyond : ring.nextSeq ≤ through
    · simp [ResultRing.perform, ResultRing.acknowledge, hbeyond]
    · simp only [ResultRing.perform, ResultRing.acknowledge, hbeyond] at hrefused
      cases hrefused
  | _ => cases hrefused

/-- While fewer than 2 ^ 32 - 1 blocks are pushed, the ring answers every operation as a FIFO does
that numbers its blocks from 1 on and holds at most 32; it holds what the FIFO holds, and what it
refuses leaves it as it is. -/
theorem resultRing_refines (operations : List RingOperation)
    (h : operations.countP RingOperation.isPush < 2 ^ 32 - 1) :
    ResultRing.initial.answers operations = fifoAnswers {} operations ∧
      Holds (ResultRing.initial.after operations) (fifoAfter {} operations) ∧
      ∀ operation status, status ≠ .success →
        ((ResultRing.initial.after operations).perform operation).1 = .status status →
        ((ResultRing.initial.after operations).perform operation).2 =
          ResultRing.initial.after operations := by
  obtain ⟨hanswers, hholds⟩ := Holds.initial.after operations
    (by show 1 + _ < 2 ^ 32; omega)
  exact ⟨hanswers, hholds, fun operation status hstatus hrefused =>
    perform_refused _ operation hrefused hstatus⟩

/-- Two blocks, of which the host acknowledges one, and a number that is not given. -/
theorem resultRing_refines_two :
    ResultRing.initial.answers [.push {}, .push { item := 1 }, .acknowledge 1, .acknowledge 3,
        .copyOldest 2] =
      [.status .success, .status .success, .freed 1, .status ackRange,
        .blocks [{ seq := 2, item := 1 }]] :=
  (resultRing_refines [.push {}, .push { item := 1 }, .acknowledge 1, .acknowledge 3, .copyOldest 2]
    (by decide)).1.trans (by decide)

end WaveformGenerator.Playlist
