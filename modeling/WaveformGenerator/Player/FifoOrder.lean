import WaveformGenerator.Player.OutputFifo

/-!
# The output FIFO keeps order

The ring holds the frames published and not yet consumed, and behind them those the producer has
stored and not yet published. Every step of either end keeps that, so what is played is a prefix
of what was pushed.
-/

namespace WaveformGenerator.Player

/-! ## The ring between its ends -/

theorem ringSlot_eq (index : UInt32) : ringSlot index = Fin.ofNat 32768 index.toNat := by
  refine Fin.ext ?_
  show (index &&& ringMask).toNat = index.toNat % 32768
  rw [UInt32.toNat_and]
  exact Nat.and_two_pow_sub_one_eq_mod index.toNat 15

theorem and_ringMask_toNat (index : UInt32) : (index &&& ringMask).toNat = index.toNat % 32768 :=
  congrArg Fin.val (ringSlot_eq index)

theorem ofNat_mod_ring (n : Nat) : (UInt32.ofNat n).toNat % 32768 = n % 32768 := by
  rw [UInt32.toNat_ofNat']
  omega

theorem length_range (block : SampleBlock) (first : UInt32) (n : Nat) :
    (block.range first n).length = n := by
  simp [SampleBlock.range]

theorem range_succ (block : SampleBlock) (first : UInt32) (n : Nat) :
    block.range first (n + 1) = block.range first n ++ [block.sampleAt (first + .ofNat n)] := by
  simp [SampleBlock.range, List.range_succ]

theorem range_add (block : SampleBlock) (first : UInt32) (m n : Nat) :
    block.range first (m + n) = block.range first m ++ block.range (first + .ofNat m) n := by
  simp [SampleBlock.range, List.range_add, UInt32.add_assoc, Function.comp_def]

/-- The FIFO carries a stream: `played` is out, the rest of `pushed` waits in the ring, and
`staged` stands behind it, not yet published. -/
structure Carries (fifo : OutputFifo) (pushed staged played : List Pcm24Sample) : Prop where
  wrote : fifo.ringWriteTotal = .ofNat pushed.length
  read : fifo.ringReadTotal = .ofNat played.length
  order : played <+: pushed
  room : pushed.length + staged.length ≤ played.length + 32768
  held : Ring.segment fifo.sampleRing played.length
    (pushed.length - played.length + staged.length) = pushed.drop played.length ++ staged
  enqueued : fifo.counters.fileFramesEnqueued = .ofNat pushed.length
  submitted : fifo.counters.fileFramesSubmitted = .ofNat played.length

namespace Carries

variable {fifo fifo' : OutputFifo} {pushed staged played : List Pcm24Sample}

theorem played_le (h : Carries fifo pushed staged played) : played.length ≤ pushed.length :=
  h.order.length_le

/-- The indexes' difference is the fill, however often either has wrapped. -/
theorem fill_toNat (h : Carries fifo pushed staged played) :
    (fifo.ringWriteTotal - fifo.ringReadTotal).toNat = pushed.length - played.length := by
  have hle := h.played_le
  have hroom := h.room
  rw [h.wrote, h.read, UInt32.toNat_sub, UInt32.toNat_ofNat', UInt32.toNat_ofNat']
  omega

/-- What touches neither the ring, its indexes nor the frame counts carries on. -/
theorem congr (h : Carries fifo pushed staged played)
    (ring : fifo'.sampleRing = fifo.sampleRing)
    (wrote : fifo'.ringWriteTotal = fifo.ringWriteTotal)
    (read : fifo'.ringReadTotal = fifo.ringReadTotal)
    (enqueued : fifo'.counters.fileFramesEnqueued = fifo.counters.fileFramesEnqueued)
    (submitted : fifo'.counters.fileFramesSubmitted = fifo.counters.fileFramesSubmitted) :
    Carries fifo' pushed staged played where
  wrote := wrote.trans h.wrote
  read := read.trans h.read
  order := h.order
  room := h.room
  held := by rw [ring]; exact h.held
  enqueued := enqueued.trans h.enqueued
  submitted := submitted.trans h.submitted

/-- What `write_ring` may write fits: the block, the free space, and the ring before its end. -/
theorem writeCount_le (h : Carries fifo pushed [] played) (frames : UInt32) :
    (fifo.writeCount frames).toNat ≤ frames.toNat ∧
      pushed.length + (fifo.writeCount frames).toNat ≤ played.length + 32768 ∧
      pushed.length % 32768 + (fifo.writeCount frames).toNat ≤ 32768 := by
  have hle := h.played_le
  have hroom : pushed.length ≤ played.length + 32768 := h.room
  have hfill := h.fill_toNat
  have hcapacity : ringCapacityFrames.toNat = 32768 := rfl
  have hoffset : (fifo.ringWriteTotal &&& ringMask).toNat = pushed.length % 32768 := by
    rw [and_ringMask_toNat, h.wrote, ofNat_mod_ring]
  have hend : (ringCapacityFrames - (fifo.ringWriteTotal &&& ringMask)).toNat =
      32768 - pushed.length % 32768 := by
    rw [UInt32.toNat_sub_of_le _ _ (UInt32.le_iff_toNat_le.mpr (by rw [hoffset, hcapacity]; omega)),
      hoffset, hcapacity]
  have hfree : (if fifo.ringWriteTotal - fifo.ringReadTotal ≥ ringCapacityFrames then 0
      else ringCapacityFrames - (fifo.ringWriteTotal - fifo.ringReadTotal)).toNat ≤
        32768 - (pushed.length - played.length) := by
    split
    · exact Nat.zero_le _
    · rename_i hused
      rw [ge_iff_le, UInt32.le_iff_toNat_le, hfill, hcapacity] at hused
      rw [UInt32.toNat_sub_of_le _ _
        (UInt32.le_iff_toNat_le.mpr (by rw [hfill, hcapacity]; omega)), hfill, hcapacity]
  simp only [OutputFifo.writeCount, toNat_min32]
  omega

/-- A frame is stored behind those staged. -/
theorem store (h : Carries fifo pushed staged played)
    (free : pushed.length + staged.length < played.length + 32768)
    (inside : pushed.length % 32768 + staged.length < 32768) (sample : Pcm24Sample) :
    Carries (fifo.storeFrame fifo.ringWriteTotal (.ofNat staged.length) sample)
      pushed (staged ++ [sample]) played where
  wrote := h.wrote
  read := h.read
  order := h.order
  room := by
    rw [List.length_append, List.length_singleton]
    omega
  held := by
    have hle := h.played_le
    have hslot : ((fifo.ringWriteTotal &&& ringMask) + .ofNat staged.length).toNat =
        (played.length + (pushed.length - played.length + staged.length)) % 32768 := by
      rw [UInt32.toNat_add, and_ringMask_toNat, h.wrote, ofNat_mod_ring, UInt32.toNat_ofNat']
      omega
    rw [List.length_append, List.length_singleton, ← Nat.add_assoc, OutputFifo.storeFrame]
    simp only [hslot]
    rw [Ring.segment_store _ _ (by omega), h.held, List.append_assoc]
  enqueued := h.enqueued
  submitted := h.submitted

/-- The staged frames are published. -/
theorem publish (h : Carries fifo pushed staged played) :
    Carries (fifo.publishWritten fifo.ringWriteTotal (.ofNat staged.length))
      (pushed ++ staged) [] played where
  wrote := by
    rw [List.length_append, UInt32.ofNat_add, ← h.wrote]
    rfl
  read := h.read
  order := h.order.trans (List.prefix_append ..)
  room := by
    rw [List.length_append]
    exact h.room
  held := by
    have hle := h.played_le
    rw [List.length_append, List.length_nil, Nat.add_zero, List.append_nil,
      List.drop_append_of_le_length hle, Nat.sub_add_comm hle]
    exact h.held
  enqueued := by
    rw [List.length_append, UInt32.ofNat_add, ← h.enqueued]
    rfl
  submitted := h.submitted

/-- What a consume copies are the next frames pushed. -/
theorem copyFromRing_eq (h : Carries fifo pushed staged played) {copied : UInt32}
    (le : copied.toNat ≤ pushed.length - played.length) :
    fifo.copyFromRing fifo.ringReadTotal copied =
      (pushed.drop played.length).take copied.toNat := by
  have hitems : fifo.copyFromRing fifo.ringReadTotal copied =
      Ring.segment fifo.sampleRing played.length copied.toNat := by
    refine List.map_congr_left fun i _ => ?_
    have hslot : ringSlot (fifo.ringReadTotal + .ofNat i) =
        Fin.ofNat 32768 (played.length + i) := by
      rw [ringSlot_eq, h.read, ← UInt32.ofNat_add]
      exact Fin.ext (ofNat_mod_ring _)
    exact congrArg (fun slot : Fin 32768 => fifo.sampleRing[slot]) hslot
  have hlength : (pushed.drop played.length).length = pushed.length - played.length :=
    List.length_drop
  rw [hitems, ← Ring.take_segment (n := pushed.length - played.length + staged.length) _ _
    (by omega), h.held, List.take_append_of_le_length (by omega)]

/-- The frames a consume copies leave the ring, in order. -/
theorem consume (h : Carries fifo pushed staged played) {copied : UInt32}
    (le : copied.toNat ≤ pushed.length - played.length) (frames : UInt32) :
    Carries (fifo.publishConsumed fifo.ringReadTotal copied frames) pushed staged
      (played ++ fifo.copyFromRing fifo.ringReadTotal copied) := by
  have hle := h.played_le
  have hroom := h.room
  have hlength : (fifo.copyFromRing fifo.ringReadTotal copied).length = copied.toNat := by
    simp [OutputFifo.copyFromRing]
  have hcopied := h.copyFromRing_eq le
  have hread : (fifo.publishConsumed fifo.ringReadTotal copied frames).ringReadTotal =
      fifo.ringReadTotal + copied := by
    unfold OutputFifo.publishConsumed
    dsimp only
    split <;> rfl
  have hkept : (fifo.publishConsumed fifo.ringReadTotal copied frames).sampleRing =
        fifo.sampleRing ∧
      (fifo.publishConsumed fifo.ringReadTotal copied frames).ringWriteTotal =
        fifo.ringWriteTotal := by
    unfold OutputFifo.publishConsumed
    dsimp only
    split <;> exact ⟨rfl, rfl⟩
  have hcounts :
      (fifo.publishConsumed fifo.ringReadTotal copied frames).counters.fileFramesEnqueued =
        fifo.counters.fileFramesEnqueued ∧
      (fifo.publishConsumed fifo.ringReadTotal copied frames).counters.fileFramesSubmitted =
        fifo.counters.fileFramesSubmitted + copied := by
    unfold OutputFifo.publishConsumed OutputFifo.noteRingDepth
    dsimp only
    constructor <;> split <;> split <;> rfl
  refine ⟨hkept.2.trans h.wrote, ?_, ?_, ?_, ?_, hcounts.1.trans h.enqueued, ?_⟩
  · rw [hread, List.length_append, hlength, UInt32.ofNat_add, UInt32.ofNat_toNat, h.read]
  · obtain ⟨rest, rfl⟩ := h.order
    rw [hcopied, List.drop_left, List.prefix_append_right_inj]
    exact List.take_prefix ..
  · rw [List.length_append, hlength]
    omega
  · rw [List.length_append, hlength, hkept.1,
      show pushed.length - (played.length + copied.toNat) + staged.length =
        pushed.length - played.length + staged.length - copied.toNat by omega,
      ← Ring.drop_segment _ _ (by omega), h.held,
      List.drop_append_of_le_length (by rw [List.length_drop]; exact le), List.drop_drop]
  · rw [hcounts.2, h.submitted, List.length_append, hlength, UInt32.ofNat_add,
      UInt32.ofNat_toNat]

end Carries

end WaveformGenerator.Player
