import WaveformGenerator.UsbAudio.BusRun

/-!
# A play that never runs dry

Once the FIFO holds only the play's chunks, each completion confirms one of them and takes another
from the source.
-/

namespace WaveformGenerator.UsbAudio

/-- A completion leaves the scheduled start as it is. -/
theorem UacStream.startAt_commit (s : UacStream) (completion : Completion) (level : ByteCount) :
    (s.commit completion level).startAt = s.startAt := by
  have hnoted : (((s.noteProgress completion.tick).confirmLoaded level).2.noteMismatch
      completion.sent ((s.noteProgress completion.tick).confirmLoaded level).1).startAt =
        s.startAt := noteMismatch_kept (f := startAt) _ _ _ fun _ _ => rfl
  unfold commit
  dsimp only
  generalize ((s.noteProgress completion.tick).confirmLoaded level).2.noteMismatch
    completion.sent ((s.noteProgress completion.tick).confirmLoaded level).1 = noted at hnoted ⊢
  split
  · exact hnoted
  · refine ((retireWithin_credits ..).kept (f := startAt) fun _ _ => rfl).trans ?_
    refine ((trackInterval_recounts ..).kept (f := startAt) fun _ _ => rfl).trans ?_
    exact hnoted

/-! ## One chunk a completion -/

namespace Queueing

variable {s : UacStream} {fifo : TinyUsbFifo} {loaded : Option (List UInt8)} {h : History}

theorem hasRoom_of_lt (q : Queueing s.ledger fifo loaded h) (room : h.queue.length < 2) :
    s.hasRoom fifo = true := by
  have hpos := frameBytes_pos q.format
  obtain ⟨hpacket, htarget, hfits⟩ := packetBytes_toNat q.format
  have hcapacity : fifoCapacityBytes.toNat = 1536 := rfl
  have hcount : s.records.count = h.pending.length := q.length_records
  have hthree := q.length_pending_le
  have hlevel : fifo.level ≤ (packetBytes s.ledger.format).toNat := by
    rw [q.level_eq]
    exact (Nat.mul_le_mul_right _ (Nat.le_of_lt_succ room)).trans_eq (Nat.one_mul _)
  have hlevel32 : (UInt32.ofNat fifo.level).toNat = fifo.level := toNat_ofNat32 (by omega)
  have hnotFull : s.records.isFull = false := by
    have hcapacity : chunkRecordCapacity = 8 := rfl
    rw [ChunkRecords.isFull, beq_eq_false_iff_ne]
    omega
  have hbelow : InFifo.queued fifo + packetBytes s.ledger.format ≤
      fifoTargetBytes s.ledger.format := by
    rw [UInt32.le_iff_toNat_le, UInt32.toNat_add, htarget]
    show ((UInt32.ofNat fifo.level).toNat + _) % _ ≤ _
    omega
  have hfree : InFifo.freeSpace fifo ≥ packetBytes s.ledger.format := by
    show packetBytes s.ledger.format ≤ fifoCapacityBytes - UInt32.ofNat fifo.level
    rw [UInt32.le_iff_toNat_le, UInt32.toNat_sub_of_le _ _ (UInt32.le_iff_toNat_le.mpr (by omega))]
    omega
  unfold UacStream.hasRoom
  rw [hnotFull]
  exact Bool.and_eq_true_iff.mpr ⟨decide_eq_true hbelow, decide_eq_true hfree⟩

/-- With two chunks in the FIFO a top-up writes none. -/
theorem topUpWithin_full {σ : Type} [FrameSource σ] {feed : UacStream.Feed TinyUsbFifo σ}
    (q : Queueing feed.stream.ledger feed.fifo loaded h) (full : h.queue.length = 2)
    (limit : Nat) : UacStream.topUpWithin limit feed = feed := by
  cases limit with
  | zero => rfl
  | succ limit =>
    unfold UacStream.topUpWithin
    rw [if_neg fun hroom => absurd (q.room_of_hasRoom hroom) (by omega)]

/-- With one, and the play armed and started, it takes the source's next chunk. -/
theorem topUp_one {σ : Type} [FrameSource σ] (source : σ)
    (q : Queueing s.ledger fifo loaded h) (one : h.queue.length = 1)
    (armed : s.play.armed = true) (started : s.startAt = none) :
    (s.topUp fifo source).written =
        [⟨(FrameSource.fill source).2.1, min (FrameSource.fill source).1 chunkFrames⟩] ∧
      (s.topUp fifo source).stream.startAt = none ∧
      (s.topUp fifo source).stream.ledger = s.ledger.queueChunk (FrameSource.fill source).2.1
        (min (FrameSource.fill source).1 chunkFrames) := by
  have hfill : s.fill source =
      (min (FrameSource.fill source).1 chunkFrames, { s with chunk := (FrameSource.fill source).2.1 },
        (FrameSource.fill source).2.2) := by
    have hreached : s.startReached = (true, s) := by
      unfold UacStream.startReached
      rw [started]
    unfold UacStream.fill
    rw [armed, hreached]
    rfl
  have hle : (min (FrameSource.fill source).1 chunkFrames).toNat ≤ 48 := by
    rw [toNat_min32]
    exact Nat.min_le_right ..
  rcases hsource : FrameSource.fill source with ⟨supplied, chunk, source'⟩
  rw [hsource] at hfill hle
  dsimp only at hfill hle ⊢
  generalize min supplied chunkFrames = fileFrames at hfill hle ⊢
  have q' : Queueing ({ s with chunk } : UacStream).ledger fifo loaded h := q
  obtain ⟨hstatus, hqueued, hfifo⟩ := q'.queueChunk_eq (by omega) fileFrames
  have hstart : (({ s with chunk } : UacStream).queueChunk fifo fileFrames).2.1.startAt = none := by
    unfold UacStream.queueChunk
    dsimp only
    split
    · exact started
    · split <;> exact started
  have hroom := q.hasRoom_of_lt (by omega)
  have hfull : (h.write ⟨chunk, fileFrames⟩).queue.length = 2 := by
    simp only [History.write, List.length_append, List.length_singleton, one]
  have hq := q'.write (by omega) ⟨chunk, fileFrames⟩ hle
  unfold UacStream.topUp
  rw [show fifoTargetChunks.toNat = 1 + 1 from rfl, UacStream.topUpWithin]
  dsimp only
  rw [if_pos hroom, hfill]
  dsimp only
  generalize ({ s with chunk } : UacStream).queueChunk fifo fileFrames = queued
    at hstatus hqueued hfifo hstart
  obtain ⟨status, stream', fifo'⟩ := queued
  dsimp only at hstatus hqueued hfifo hstart ⊢
  subst hstatus hfifo
  rw [if_pos Status.isOk_success]
  rw [← hqueued] at hq
  rw [topUpWithin_full hq hfull]
  exact ⟨rfl, hstart, hqueued⟩

end Queueing

namespace Bus

variable {s : Bus} {σ : Type} [FrameSource σ] {frames : Nat}

/-- The FIFO and the endpoint hold three chunks of the play, each with `frames` of its frames, and
the play takes more. -/
structure Fed (s : Bus) (frames : Nat) : Prop where
  inv : s.Inv
  isOpen : s.stream.counters.state ≠ .closed
  armed : s.stream.play.armed = true
  started : s.stream.startAt = none
  flying : s.history.flying.isSome = true
  queue : s.history.queue.length = 2
  framesFor : ∀ c ∈ s.history.pending, (c.framesFor s.history.plays).length = frames

/-- The chunk in flight, and its record. -/
theorem Fed.oldest (f : s.Fed frames) :
    ∃ c r rest, s.history.flying = some c ∧ s.stream.ledger.records.toList = r :: rest ∧
      s.stream.ledger.commit (.ofNat (⟨s.fifo.packets.tail⟩ : TinyUsbFifo).level) =
        Ledger.credit { s.stream.ledger with
          inFlight := s.history.queue.head?.isSome
          state := .streaming
          framesSent := s.stream.ledger.framesSent + 48 } r ∧
      r.start = .ofNat (48 * s.history.completed) ∧ r.fileFrames.toNat = frames := by
  have q := f.inv.queueing f.isOpen
  obtain ⟨c, hc⟩ := Option.isSome_iff_exists.mp f.flying
  have hpending : s.history.pending = c :: s.history.queue := by
    rw [History.pending, hc]
    rfl
  have hrecords := q.records
  have hplaces := q.places
  rw [hpending, List.forall₂_cons_right_iff] at hrecords
  obtain ⟨r, rest, hrecorded, -, hr⟩ := hrecords
  rw [hpending, List.map_cons, List.length_cons, List.range'_succ, List.cons.injEq] at hplaces
  refine ⟨c, r, rest, hc, hr, q.commit_data hc hr, ?_, ?_⟩
  · rw [hrecorded.start, hplaces.1]
  · rw [hrecorded.fileFrames]
    exact f.framesFor c (hpending ▸ List.mem_cons_self ..)

/-- A completion confirms the chunk in flight and takes one from the source. -/
theorem Fed.txDone (f : s.Fed frames) (completion : Completion) (source : σ) :
    (s.step (.txDone completion source)).history =
        s.history.load.write
          ⟨(FrameSource.fill source).2.1, min (FrameSource.fill source).1 chunkFrames⟩ ∧
      (s.step (.txDone completion source)).stream.startAt = none ∧
      (s.step (.txDone completion source)).stream.ledger =
        (s.stream.ledger.commit (.ofNat (⟨s.fifo.packets.tail⟩ : TinyUsbFifo).level)).queueChunk
          (FrameSource.fill source).2.1 (min (FrameSource.fill source).1 chunkFrames) := by
  have hcommit := (f.inv.queueing f.isOpen).commit
  have hledger := s.stream.ledger_commit completion
    (.ofNat (⟨s.fifo.packets.tail⟩ : TinyUsbFifo).level)
  have hstarted := s.stream.startAt_commit completion
    (.ofNat (⟨s.fifo.packets.tail⟩ : TinyUsbFifo).level)
  have harmed : (s.stream.commit completion
      (.ofNat (⟨s.fifo.packets.tail⟩ : TinyUsbFifo).level)).ledger.armed = true := by
    obtain ⟨-, r, -, -, -, hcredit, -, -⟩ := f.oldest
    rw [hledger, hcredit]
    unfold Ledger.credit
    split
    · exact f.armed
    · exact f.armed
  have hone : s.history.load.queue.length = 1 := by
    rw [History.load, List.length_tail, f.queue]
  rw [← hledger] at hcommit
  obtain ⟨hwritten, hstart, hqueued⟩ :=
    Queueing.topUp_one source hcommit hone harmed (hstarted.trans f.started)
  have hfeed : s.stream.onTxDone (⟨s.fifo.packets.tail⟩ : TinyUsbFifo) source completion =
      (s.stream.commit completion
        (.ofNat (⟨s.fifo.packets.tail⟩ : TinyUsbFifo).level)).topUp ⟨s.fifo.packets.tail⟩ source :=
    if_neg f.isOpen
  unfold step
  dsimp only
  rw [hfeed, hwritten, hqueued, hledger]
  exact ⟨rfl, hstart, rfl⟩

theorem Fed.step (f : s.Fed frames) (completion : Completion) {source : σ}
    (hfill : (FrameSource.fill source).1.toNat = frames) (hle : frames ≤ 48) :
    (s.step (.txDone completion source)).Fed frames := by
  obtain ⟨hhistory, hstarted, hledger⟩ := f.txDone completion source
  obtain ⟨c, r, rest, hflying, -, hcredit, -, -⟩ := f.oldest
  have hcredited : ∀ l : Ledger, (l.credit r).state = l.state ∧ (l.credit r).armed = l.armed := by
    intro l
    unfold Ledger.credit
    split
    · exact ⟨rfl, rfl⟩
    · exact ⟨rfl, rfl⟩
  rw [hcredit] at hledger
  have hstate : (s.step (.txDone completion source)).stream.counters.state = .streaming :=
    (congrArg Ledger.state hledger).trans (hcredited _).1
  have harmed : (s.step (.txDone completion source)).stream.play.armed = s.stream.play.armed :=
    (congrArg Ledger.armed hledger).trans (hcredited _).2
  have hqueue := f.queue
  obtain ⟨c₁, c₂, hq⟩ := List.length_eq_two.mp hqueue
  refine ⟨f.inv.txDone completion source, ?_, harmed.trans f.armed, hstarted, ?_, ?_, ?_⟩
  · rw [hstate]
    exact StreamState.noConfusion
  · rw [hhistory, History.write, History.load, hq]
    rfl
  · rw [hhistory, History.write, History.load, hq]
    rfl
  · rw [hhistory]
    have hpending : (s.history.load.write ⟨(FrameSource.fill source).2.1,
        min (FrameSource.fill source).1 chunkFrames⟩).pending = s.history.queue ++
          [⟨⟨(FrameSource.fill source).2.1, min (FrameSource.fill source).1 chunkFrames⟩,
            s.history.plays, s.history.places⟩] := by
      rw [History.pending, History.write, History.load, hq]
      rfl
    rw [hpending]
    intro c hc
    rw [List.mem_append, List.mem_singleton] at hc
    rcases hc with hc | rfl
    · exact f.framesFor c (List.mem_append_right _ hc)
    · have hmin : (min (FrameSource.fill source).1 chunkFrames).toNat = frames := by
        rw [toNat_min32, hfill]
        exact Nat.min_eq_left hle
      refine (congrArg List.length (if_pos rfl)).trans ?_
      rw [List.length_take, Vector.length_toList, hmin]
      exact Nat.min_eq_left hle

/-- Each completion adds a chunk's frames to those sent. -/
theorem Fed.sent (f : s.Fed frames) (completion : Completion) (source : σ) :
    (s.step (.txDone completion source)).history.sentFrames.length =
        s.history.sentFrames.length + frames ∧
      (s.step (.txDone completion source)).history.completed = s.history.completed + 1 ∧
      s.history.sentIndexes <+: (s.step (.txDone completion source)).history.sentIndexes := by
  obtain ⟨c, -, -, hflying, -, -, -, -⟩ := f.oldest
  have hframes : (c.framesFor s.history.plays).length = frames := by
    refine f.framesFor c ?_
    rw [History.pending, hflying]
    exact List.mem_cons_self ..
  rw [(f.txDone completion source).1]
  refine ⟨?_, ?_, ?_⟩
  · rw [History.sentFrames, History.write, History.load, hflying, List.flatMap_append,
      List.length_append, Option.toList_some, List.flatMap_singleton, hframes]
    rfl
  · rw [History.write, History.load, hflying]
    rfl
  · rw [History.sentIndexes, History.sentIndexes, History.write, History.load,
      List.flatMap_append]
    exact List.prefix_append ..

/-- The first frame's index is taken whenever the count of frames sent stands at zero. -/
theorem Fed.firstFrameIndex (f : s.Fed frames) (hpos : 0 < frames) (completion : Completion)
    (source : σ) :
    (s.step (.txDone completion source)).stream.play.firstFrameIndex =
      if s.stream.play.fileFrames = 0 then .ofNat (48 * s.history.completed)
      else s.stream.play.firstFrameIndex := by
  obtain ⟨-, r, -, -, -, hcredit, hstart, hframes⟩ := f.oldest
  have hne : r.fileFrames ≠ 0 := by
    intro h0
    rw [h0] at hframes
    exact absurd hframes (Nat.ne_of_lt hpos)
  have hledger := (f.txDone completion source).2.2
  rw [hcredit, Ledger.credit, if_neg hne, hstart] at hledger
  exact congrArg Ledger.firstFrameIndex hledger

/-- A run of completions, each taking as many frames. -/
theorem Fed.run (f : s.Fed frames) (hle : frames ≤ 48) {ops : List (Op σ)}
    (hops : ∀ op ∈ ops, ∃ completion source,
      op = .txDone completion source ∧ (FrameSource.fill source).1.toNat = frames) :
    (s.run ops).Fed frames ∧
      (s.run ops).history.sentFrames.length = s.history.sentFrames.length + frames * ops.length ∧
      (s.run ops).history.completed = s.history.completed + ops.length ∧
      s.history.sentIndexes <+: (s.run ops).history.sentIndexes := by
  induction ops generalizing s with
  | nil => exact ⟨f, rfl, rfl, List.prefix_rfl⟩
  | cons op ops ih =>
    rw [List.forall_mem_cons] at hops
    obtain ⟨⟨completion, source, rfl, hfill⟩, hrest⟩ := hops
    obtain ⟨hsent, hcompleted, hindexes⟩ := f.sent completion source
    obtain ⟨f', hsent', hcompleted', hindexes'⟩ := ih (f.step completion hfill hle) hrest
    refine ⟨f', ?_, ?_, hindexes.trans hindexes'⟩
    · refine hsent'.trans ?_
      rw [hsent, List.length_cons, Nat.mul_add, Nat.mul_one]
      omega
    · refine hcompleted'.trans ?_
      rw [hcompleted, List.length_cons]
      omega

end Bus

end WaveformGenerator.UsbAudio
