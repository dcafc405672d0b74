import WaveformGenerator.UsbAudio.Ledger

/-!
# Records and FIFO in lock step

While the stream is open the records are, in order, the chunk in flight and the chunks in the FIFO.
A write appends to both queues; a completion drops the oldest of each.
-/

namespace WaveformGenerator.UsbAudio

/-- A record is its chunk's, as the current play counts it. -/
structure Recorded (plays : Nat) (r : ChunkRecord) (c : QueuedChunk) : Prop where
  start : r.start = .ofNat (48 * c.place)
  fileFrames : r.fileFrames.toNat = (c.framesFor plays).length

/-- What holds of an open stream, its FIFO and the packet in flight. -/
structure Queueing (l : Ledger) (fifo : TinyUsbFifo) (loaded : Option (List UInt8))
    (h : History) : Prop where
  format : l.format ∈ streamFormats
  records : List.Forall₂ (Recorded h.plays) l.records.toList h.pending
  places : h.pending.map QueuedChunk.place = List.range' h.completed h.pending.length
  placed : h.places = h.completed + h.pending.length
  queue_le : h.queue.length ≤ 2
  queued : l.framesQueued = .ofNat (48 * h.places)
  sent : l.framesSent = .ofNat (48 * h.completed)
  inFlight : l.inFlight = h.flying.isSome
  fifo : fifo.packets = h.queue.map fun c => packFrames c.chunk.frames l.format
  loaded : loaded = h.flying.map fun c => packFrames c.chunk.frames l.format

namespace Ledger

variable {l : Ledger}

/-- A credit touches the oldest record and the play's counts. -/
theorem credit_kept (l : Ledger) (r : ChunkRecord) :
    (l.credit r).records = l.records.pop ∧ (l.credit r).framesSent = l.framesSent ∧
      (l.credit r).framesQueued = l.framesQueued ∧ (l.credit r).format = l.format ∧
      (l.credit r).inFlight = l.inFlight ∧ (l.credit r).state = l.state := by
  unfold credit
  split
  · exact ⟨rfl, rfl, rfl, rfl, rfl, rfl⟩
  · exact ⟨rfl, rfl, rfl, rfl, rfl, rfl⟩

/-- No record is credited while the oldest starts where the frames sent end. -/
theorem retireWithin_none (limit : Nat)
    (oldest : ∀ r ∈ l.records.toList.head?, r.start = l.framesSent) :
    l.retireWithin limit = l := by
  cases limit with
  | zero => rfl
  | succ limit =>
    unfold retireWithin
    rw [ChunkRecords.front_eq]
    cases hr : l.records.toList.head? with
    | none => rfl
    | some r =>
      have hstart : l.framesSent - r.start < chunkFrames := by
        rw [oldest r hr, UInt32.sub_self]
        decide
      exact if_pos (.inl hstart)

/-- One record is credited when its chunk is the one behind the frames sent. -/
theorem retireWithin_one {limit : Nat} {r : ChunkRecord} {rest : List ChunkRecord}
    (records : l.records.toList = r :: rest) (sent : l.framesSent = r.start + 48)
    (next : ∀ r ∈ rest.head?, r.start = l.framesSent) :
    l.retireWithin (limit + 1) = l.credit r := by
  obtain ⟨hrecords, hsent, -⟩ := l.credit_kept r
  have hdiff : l.framesSent - r.start = 48 := by
    rw [sent, UInt32.add_comm, UInt32.add_sub_cancel]
  have hdue : ¬ ((48 : UInt32) < chunkFrames ∨ 48 > UacStream.maxOutstandingFrames) := by decide
  unfold retireWithin
  rw [ChunkRecords.front_eq, records, List.head?_cons]
  dsimp only
  rw [hdiff, if_neg hdue]
  refine retireWithin_none limit ?_
  rw [hrecords, hsent, ChunkRecords.toList_pop, records]
  exact next

end Ledger

namespace Queueing

variable {l : Ledger} {fifo : TinyUsbFifo} {loaded : Option (List UInt8)} {h : History}

theorem length_records (q : Queueing l fifo loaded h) : l.records.count = h.pending.length := by
  rw [← ChunkRecords.length_toList]
  exact q.records.length_eq

theorem length_pending_le (q : Queueing l fifo loaded h) : h.pending.length ≤ 3 := by
  have hqueue := q.queue_le
  rw [History.pending, List.length_append]
  cases h.flying with
  | none =>
    simp only [Option.toList_none, List.length_nil]
    omega
  | some c =>
    simp only [Option.toList_some, List.length_singleton]
    omega

/-- The FIFO's level is its packets' number times the format's packet. -/
theorem level_eq (q : Queueing l fifo loaded h) :
    fifo.level = h.queue.length * (packetBytes l.format).toNat := by
  have hlength : ∀ c : QueuedChunk,
      (packFrames c.chunk.frames l.format).length = (packetBytes l.format).toNat :=
    fun c => length_packFrames c.chunk.frames q.format
  rw [TinyUsbFifo.level, q.fifo, List.map_map, Function.comp_def]
  simp only [hlength, List.map_const', List.sum_replicate_nat]

/-- A chunk is written with its record. -/
theorem write (q : Queueing l fifo loaded h) (room : h.queue.length < 2) (chunk : WrittenChunk)
    (le : chunk.fileFrames.toNat ≤ 48) :
    Queueing (l.queueChunk chunk.frames chunk.fileFrames)
      ⟨fifo.packets ++ [packFrames chunk.frames l.format]⟩ loaded (h.write chunk) := by
  have hpending : (h.write chunk).pending = h.pending ++ [⟨chunk, h.plays, h.places⟩] := by
    simp [History.write, History.pending]
  have hcount : l.records.count < 8 := by
    have := q.length_records
    have := q.length_pending_le
    omega
  have hpushed := fun record => (l.records.push_of_lt record hcount).2.1
  refine ⟨q.format, ?_, ?_, ?_, ?_, ?_, q.sent, q.inFlight, ?_, q.loaded⟩
  · rw [hpending]
    simp only [Ledger.queueChunk, hpushed]
    refine List.rel_append q.records (.cons ⟨q.queued, ?_⟩ .nil)
    simp only [QueuedChunk.framesFor, if_pos, List.length_take, Vector.length_toList]
    omega
  · rw [hpending, List.map_append, q.places, List.length_append]
    simp only [List.map_cons, List.map_nil, List.length_singleton]
    rw [List.range'_concat, q.placed, Nat.one_mul]
    rfl
  · rw [hpending, List.length_append]
    show h.places + 1 = h.completed + (h.pending.length + 1)
    rw [q.placed]
    rfl
  · simp only [History.write, List.length_append, List.length_singleton]
    omega
  · show l.framesQueued + 48 = .ofNat (48 * (h.places + 1))
    rw [q.queued, Nat.mul_add, UInt32.ofNat_add]
    rfl
  · simp only [History.write, List.map_append, q.fifo]
    rfl

/-- The packets the load leaves are those of the chunks behind the oldest. -/
theorem level_tail (q : Queueing l fifo loaded h) :
    (⟨fifo.packets.tail⟩ : TinyUsbFifo).level =
      (h.queue.length - 1) * (packetBytes l.format).toNat := by
  have hlength : ∀ c : QueuedChunk,
      (packFrames c.chunk.frames l.format).length = (packetBytes l.format).toNat :=
    fun c => length_packFrames c.chunk.frames q.format
  rw [TinyUsbFifo.level, q.fifo, ← List.map_tail, List.map_map, Function.comp_def]
  simp only [hlength, List.map_const', List.sum_replicate_nat, List.length_tail]

/-- More frames are out than sent and in the FIFO exactly when the load found a chunk. -/
theorem inFlight_load (q : Queueing l fifo loaded h) :
    decide (UInt32.ofNat (48 * h.queue.length) >
      UInt32.ofNat (⟨fifo.packets.tail⟩ : TinyUsbFifo).level / frameBytes l.format) =
        h.queue.head?.isSome := by
  have hpos := frameBytes_pos q.format
  obtain ⟨hpacket, -, hfits⟩ := packetBytes_toNat q.format
  have hcapacity : fifoCapacityBytes.toNat = 1536 := rfl
  have hqueue := q.queue_le
  have hlevel : (UInt32.ofNat (⟨fifo.packets.tail⟩ : TinyUsbFifo).level /
      frameBytes l.format).toNat = 48 * (h.queue.length - 1) := by
    rw [UInt32.toNat_div, UInt32.toNat_ofNat', q.level_tail, hpacket, Nat.mod_eq_of_lt]
    · rw [← Nat.mul_assoc, Nat.mul_div_cancel _ hpos, Nat.mul_comm]
    · have : h.queue.length - 1 ≤ 1 := by omega
      calc (h.queue.length - 1) * (48 * (frameBytes l.format).toNat)
          ≤ 1 * (48 * (frameBytes l.format).toNat) := Nat.mul_le_mul_right _ this
        _ < 2 ^ 32 := by omega
  have hout : (UInt32.ofNat (48 * h.queue.length)).toNat = 48 * h.queue.length :=
    toNat_ofNat32 (by omega)
  cases hq : h.queue with
  | nil =>
    rw [hq] at hout hlevel
    rw [List.head?_nil, Option.isSome_none, decide_eq_false_iff_not, gt_iff_lt,
      UInt32.lt_iff_toNat_lt, hlevel, hout]
    simp
  | cons c queue =>
    rw [hq] at hout hlevel
    rw [List.head?_cons, Option.isSome_some, decide_eq_true_eq, gt_iff_lt,
      UInt32.lt_iff_toNat_lt, hlevel, hout]
    simp only [List.length_cons]
    omega

/-- The start of the oldest record is where the frames sent end. -/
theorem start_head (q : Queueing l fifo loaded h) :
    ∀ r ∈ l.records.toList.head?, r.start = l.framesSent := by
  have hrecords := q.records
  have hplaces := q.places
  rw [q.sent]
  intro r hr
  cases hp : h.pending with
  | nil =>
    rw [hp, List.forall₂_nil_right_iff] at hrecords
    rw [hrecords] at hr
    cases hr
  | cons c cs =>
    rw [hp, List.forall₂_cons_right_iff] at hrecords
    obtain ⟨r', rs, hrecorded, -, hlist⟩ := hrecords
    rw [hlist, List.head?_cons, Option.mem_some_iff] at hr
    rw [hp, List.map_cons, List.length_cons, List.range'_succ, List.cons.injEq] at hplaces
    rw [← hr, hrecorded.start, hplaces.1]

/-- A completion of a zero-length packet credits nothing. -/
theorem commit_primer (q : Queueing l fifo loaded h) (hf : h.flying = none) :
    l.commit (.ofNat (⟨fifo.packets.tail⟩ : TinyUsbFifo).level) =
      { l with
        inFlight := h.queue.head?.isSome
        state := if l.state = .priming then .priming else .streaming } := by
  have hflight : l.inFlight = false := by rw [q.inFlight, hf]; rfl
  have hout : l.framesQueued - (l.framesSent + 0) = .ofNat (48 * h.queue.length) := by
    have hpending : h.pending = h.queue := by rw [History.pending, hf]; rfl
    rw [UInt32.add_zero, q.queued, q.sent, q.placed, hpending, Nat.mul_add, UInt32.ofNat_add,
      UInt32.add_comm, UInt32.add_sub_cancel]
  unfold Ledger.commit
  dsimp only
  rw [hflight, if_neg Bool.false_ne_true, hout, q.inFlight_load, UInt32.add_zero]
  by_cases hstate : l.state = .priming
  · rw [if_pos ⟨hstate, rfl⟩, if_pos hstate, ← hstate]
  · rw [if_neg (fun hp => hstate hp.1), if_neg hstate]
    exact Ledger.retireWithin_none _ q.start_head

/-- A data completion credits the record of the chunk that was in flight. -/
theorem commit_data (q : Queueing l fifo loaded h) {c : QueuedChunk} (hf : h.flying = some c)
    {r : ChunkRecord} {rest : List ChunkRecord} (hr : l.records.toList = r :: rest) :
    l.commit (.ofNat (⟨fifo.packets.tail⟩ : TinyUsbFifo).level) =
      Ledger.credit { l with
        inFlight := h.queue.head?.isSome
        state := .streaming
        framesSent := l.framesSent + 48 } r := by
  have hflight : l.inFlight = true := by rw [q.inFlight, hf]; rfl
  have hpending : h.pending = c :: h.queue := by rw [History.pending, hf]; rfl
  have hout : l.framesQueued - (l.framesSent + chunkFrames) = .ofNat (48 * h.queue.length) := by
    have hsum : UInt32.ofNat (48 * h.places) =
        .ofNat (48 * h.queue.length) + (l.framesSent + chunkFrames) := by
      rw [q.sent, q.placed, hpending, List.length_cons]
      show _ = UInt32.ofNat _ + (UInt32.ofNat _ + UInt32.ofNat 48)
      rw [← UInt32.ofNat_add, ← UInt32.ofNat_add]
      congr 1
      omega
    rw [q.queued, hsum, UInt32.add_sub_cancel]
  have hdata : ¬ (l.state = .priming ∧ chunkFrames = 0) := fun hp => absurd hp.2 (by decide)
  have hcount : l.records.count = rest.length + 1 := by
    rw [← ChunkRecords.length_toList, hr]
    rfl
  have hstart : r.start = l.framesSent := q.start_head r (by rw [hr]; rfl)
  unfold Ledger.commit
  dsimp only
  rw [hflight, if_pos rfl, hout, q.inFlight_load, if_neg hdata, hcount]
  refine Ledger.retireWithin_one hr (by rw [hstart]; rfl) fun r' hr' => ?_
  -- The record behind it starts where the frames sent now end.
  have hrecords := q.records
  have hplaces := q.places
  rw [hpending, hr, List.forall₂_cons] at hrecords
  rw [hpending, List.map_cons, List.length_cons, List.range'_succ, List.cons.injEq] at hplaces
  cases hq : h.queue with
  | nil =>
    rw [hq, List.forall₂_nil_right_iff] at hrecords
    rw [hrecords.2] at hr'
    cases hr'
  | cons c' cs =>
    rw [hq, List.forall₂_cons_right_iff] at hrecords
    obtain ⟨-, r'', rs, hrecorded, -, hlist⟩ := hrecords
    rw [hlist, List.head?_cons, Option.mem_some_iff] at hr'
    rw [hq, List.map_cons, List.length_cons, List.range'_succ, List.cons.injEq] at hplaces
    rw [← hr', hrecorded.start, hplaces.2.1]
    show _ = l.framesSent + UInt32.ofNat 48
    rw [q.sent, ← UInt32.ofNat_add, Nat.mul_add]

/-- A completion drops the oldest of both queues. -/
theorem commit (q : Queueing l fifo loaded h) :
    Queueing (l.commit (.ofNat (⟨fifo.packets.tail⟩ : TinyUsbFifo).level))
      ⟨fifo.packets.tail⟩ fifo.packets.head? h.load := by
  have hload : h.load.pending = h.queue := by
    unfold History.load History.pending
    cases h.queue <;> rfl
  have hfifo : fifo.packets.tail = h.load.queue.map fun c => packFrames c.chunk.frames l.format := by
    rw [q.fifo, History.load, List.map_tail]
  have hloaded : fifo.packets.head? =
      h.load.flying.map fun c => packFrames c.chunk.frames l.format := by
    rw [q.fifo, History.load, List.head?_map]
  have hqueue : h.load.queue.length ≤ 2 := by
    have := q.queue_le
    simp only [History.load, List.length_tail]
    omega
  cases hf : h.flying with
  | none =>
    have hpending : h.pending = h.queue := by rw [History.pending, hf]; rfl
    have hcompleted : h.load.completed = h.completed := by rw [History.load, hf]; rfl
    have hrecords := q.records
    have hplaces := q.places
    have hplaced := q.placed
    rw [hpending] at hrecords hplaces hplaced
    rw [q.commit_primer hf]
    refine ⟨q.format, ?_, ?_, ?_, hqueue, q.queued, ?_, rfl, hfifo, hloaded⟩
    · rw [hload]
      exact hrecords
    · rw [hload, hcompleted]
      exact hplaces
    · rw [hload, hcompleted]
      exact hplaced
    · rw [hcompleted]
      exact q.sent
  | some c =>
    have hpending : h.pending = c :: h.queue := by rw [History.pending, hf]; rfl
    have hcompleted : h.load.completed = h.completed + 1 := by rw [History.load, hf]; rfl
    have hrecords := q.records
    have hplaces := q.places
    have hplaced := q.placed
    rw [hpending, List.forall₂_cons_right_iff] at hrecords
    obtain ⟨r, rest, -, hrest, hr⟩ := hrecords
    rw [hpending, List.map_cons, List.length_cons, List.range'_succ, List.cons.injEq] at hplaces
    rw [q.commit_data hf hr]
    obtain ⟨hpop, hsent, hqueued, hformat, hflight, -⟩ := Ledger.credit_kept { l with
        inFlight := h.queue.head?.isSome
        state := .streaming
        framesSent := l.framesSent + 48 } r
    refine ⟨?_, ?_, ?_, ?_, hqueue, ?_, ?_, ?_, ?_, ?_⟩
    · rw [hformat]
      exact q.format
    · rw [hpop, ChunkRecords.toList_pop, hload, hr]
      exact hrest
    · rw [hload, hcompleted]
      exact hplaces.2
    · rw [hload, hcompleted, Nat.add_right_comm, Nat.add_assoc, ← List.length_cons, ← hpending]
      exact hplaced
    · rw [hqueued]
      exact q.queued
    · rw [hsent, hcompleted, Nat.mul_add, UInt32.ofNat_add, ← q.sent]
      rfl
    · exact hflight
    · rw [hformat]
      exact hfifo
    · rw [hformat]
      exact hloaded

/-- The stream stays open. -/
theorem state_commit (q : Queueing l fifo loaded h) :
    (l.commit (.ofNat (⟨fifo.packets.tail⟩ : TinyUsbFifo).level)).state ≠ .closed := by
  cases hf : h.flying with
  | none =>
    rw [q.commit_primer hf]
    dsimp only
    split <;> nofun
  | some c =>
    have hrecords := q.records
    rw [History.pending, hf, Option.toList_some, List.singleton_append,
      List.forall₂_cons_right_iff] at hrecords
    obtain ⟨r, rest, -, -, hr⟩ := hrecords
    rw [q.commit_data hf hr, (Ledger.credit_kept _ r).2.2.2.2.2]
    nofun

/-! ## The top-up -/

variable {s : UacStream}

theorem room_of_hasRoom (q : Queueing s.ledger fifo loaded h) (room : s.hasRoom fifo = true) :
    h.queue.length < 2 := by
  have hpos := frameBytes_pos q.format
  obtain ⟨hpacket, htarget, hfits⟩ := packetBytes_toNat q.format
  have hcapacity : fifoCapacityBytes.toNat = 1536 := rfl
  have hlevel := q.level_eq
  have hqueue := q.queue_le
  have hle : h.queue.length * (packetBytes s.ledger.format).toNat ≤
      2 * (packetBytes s.ledger.format).toNat := Nat.mul_le_mul_right _ hqueue
  have hbelow : InFifo.queued fifo + packetBytes s.ledger.format ≤
      fifoTargetBytes s.ledger.format := by
    simp only [UacStream.hasRoom, Bool.and_eq_true, decide_eq_true_eq] at room
    exact room.1.2
  have hlevel32 : (InFifo.queued fifo).toNat = fifo.level := toNat_ofNat32 (by omega)
  rw [UInt32.le_iff_toNat_le, UInt32.toNat_add, hlevel32, htarget, hlevel,
    Nat.mod_eq_of_lt (by omega), ← Nat.succ_mul] at hbelow
  have := Nat.le_of_mul_le_mul_right hbelow (by omega)
  omega

/-- With room for it a chunk is recorded and accepted whole. -/
theorem queueChunk_eq (q : Queueing s.ledger fifo loaded h) (room : h.queue.length < 2)
    (fileFrames : FrameCount) :
    (s.queueChunk fifo fileFrames).1 = .success ∧
      (s.queueChunk fifo fileFrames).2.1.ledger = s.ledger.queueChunk s.chunk fileFrames ∧
      (s.queueChunk fifo fileFrames).2.2 =
        ⟨fifo.packets ++ [packFrames s.chunk s.ledger.format]⟩ := by
  obtain ⟨hpacket, -, hfits⟩ := packetBytes_toNat q.format
  have hcapacity : fifoCapacityBytes.toNat = 1536 := rfl
  have hlevel := q.level_eq
  have hlength := length_packFrames s.chunk q.format
  have hcount : s.records.count < 8 := by
    have := q.length_records
    have := q.length_pending_le
    have : s.ledger.records.count = s.records.count := rfl
    omega
  have hwrite : InFifo.write fifo (packFrames s.chunk s.counters.format) =
      (packetBytes s.counters.format,
        (⟨fifo.packets ++ [packFrames s.chunk s.counters.format]⟩ : TinyUsbFifo)) := by
    have hfree : fifo.level + (packFrames s.chunk s.counters.format).length ≤
        fifoCapacityBytes.toNat := by
      have hle : h.queue.length * (packetBytes s.ledger.format).toNat ≤
          1 * (packetBytes s.ledger.format).toNat := Nat.mul_le_mul_right _ (by omega)
      have hformat : (packFrames s.chunk s.counters.format).length =
          (packetBytes s.ledger.format).toNat := hlength
      omega
    refine (if_pos hfree).trans ?_
    congr 1
    rw [← UInt32.toNat_inj, UInt32.toNat_ofNat']
    exact (Nat.mod_eq_of_lt (by omega)).trans hlength
  have hpushed := fun record => (s.records.push_of_lt record hcount).1
  unfold UacStream.queueChunk
  dsimp only
  rw [hpushed, if_neg (by simp), hwrite]
  dsimp only
  rw [if_neg (fun hne => hne rfl)]
  exact ⟨rfl, rfl, rfl⟩

/-- What each write keeps, a top-up keeps. -/
theorem topUpWithin_induct {σ : Type} [FrameSource σ] {P : Ledger → History → Prop}
    (write : ∀ {l : Ledger} {fifo : TinyUsbFifo} {h : History} (chunk : WrittenChunk),
      Queueing l fifo loaded h → P l h → h.queue.length < 2 → chunk.fileFrames.toNat ≤ 48 →
      (chunk.fileFrames ≠ 0 → l.armed = true) →
      P (l.queueChunk chunk.frames chunk.fileFrames) (h.write chunk))
    (limit : Nat) (feed : UacStream.Feed TinyUsbFifo σ) {h : History}
    (q : Queueing feed.stream.ledger feed.fifo loaded h) (p : P feed.stream.ledger h) :
    ∃ new : List WrittenChunk,
      (UacStream.topUpWithin limit feed).written = feed.written ++ new ∧
      Queueing (UacStream.topUpWithin limit feed).stream.ledger
        (UacStream.topUpWithin limit feed).fifo loaded (new.foldl History.write h) ∧
      P (UacStream.topUpWithin limit feed).stream.ledger (new.foldl History.write h) := by
  induction limit generalizing feed h with
  | zero => exact ⟨[], (List.append_nil _).symm, q, p⟩
  | succ limit ih =>
    unfold UacStream.topUpWithin
    split
    · rename_i hroom
      have room := q.room_of_hasRoom hroom
      obtain ⟨hledger, hle, harmed⟩ := feed.stream.fill_spec feed.source
      generalize feed.stream.fill feed.source = filled at hledger hle harmed
      obtain ⟨fileFrames, stream, source⟩ := filled
      dsimp only at hledger hle harmed ⊢
      have q' : Queueing stream.ledger feed.fifo loaded h := by rw [hledger]; exact q
      obtain ⟨hstatus, hqueued, hfifo⟩ := q'.queueChunk_eq room fileFrames
      generalize stream.queueChunk feed.fifo fileFrames = queued at hstatus hqueued hfifo
      obtain ⟨status, stream', fifo'⟩ := queued
      dsimp only at hstatus hqueued hfifo ⊢
      subst hstatus hfifo
      rw [if_pos Status.isOk_success]
      have hq := q'.write room ⟨stream.chunk, fileFrames⟩ hle
      have hp := write ⟨stream.chunk, fileFrames⟩ q' (by rw [hledger]; exact p) room hle
        (by rw [hledger]; exact harmed)
      rw [← hqueued] at hq hp
      obtain ⟨new, hwritten, hq', hp'⟩ := ih
        ⟨stream', _, source, feed.written ++ [⟨stream.chunk, fileFrames⟩]⟩ hq hp
      refine ⟨⟨stream.chunk, fileFrames⟩ :: new, ?_, hq', hp'⟩
      rw [hwritten, List.append_assoc]
      rfl
    · exact ⟨[], (List.append_nil _).symm, q, p⟩

end Queueing

end WaveformGenerator.UsbAudio
