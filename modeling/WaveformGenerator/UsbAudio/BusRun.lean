import WaveformGenerator.UsbAudio.Credit

/-!
# Runs of the stream on the bus

Every operation keeps the records in step with the FIFO, and the play's credit in step with both.
-/

namespace WaveformGenerator.UsbAudio

namespace Credit

variable {l l' : Ledger} {h : History}

/-- The FIFO is emptied: what was queued is lost. -/
theorem ended (p : Credit l h) {s : UacStream} (hs : s.ledger = l) :
    Credit s.endStream.ledger h.drop := by
  subst hs
  refine ⟨fun c hc => p.plays_le c ?_, p.opens, p.playOpens, p.accepted, p.rejected, p.fileFrames,
    rfl, p.first, p.last, fun hround => ?_⟩
  · exact List.mem_append_right _ hc
  · have c := p.crc hround
    exact ⟨nofun, c.left, c.right, c.order, fun hw => absurd rfl hw.1, fun hw => absurd rfl hw.1,
      fun hw => absurd rfl hw.1, fun _ => nofun⟩

/-- No chunk of the plays so far carries frames for the next one. -/
theorem framesFor_next (p : Credit l h) : ∀ c ∈ h.pending ++ h.sent,
    c.framesFor (h.plays + 1) = [] := fun c hc =>
  if_neg (Nat.ne_of_lt (Nat.lt_succ_of_le (p.plays_le c hc)))

/-- Another play begins, with nothing of the last one. -/
theorem restart (p : Credit l h) {s : UacStream} (hs : s.ledger = l)
    (hlength : s.records.count = h.pending.length) (acceptFrameIndex : FrameCount)
    {playOpens : UInt32} {acceptedAt : Nat} (hopens : playOpens = .ofNat acceptedAt)
    (haccepted : acceptedAt ≤ h.openings) :
    Credit { s.restartPlay acceptFrameIndex with playOpens }.ledger
      { h.restart with acceptedAt } := by
  subst hs
  have hnone := p.framesFor_next
  have hsent : History.sentFrames { h.restart with acceptedAt } = [] :=
    List.flatMap_eq_nil_iff.mpr fun c hc => hnone c (List.mem_append_right _ hc)
  have hpending : History.pendingFrames { h.restart with acceptedAt } = [] :=
    List.flatMap_eq_nil_iff.mpr fun c hc => hnone c (List.mem_append_left _ hc)
  have hcredited : History.credited { h.restart with acceptedAt } = [] :=
    List.filter_eq_nil_iff.mpr fun c hc => by
      have hframes : c.framesFor (h.plays + 1) = [] := hnone c (List.mem_append_right _ hc)
      simp [History.restart, hframes]
  refine ⟨fun c hc => Nat.le_succ_of_le (p.plays_le c hc), p.opens, hopens, haccepted, p.rejected,
    ?_, ?_, fun _ => ?_, ?_, fun hround => ?_⟩
  · rw [hsent]
    rfl
  · rw [hpending]
    rfl
  · rw [hcredited]
    rfl
  · rw [hcredited]
    rfl
  · refine ⟨nofun, ?_, ?_, ?_, fun _ => ?_, fun _ => rfl, fun _ => ?_, fun _ c hc => ?_⟩
    · rw [hsent]
      show (0 : UInt32) = (crcsOf []).left.value
      decide
    · rw [hsent]
      show (0 : UInt32) = (crcsOf []).right.value
      decide
    · rw [hsent]
      exact List.nil_prefix
    · rw [hsent, hpending]
      rfl
    · refine .of_none ?_ fun c hc => hnone c (List.mem_append_left _ hc)
      rw [ChunkRecords.length_toList]
      exact hlength
    · exact hnone c (List.mem_append_left _ hc)

/-- A play is fed only on the stream that accepted it. -/
theorem arm (p : Credit l h) {s : UacStream} (hs : s.ledger = l) (now : TickCount)
    (stallTimeout : TickSpan) (start : Option ScheduledStart) :
    Credit (s.arm now stallTimeout start).2.ledger h := by
  subst hs
  unfold UacStream.arm
  split
  · refine ⟨p.plays_le, p.opens, p.playOpens, p.accepted, p.rejected, p.fileFrames, p.pending,
      p.first, p.last, fun hround => ?_⟩
    exact { p.crc hround with armed := nofun }
  · rename_i hopen
    rw [not_or, not_not] at hopen
    refine ⟨p.plays_le, p.opens, p.playOpens, p.accepted, p.rejected, p.fileFrames, p.pending,
      p.first, p.last, fun hround => ?_⟩
    refine { p.crc hround with armed := fun _ => ⟨hopen.1, ?_⟩ }
    have hsame : UInt32.ofNat h.openings = .ofNat h.acceptedAt :=
      p.opens.symm.trans (hopen.2.trans p.playOpens)
    have haccepted := p.accepted
    rw [← UInt32.toNat_inj, UInt32.toNat_ofNat', UInt32.toNat_ofNat'] at hsame
    omega

theorem disarm (p : Credit l h) {s : UacStream} (hs : s.ledger = l) :
    Credit s.disarm.ledger h := by
  subst hs
  exact ⟨p.plays_le, p.opens, p.playOpens, p.accepted, p.rejected, p.fileFrames, p.pending,
    p.first, p.last, fun hround => { p.crc hround with armed := nofun }⟩

/-- Another stream opens: nothing of the play is queued there. -/
theorem opened (p : Credit l h) {s : UacStream} (hs : s.ledger = l) (format : StreamFormat) :
    Credit (s.opened format).ledger
      { h.drop with openings := h.openings + 1, places := 0, completed := 0 } := by
  subst hs
  have haccepted := p.accepted
  refine ⟨fun c hc => p.plays_le c (List.mem_append_right _ hc), ?_, p.playOpens,
    Nat.le_succ_of_le haccepted, p.rejected, p.fileFrames, rfl, p.first, p.last,
    fun hround => ?_⟩
  · show s.counters.opens + 1 = UInt32.ofNat (h.openings + 1)
    rw [UInt32.ofNat_add, ← p.opens]
    rfl
  · have hfew : h.openings + 1 < h.acceptedAt + 2 ^ 32 := hround
    have c := p.crc (by omega)
    have hother : h.openings + 1 ≠ h.acceptedAt := Nat.ne_of_gt (Nat.lt_succ_of_le haccepted)
    exact ⟨nofun, c.left, c.right, c.order, fun hw => absurd hw.2 hother,
      fun hw => absurd hw.2 hother, fun hw => absurd hw.2 hother, fun _ => nofun⟩

end Credit

/-- A stream opens with both queues empty. -/
theorem Queueing.opened {s : UacStream} (h : History) {format : StreamFormat}
    (hformat : format ∈ streamFormats) (openings : Nat) :
    Queueing (s.opened format).ledger {} none
      { h.drop with openings, places := 0, completed := 0 } :=
  ⟨hformat, .nil, rfl, rfl, Nat.zero_le _, rfl, rfl, rfl, rfl, rfl⟩

/-- The records forget the play's frames; nothing else of the queues moves. -/
theorem Queueing.restart {s : UacStream} {fifo : TinyUsbFifo} {loaded : Option (List UInt8)}
    {h : History} (q : Queueing s.ledger fifo loaded h) (p : Credit s.ledger h)
    (acceptFrameIndex : FrameCount) (playOpens : UInt32) (acceptedAt : Nat) :
    Queueing { s.restartPlay acceptFrameIndex with playOpens }.ledger fifo loaded
      { h.restart with acceptedAt } := by
  refine ⟨q.format, ?_, q.places, q.placed, q.queue_le, q.queued, q.sent, q.inFlight, q.fifo,
    q.loaded⟩
  have hcount : s.records.count ≤ 8 := by
    have := q.length_records
    have := q.length_pending_le
    have : s.ledger.records.count = s.records.count := rfl
    omega
  have hforgotten := s.records.toList_forgetFileFrames hcount
  have hrecords := q.records
  have hnone := p.framesFor_next
  show List.Forall₂ (Recorded (h.plays + 1)) s.records.forgetFileFrames.toList h.pending
  rw [hforgotten, List.forall₂_map_left_iff]
  rw [List.forall₂_iff_zip] at hrecords ⊢
  refine ⟨hrecords.1, fun {r c} hrc => ⟨(hrecords.2 hrc).start, ?_⟩⟩
  rw [hnone c (List.mem_append_left _ (List.of_mem_zip hrc).2)]
  rfl

/-! ## Every operation -/

/-- The stream, the FIFO and the history of a run agree. -/
structure Bus.Inv (s : Bus) : Prop where
  queueing : s.stream.counters.state ≠ .closed →
    Queueing s.stream.ledger s.fifo s.loaded s.history
  stopped : s.stream.counters.state = .closed →
    s.stream.records.toList = [] ∧ s.stream.inFlight = false ∧ s.fifo.packets = [] ∧
      s.loaded = none ∧ s.history.pending = []
  credit : Credit s.stream.ledger s.history

namespace Bus

variable {s : Bus} {σ : Type} [FrameSource σ]

theorem Inv.initial : Inv {} where
  queueing := fun h => absurd rfl h
  stopped := fun _ => ⟨rfl, rfl, rfl, rfl, rfl⟩
  credit :=
    { plays_le := nofun
      opens := rfl
      playOpens := rfl
      accepted := Nat.le_refl 0
      rejected := rfl
      fileFrames := rfl
      pending := rfl
      first := fun _ => rfl
      last := rfl
      crc := fun _ =>
        { armed := nofun
          left := by decide
          right := by decide
          order := List.prefix_rfl
          taken := fun _ => rfl
          queued := fun _ => rfl
          records := fun _ => trivial
          lost := fun _ => nofun } }

/-- The records are as many as the chunks, open or closed. -/
theorem Inv.length_records (v : s.Inv) :
    s.stream.records.count = s.history.pending.length := by
  by_cases hstate : s.stream.counters.state = .closed
  · obtain ⟨hrecords, -, -, -, hpending⟩ := v.stopped hstate
    rw [← ChunkRecords.length_toList, hrecords, hpending]
    rfl
  · exact (v.queueing hstate).length_records

/-- The stream ends, for whatever reason. -/
theorem Inv.ended (v : s.Inv) {stream : UacStream} (hs : stream.ledger = s.stream.ledger) :
    (s.ended stream.endStream).Inv where
  queueing := fun h => absurd rfl h
  stopped := fun _ => ⟨rfl, rfl, rfl, rfl, rfl⟩
  credit := v.credit.ended hs

/-- What a top-up leaves, from an open stream: one that is still open. -/
theorem topUp_inv {stream : UacStream} {fifo : TinyUsbFifo} {loaded : Option (List UInt8)}
    {h : History} (source : σ) (hopen : stream.counters.state ≠ .closed)
    (q : Queueing stream.ledger fifo loaded h) (p : Credit stream.ledger h) :
    Inv {
      stream := (stream.topUp fifo source).stream
      fifo := (stream.topUp fifo source).fifo
      loaded
      history := (stream.topUp fifo source).written.foldl History.write h } ∧
    (stream.topUp fifo source).stream.counters.state ≠ .closed := by
  obtain ⟨new, hwritten, hq, hstate, hp⟩ :=
    Queueing.topUpWithin_induct (P := fun l h => l.state ≠ .closed ∧ Credit l h)
      (fun chunk q p _ hle harmed => ⟨p.1, p.2.write q chunk hle harmed⟩)
      fifoTargetChunks.toNat ⟨stream, fifo, source, []⟩ q ⟨hopen, p⟩
  have hwritten' : (stream.topUp fifo source).written = new := hwritten
  rw [hwritten']
  exact ⟨⟨fun _ => hq, fun hc => absurd hc hstate, hp⟩, hstate⟩

/-- An open that is refused changes nothing. -/
theorem step_open_refused {format : StreamFormat}
    (hrefused : ¬ (s.stream.configured = true ∧ format ∈ streamFormats)) :
    s.step (.open format : Op σ) = s := by
  have hstatus : (s.stream.open ({} : TinyUsbFifo) format).1.isOk = false := by
    unfold UacStream.open
    cases hc : s.stream.configured with
    | false => rfl
    | true =>
      have hformat : format ∉ streamFormats := fun hf => hrefused ⟨hc, hf⟩
      rw [Bool.not_true, if_neg Bool.false_ne_true, if_pos hformat]
      rfl
  exact if_neg (ne_true_of_eq_false hstatus)

/-- An open that is not refused starts its stream and queues the first chunks. -/
theorem step_open {format : StreamFormat} (hconfigured : s.stream.configured = true)
    (hformat : format ∈ streamFormats) :
    s.step (.open format : Op σ) =
      { stream := ((s.stream.opened format).topUp ({} : TinyUsbFifo) ()).stream
        fifo := ((s.stream.opened format).topUp ({} : TinyUsbFifo) ()).fifo
        loaded := none
        history := ((s.stream.opened format).topUp ({} : TinyUsbFifo) ()).written.foldl
          History.write
          { s.history.drop with
            openings := s.history.openings + 1, places := 0, completed := 0 } } := by
  have hopen : s.stream.open ({} : TinyUsbFifo) format =
      (.success, (s.stream.opened format).topUp ({} : TinyUsbFifo) ()) := by
    unfold UacStream.open
    rw [hconfigured, Bool.not_true, if_neg Bool.false_ne_true, if_neg (not_not.mpr hformat)]
  unfold step
  dsimp only
  rw [hopen]
  exact if_pos rfl

theorem Inv.opened (v : s.Inv) {format : StreamFormat} (hconfigured : s.stream.configured = true)
    (hformat : format ∈ streamFormats) :
    (s.step (.open format : Op σ)).Inv ∧
      (s.step (.open format : Op σ)).stream.counters.state ≠ .closed := by
  have hopen : (s.stream.opened format).counters.state ≠ .closed := StreamState.noConfusion
  have hqueueing := Queueing.opened (s := s.stream) s.history hformat (s.history.openings + 1)
  rw [step_open hconfigured hformat]
  exact topUp_inv () hopen hqueueing (v.credit.opened rfl format)

theorem Inv.open (v : s.Inv) (format : StreamFormat) :
    (s.step (.open format : Op σ)).Inv := by
  by_cases hopens : s.stream.configured = true ∧ format ∈ streamFormats
  · exact (v.opened hopens.1 hopens.2).1
  · rw [step_open_refused hopens]
    exact v

theorem Inv.txDone (v : s.Inv) (completion : Completion) (source : σ) :
    (s.step (.txDone completion source)).Inv := by
  unfold step UacStream.onTxDone
  dsimp only
  split
  · rename_i hstate
    obtain ⟨hrecords, hflight, hfifo, hloaded, hpending⟩ := v.stopped hstate
    have hnone : s.history.flying = none ∧ s.history.queue = [] := by
      rw [History.pending, List.append_eq_nil_iff, Option.toList_eq_nil_iff] at hpending
      exact hpending
    have hload : s.history.load = s.history := by
      unfold History.load
      rw [hnone.1, hnone.2]
      cases hh : s.history
      rw [hh] at hnone
      simp only at hnone
      simp [hnone]
    simp only [List.foldl_nil, hload, hfifo, List.tail_nil, List.head?_nil]
    exact ⟨fun hne => absurd hstate hne, fun _ => ⟨hrecords, hflight, rfl, rfl, hpending⟩,
      v.credit⟩
  · rename_i hstate
    have q := v.queueing hstate
    have hledger := s.stream.ledger_commit completion
      (.ofNat (⟨s.fifo.packets.tail⟩ : TinyUsbFifo).level)
    have hq := q.commit
    have hp := v.credit.commit q hstate
    rw [← hledger] at hq hp
    refine (topUp_inv source ?_ hq hp).1
    have hopen := q.state_commit
    rw [← hledger] at hopen
    exact hopen

theorem Inv.restart (v : s.Inv) (acceptFrameIndex : FrameCount) {playOpens : UInt32}
    {acceptedAt : Nat} (hopens : playOpens = .ofNat acceptedAt)
    (haccepted : acceptedAt ≤ s.history.openings) :
    Inv { s with
      stream := { s.stream.restartPlay acceptFrameIndex with playOpens }
      history := { s.history.restart with acceptedAt } } where
  queueing := fun hne =>
    (v.queueing hne).restart v.credit acceptFrameIndex playOpens acceptedAt
  stopped := fun hc => by
    obtain ⟨hrecords, hflight, hfifo, hloaded, hpending⟩ := v.stopped hc
    have hcount : s.stream.records.count = 0 := by
      rw [← ChunkRecords.length_toList, hrecords]
      rfl
    have hforgotten := s.stream.records.toList_forgetFileFrames (by omega)
    rw [hrecords] at hforgotten
    exact ⟨hforgotten, hflight, hfifo, hloaded, hpending⟩
  credit := v.credit.restart rfl v.length_records acceptFrameIndex hopens haccepted

/-- What changes neither queue nor state keeps them. -/
theorem Inv.of_kept (v : s.Inv) {stream : UacStream}
    (hstate : stream.counters.state = s.stream.counters.state)
    (hqueueing : Queueing s.stream.ledger s.fifo s.loaded s.history →
      Queueing stream.ledger s.fifo s.loaded s.history)
    (hrecords : stream.records = s.stream.records)
    (hflight : stream.inFlight = s.stream.inFlight)
    (hcredit : Credit stream.ledger s.history) : Inv { s with stream } where
  queueing := fun hne => hqueueing (v.queueing (hstate ▸ hne))
  stopped := fun hc => by
    have hstopped := v.stopped (hstate.symm.trans hc)
    rw [← hrecords, ← hflight] at hstopped
    exact hstopped
  credit := hcredit

theorem Inv.step (v : s.Inv) (op : Op σ) : (s.step op).Inv := by
  cases op with
  | configure => exact v.ended rfl
  | deconfigure => exact v.ended rfl
  | «open» format => exact v.open format
  | close => exact v.ended rfl
  | txDone completion source => exact v.txDone completion source
  | acceptPlay =>
    unfold Bus.step UacStream.acceptPlay
    dsimp only
    split
    · exact v
    · exact v.restart _ v.credit.opens (Nat.le_refl _)
  | clearPlay => exact v.restart 0 v.credit.playOpens v.credit.accepted
  | arm now stallTimeout start =>
    have hcredit := v.credit.arm rfl now stallTimeout start
    unfold Bus.step UacStream.arm at *
    dsimp only at hcredit ⊢
    split
    · rename_i hn
      rw [if_pos hn] at hcredit
      exact v.of_kept rfl (fun q => { q with }) rfl rfl hcredit
    · rename_i hn
      rw [if_neg hn] at hcredit
      exact v.of_kept rfl (fun q => { q with }) rfl rfl hcredit
  | disarm => exact v.of_kept rfl (fun q => { q with }) rfl rfl (v.credit.disarm rfl)
  | onWatchdog transfer =>
    have hledger := s.stream.ledger_onWatchdog transfer
    exact v.of_kept (congrArg Ledger.state hledger) (fun q => hledger ▸ q)
      (congrArg Ledger.records hledger) (congrArg Ledger.inFlight hledger)
      (by rw [hledger]; exact v.credit)

theorem Inv.run (v : s.Inv) (ops : List (Op σ)) : (s.run ops).Inv := by
  induction ops generalizing s with
  | nil => exact v
  | cons op ops ih => exact ih (v.step op)

/-! ## Records and FIFO over a run -/

/-- What the records say of an open stream's FIFO and endpoint. -/
structure InStep (s : Bus) : Prop where
  loaded : s.loaded = s.history.flying.map fun c =>
    packFrames c.chunk.frames s.stream.counters.format
  packets : s.fifo.packets = s.history.queue.map fun c =>
    packFrames c.chunk.frames s.stream.counters.format
  records : List.Forall₂ (Recorded s.history.plays) s.stream.records.toList
    (s.history.flying.toList ++ s.history.queue)
  starts : s.stream.records.toList.map ChunkRecord.start =
    (List.range' s.history.completed s.stream.records.count).map fun place => .ofNat (48 * place)
  framesQueued : s.stream.counters.framesQueued - s.stream.counters.framesSent =
    .ofNat (48 * s.stream.records.count)
  room : s.stream.records.count < chunkRecordCapacity
  rejected : s.stream.counters.rejectedChunks = 0
  inFlight : s.stream.inFlight = s.loaded.isSome

theorem Inv.starts (v : s.Inv) (hopen : s.stream.counters.state ≠ .closed) :
    s.stream.records.toList.map ChunkRecord.start =
      (List.range' s.history.completed s.stream.records.count).map fun place =>
        .ofNat (48 * place) := by
  have q := v.queueing hopen
  have hrecords : s.stream.records.toList.map ChunkRecord.start =
      s.history.pending.map fun c => .ofNat (48 * c.place) := by
    have hstarts : List.Forall₂ (fun (r : ChunkRecord) (c : QueuedChunk) =>
        r.start = .ofNat (48 * c.place)) s.stream.records.toList s.history.pending :=
      q.records.imp fun _ _ hrecorded => hrecorded.start
    rw [← List.forall₂_eq_eq_eq, List.forall₂_map_left_iff, List.forall₂_map_right_iff]
    exact hstarts
  rw [hrecords, v.length_records, ← q.places, List.map_map]
  rfl

theorem Inv.inStep (v : s.Inv) (hopen : s.stream.counters.state ≠ .closed) : s.InStep := by
  have q := v.queueing hopen
  have hlength := v.length_records
  have hle := q.length_pending_le
  refine ⟨q.loaded, q.fifo, q.records, v.starts hopen, ?_, ?_, v.credit.rejected, ?_⟩
  · have hqueued : s.stream.counters.framesQueued = .ofNat (48 * s.history.places) := q.queued
    have hsent : s.stream.counters.framesSent = .ofNat (48 * s.history.completed) := q.sent
    rw [hqueued, hsent, hlength, q.placed, Nat.mul_add, UInt32.ofNat_add, UInt32.add_comm,
      UInt32.add_sub_cancel]
  · show s.stream.records.count < 8
    omega
  · have hflight : s.stream.inFlight = s.history.flying.isSome := q.inFlight
    rw [hflight, q.loaded, Option.isSome_map]

theorem completed_foldl_write (written : List WrittenChunk) (h : History) :
    (written.foldl History.write h).completed = h.completed := by
  induction written generalizing h with
  | nil => rfl
  | cons chunk written ih => exact ih _

/-- The chunks a stream begins with are its own. -/
theorem Inv.own (v : s.Inv) {format : StreamFormat} (hconfigured : s.stream.configured = true)
    (hformat : format ∈ streamFormats) :
    (s.step (.open format : Op σ)).history.completed = 0 ∧
      (s.step (.open format : Op σ)).stream.records.count =
        (s.step (.open format : Op σ)).history.places := by
  obtain ⟨v', hopen⟩ := v.opened (σ := σ) hconfigured hformat
  have hplaced := (v'.queueing hopen).placed
  have hzero : (s.step (.open format : Op σ)).history.completed = 0 := by
    rw [step_open hconfigured hformat]
    exact completed_foldl_write _ _
  refine ⟨hzero, ?_⟩
  rw [v'.length_records, hplaced, hzero, Nat.zero_add]

/-- While a stream is open its records are, in order, the chunk in flight and those in the FIFO.
They end with it, and the next stream's are its own. -/
theorem run_inStep (ops : List (Op σ)) :
    let s := run {} ops
    (s.stream.counters.state ≠ .closed → s.InStep) ∧
    (s.stream.counters.state = .closed →
      s.stream.records.toList = [] ∧ s.fifo.packets = [] ∧ s.loaded = none) ∧
    (∀ op : Op σ, op = .configure ∨ op = .deconfigure ∨ op = .close →
      (s.step op).stream.counters.state = .closed ∧ (s.step op).stream.records.toList = []) ∧
    (∀ format, s.stream.configured = true → format ∈ streamFormats →
      (s.step (.open format : Op σ)).history.completed = 0 ∧
        (s.step (.open format : Op σ)).stream.records.count =
          (s.step (.open format : Op σ)).history.places) := by
  intro s
  have v : s.Inv := Inv.initial.run ops
  refine ⟨v.inStep, fun hclosed => ?_, ?_, fun format => v.own⟩
  · obtain ⟨hrecords, -, hfifo, hloaded, -⟩ := v.stopped hclosed
    exact ⟨hrecords, hfifo, hloaded⟩
  · rintro op (rfl | rfl | rfl)
    · exact ⟨rfl, rfl⟩
    · exact ⟨rfl, rfl⟩
    · exact ⟨rfl, rfl⟩

end Bus

end WaveformGenerator.UsbAudio
