import WaveformGenerator.Playlist.Timing
import WaveformGenerator.UsbAudio.Feeding

/-!
# A scheduled start

An armed play waits for the chunk of its stream that its start names, and begins with it.
-/

namespace WaveformGenerator.UsbAudio

/-- A chunk of silence, none of it a play's. -/
def silentChunk : WrittenChunk := ⟨.replicate 48 {}, 0⟩

/-- The chunk that a play takes from its source. -/
def suppliedChunk {σ : Type} [FrameSource σ] (source : σ) : WrittenChunk :=
  ⟨(FrameSource.fill source).2.1, min (FrameSource.fill source).1 chunkFrames⟩

/-- The chunks that have been written and not dropped, oldest first. -/
def History.chunks (h : History) : List QueuedChunk := h.sent ++ h.pending

theorem History.chunks_write (h : History) (chunk : WrittenChunk) :
    (h.write chunk).chunks = h.chunks ++ [⟨chunk, h.plays, h.places⟩] := by
  simp [History.chunks, History.pending, History.write]

theorem History.chunks_load (h : History) : h.load.chunks = h.chunks := by
  cases hqueue : h.queue <;> simp [History.chunks, History.pending, History.load, hqueue]

/-- An armed play that begins with chunk `place` of its stream: it waits for it, or takes chunks
already. -/
def UacStream.Due (place : Nat) (s : UacStream) (h : History) : Prop :=
  s.startAt = none ∧ place ≤ h.places ∨
    s.startAt = some (.ofNat (48 * place)) ∧ h.places ≤ place ∧ 48 * (place - h.places) < 2 ^ 31

/-- The chunks that a play due at `place` adds: silence before it, and there the source's. -/
structure Adds (place : Nat) (supplied : WrittenChunk → Prop) (h h' : History)
    (new : List QueuedChunk) : Prop where
  chunks : h'.chunks = h.chunks ++ new
  places : new.map QueuedChunk.place = List.range' h.places new.length
  next : h'.places = h.places + new.length
  plays : h'.plays = h.plays
  play : ∀ c ∈ new, c.play = h.plays
  waits : ∀ c ∈ new, c.place < place → c.chunk = silentChunk
  begins : ∀ c ∈ new, c.place = place → supplied c.chunk

namespace Adds

variable {place : Nat} {supplied supplied' : WrittenChunk → Prop} {h h' h'' : History}
  {new new' : List QueuedChunk}

theorem nil (hchunks : h'.chunks = h.chunks) (hplaces : h'.places = h.places)
    (hplays : h'.plays = h.plays) : Adds place supplied h h' [] where
  chunks := hchunks.trans (List.append_nil _).symm
  places := rfl
  next := hplaces
  plays := hplays
  play := nofun
  waits := nofun
  begins := nofun

theorem append (a : Adds place supplied h h' new) (b : Adds place supplied h' h'' new') :
    Adds place supplied h h'' (new ++ new') where
  chunks := by rw [b.chunks, a.chunks, List.append_assoc]
  places := by
    rw [List.map_append, a.places, b.places, a.next, List.length_append, List.range'_append_1]
  next := by rw [b.next, a.next, List.length_append, Nat.add_assoc]
  plays := b.plays.trans a.plays
  play c hc := (List.mem_append.mp hc).elim (a.play c) fun hc => (b.play c hc).trans a.plays
  waits c hc := (List.mem_append.mp hc).elim (a.waits c) (b.waits c)
  begins c hc := (List.mem_append.mp hc).elim (a.begins c) (b.begins c)

theorem imp (a : Adds place supplied h h' new) (himp : ∀ c ∈ new, c.place = place →
    supplied c.chunk → supplied' c.chunk) : Adds place supplied' h h' new :=
  { a with begins := fun c hc hplace => himp c hc hplace (a.begins c hc hplace) }

end Adds

/-! ## Before and at the start -/

/-- A position less than half the range before a target has not reached it. -/
theorem indexReached_ahead {position target : Nat} (hbefore : position < target)
    (hnear : target - position < 2 ^ 31) :
    indexReached (.ofNat position) (.ofNat target) = false := by
  have hsum : UInt32.ofNat target = .ofNat position + .ofNat (target - position) := by
    rw [← UInt32.ofNat_add, Nat.add_sub_cancel' (Nat.le_of_lt hbefore)]
  have hdistance : UInt32.ofNat position - .ofNat target = 0 - .ofNat (target - position) := by
    rw [hsum]
    grind
  have hsmall : (UInt32.ofNat (target - position)).toNat = target - position :=
    toNat_ofNat32 (by omega)
  have hhalf : (0x80000000 : UInt32).toNat = 2 ^ 31 := rfl
  rw [indexReached, hdistance, decide_eq_false_iff_not, UInt32.lt_iff_toNat_lt, UInt32.toNat_sub,
    hsmall, hhalf, UInt32.toNat_zero]
  omega

theorem indexReached_past {position target : Nat} (hreached : target ≤ position)
    (hnear : position - target < 2 ^ 31) :
    indexReached (.ofNat position) (.ofNat target) = true := by
  have hsum : UInt32.ofNat position = .ofNat target + .ofNat (position - target) := by
    rw [← UInt32.ofNat_add, Nat.add_sub_cancel' hreached]
  have hsmall : (UInt32.ofNat (position - target)).toNat = position - target :=
    toNat_ofNat32 (by omega)
  have hhalf : (0x80000000 : UInt32).toNat = 2 ^ 31 := rfl
  rw [indexReached, hsum, UInt32.add_comm, UInt32.add_sub_cancel, decide_eq_true_eq,
    UInt32.lt_iff_toNat_lt, hsmall, hhalf]
  exact hnear

namespace UacStream

variable {place : Nat} {s : UacStream} {h : History} {σ : Type} [FrameSource σ]

/-- What an armed play due at `place` puts in its next chunk. -/
theorem fill_due (hdue : s.Due place h) (harmed : s.play.armed = true)
    (hqueued : s.counters.framesQueued = .ofNat (48 * h.places)) (source : σ) :
    ∃ filled source', s.fill source = ((if h.places < place then silentChunk else
        suppliedChunk source).fileFrames, filled, source') ∧
      filled.chunk = (if h.places < place then silentChunk else suppliedChunk source).frames ∧
      filled.play = s.play ∧ (h.places < place → source' = source) ∧
      filled.startAt = (if h.places < place then s.startAt else none) := by
  unfold fill startReached
  rw [if_pos harmed]
  rcases hdue with ⟨hstart, hpast⟩ | ⟨hstart, hbefore, hnear⟩
  · rw [hstart, if_neg (Nat.not_lt.mpr hpast), if_neg (Nat.not_lt.mpr hpast)]
    exact ⟨_, _, rfl, rfl, rfl, fun hlt => absurd hlt (Nat.not_lt.mpr hpast), hstart⟩
  · rw [hstart]
    dsimp only
    rw [hqueued]
    by_cases hlt : h.places < place
    · have hnot : indexReached (.ofNat (48 * h.places)) (.ofNat (48 * place)) = false :=
        indexReached_ahead (by omega) (by omega)
      rw [hnot, if_pos hlt, if_pos hlt]
      exact ⟨_, _, rfl, rfl, rfl, fun _ => rfl, hstart⟩
    · have hreached : indexReached (.ofNat (48 * h.places)) (.ofNat (48 * place)) = true :=
        indexReached_past (by omega) (by omega)
      rw [hreached, if_neg hlt, if_neg hlt]
      exact ⟨_, _, rfl, rfl, rfl, fun h => absurd h hlt, rfl⟩

theorem startAt_queueChunk (s : UacStream) (fifo : TinyUsbFifo) (fileFrames : FrameCount) :
    (s.queueChunk fifo fileFrames).2.1.startAt = s.startAt := by
  unfold queueChunk
  dsimp only
  split
  · rfl
  · split <;> rfl

/-- One more chunk of the play that is due. -/
theorem adds_write {fileFrames : FrameCount} {frames : Chunk} {source : σ}
    (hframes : frames = (if h.places < place then silentChunk else suppliedChunk source).frames)
    (hfile : fileFrames =
      (if h.places < place then silentChunk else suppliedChunk source).fileFrames) :
    Adds place (· = suppliedChunk source) h (h.write ⟨frames, fileFrames⟩)
      [⟨⟨frames, fileFrames⟩, h.plays, h.places⟩] where
  chunks := History.chunks_write ..
  places := rfl
  next := rfl
  plays := rfl
  play c hc := by rw [List.mem_singleton.mp hc]
  waits c hc hplace := by
    obtain rfl := List.mem_singleton.mp hc
    rw [hframes, hfile, if_pos hplace]
  begins c hc hplace := by
    obtain rfl := List.mem_singleton.mp hc
    rw [hframes, hfile, if_neg (Nat.not_lt.mpr (Nat.le_of_eq hplace.symm))]

theorem due_write (hdue : s.Due place h) {s' : UacStream}
    (hstart : s'.startAt = if h.places < place then s.startAt else none) (chunk : WrittenChunk) :
    s'.Due place (h.write chunk) := by
  show _ ∧ place ≤ h.places + 1 ∨ _ ∧ h.places + 1 ≤ place ∧ 48 * (place - (h.places + 1)) < 2 ^ 31
  by_cases hlt : h.places < place
  · rw [if_pos hlt] at hstart
    rcases hdue with ⟨-, hpast⟩ | ⟨hscheduled, -, hnear⟩
    · exact absurd hlt (Nat.not_lt.mpr hpast)
    · exact .inr ⟨hstart.trans hscheduled, hlt, by omega⟩
  · rw [if_neg hlt] at hstart
    exact .inl ⟨hstart, by omega⟩

/-- What a top-up adds of a play that is due. -/
theorem topUpWithin_due (limit : Nat) (feed : Feed TinyUsbFifo σ)
    {loaded : Option (List UInt8)} (q : Queueing feed.stream.ledger feed.fifo loaded h)
    (hdue : feed.stream.Due place h) (harmed : feed.stream.play.armed = true) {source : σ}
    (hsource : h.places ≤ place → feed.source = source) :
    ∃ new added, (topUpWithin limit feed).written = feed.written ++ new ∧
      Queueing (topUpWithin limit feed).stream.ledger (topUpWithin limit feed).fifo loaded
        (new.foldl History.write h) ∧
      (topUpWithin limit feed).stream.Due place (new.foldl History.write h) ∧
      (topUpWithin limit feed).stream.play.armed = true ∧
      Adds place (· = suppliedChunk source) h (new.foldl History.write h) added := by
  induction limit generalizing feed h with
  | zero => exact ⟨[], [], (List.append_nil _).symm, q, hdue, harmed, .nil rfl rfl rfl⟩
  | succ limit ih =>
    unfold topUpWithin
    split
    case isFalse =>
      exact ⟨[], [], (List.append_nil _).symm, q, hdue, harmed, .nil rfl rfl rfl⟩
    case isTrue hroom =>
      have room := q.room_of_hasRoom hroom
      obtain ⟨hledger, hle, -⟩ := feed.stream.fill_spec feed.source
      obtain ⟨filled, source', hfill, hchunk, hplay, hkept, hstart⟩ :=
        fill_due hdue harmed q.queued feed.source
      rw [hfill] at hledger hle ⊢
      dsimp only at hledger hle ⊢
      have q' : Queueing filled.ledger feed.fifo loaded h := by rw [hledger]; exact q
      generalize hframes : (if h.places < place then silentChunk else
        suppliedChunk feed.source).fileFrames = fileFrames at hle ⊢
      obtain ⟨hstatus, hqueued, hfifo⟩ := q'.queueChunk_eq room fileFrames
      have hstart' := filled.startAt_queueChunk feed.fifo fileFrames
      have hq := q'.write room ⟨filled.chunk, fileFrames⟩ hle
      have harmed' : (filled.ledger.queueChunk filled.chunk fileFrames).armed = true := by
        show filled.play.armed = true
        rw [hplay]
        exact harmed
      generalize filled.queueChunk feed.fifo fileFrames = queued at hstatus hqueued hfifo hstart'
      obtain ⟨status, stream', fifo'⟩ := queued
      dsimp only at hstatus hqueued hfifo hstart' ⊢
      subst hstatus hfifo
      rw [if_pos Status.isOk_success]
      rw [← hqueued] at hq harmed'
      have hdue' := due_write hdue (hstart'.trans hstart) ⟨filled.chunk, fileFrames⟩
      have hadds : Adds place (· = suppliedChunk source) h (h.write ⟨filled.chunk, fileFrames⟩)
          [⟨⟨filled.chunk, fileFrames⟩, h.plays, h.places⟩] := by
        refine (adds_write hchunk hframes.symm).imp fun c hc hplace hsupplied => ?_
        obtain rfl := List.mem_singleton.mp hc
        rw [← hsource (Nat.le_of_eq hplace)]
        exact hsupplied
      obtain ⟨new, added, hwritten, hq', hdue'', harmed'', hadds'⟩ := ih
        ⟨stream', _, source', feed.written ++ [⟨filled.chunk, fileFrames⟩]⟩ hq hdue' harmed'
        fun hbefore => (hkept hbefore).trans (hsource (Nat.le_of_succ_le hbefore))
      refine ⟨⟨filled.chunk, fileFrames⟩ :: new, _ :: added, ?_, hq', hdue'', harmed'',
        hadds.append hadds'⟩
      rw [hwritten, List.append_assoc]
      rfl

end UacStream

/-! ## Runs -/

theorem Ledger.armed_retireWithin (limit : Nat) (l : Ledger) :
    (l.retireWithin limit).armed = l.armed := by
  induction limit generalizing l with
  | zero => rfl
  | succ limit ih =>
    unfold Ledger.retireWithin
    split
    · rfl
    · rename_i oldest _
      split
      · rfl
      · refine (ih _).trans ?_
        unfold Ledger.credit
        split <;> rfl

theorem Ledger.armed_commit (l : Ledger) (level : ByteCount) :
    (l.commit level).armed = l.armed := by
  unfold Ledger.commit
  dsimp only
  generalize (if l.inFlight = true then chunkFrames else 0) = confirmed
  split
  · rfl
  · exact Ledger.armed_retireWithin ..

/-- An operation while a play goes on: a completion comes, or the watchdog expires. -/
def Op.GoesOn {σ : Type} : Op σ → Prop
  | .txDone _ _ | .onWatchdog _ => True
  | _ => False

namespace Bus

variable {s : Bus} {σ : Type} [FrameSource σ] {place : Nat}

/-- A play that is due on an open stream. -/
structure Waiting (s : Bus) (place : Nat) : Prop where
  inv : s.Inv
  isOpen : s.stream.counters.state ≠ .closed
  armed : s.stream.play.armed = true
  due : s.stream.Due place s.history

theorem Waiting.txDone (w : s.Waiting place) (completion : Completion) (source : σ) :
    (s.step (.txDone completion source)).Waiting place ∧ ∃ added,
      Adds place (· = suppliedChunk source) s.history (s.step (.txDone completion source)).history
        added := by
  have q := w.inv.queueing w.isOpen
  have hcommit := q.commit
  have hopen := q.state_commit
  have hledger := s.stream.ledger_commit completion
    (.ofNat (⟨s.fifo.packets.tail⟩ : TinyUsbFifo).level)
  have hstart := s.stream.startAt_commit completion
    (.ofNat (⟨s.fifo.packets.tail⟩ : TinyUsbFifo).level)
  have harmed := (s.stream.ledger.armed_commit
    (.ofNat (⟨s.fifo.packets.tail⟩ : TinyUsbFifo).level)).trans w.armed
  rw [← hledger] at hcommit hopen harmed
  have hfeed : s.stream.onTxDone (⟨s.fifo.packets.tail⟩ : TinyUsbFifo) source completion =
      (s.stream.commit completion
        (.ofNat (⟨s.fifo.packets.tail⟩ : TinyUsbFifo).level)).topUp ⟨s.fifo.packets.tail⟩ source :=
    if_neg w.isOpen
  have hdue : (s.stream.commit completion
      (.ofNat (⟨s.fifo.packets.tail⟩ : TinyUsbFifo).level)).Due place s.history.load := by
    rw [UacStream.Due, hstart]
    exact w.due
  obtain ⟨new, added, hwritten, -, hdue', harmed', hadds⟩ := UacStream.topUpWithin_due
    fifoTargetChunks.toNat ⟨_, ⟨s.fifo.packets.tail⟩, source, []⟩ hcommit hdue harmed fun _ => rfl
  have hcredit := w.inv.credit.commit q w.isOpen
  rw [← hledger] at hcredit
  have hstill := (topUp_inv source hopen hcommit hcredit).2
  have hinv := w.inv.txDone completion source
  have hhistory : (s.step (.txDone completion source)).history =
      new.foldl History.write s.history.load := by
    unfold step
    dsimp only
    rw [hfeed]
    exact congrArg (List.foldl _ _) hwritten
  have hstream : (s.step (.txDone completion source)).stream =
      ((s.stream.commit completion (.ofNat (⟨s.fifo.packets.tail⟩ : TinyUsbFifo).level)).topUp
        (⟨s.fifo.packets.tail⟩ : TinyUsbFifo) source).stream := by
    unfold step
    dsimp only
    rw [hfeed]
  refine ⟨⟨hinv, hstream ▸ hstill, hstream ▸ harmed', ?_⟩, added, ?_⟩
  · rw [hhistory, hstream]
    exact hdue'
  · rw [hhistory]
    have hload : Adds place (· = suppliedChunk source) s.history s.history.load [] :=
      .nil s.history.chunks_load rfl rfl
    exact hload.append hadds

theorem Waiting.onWatchdog (w : s.Waiting place) (transfer : InTransfer) :
    (s.step (.onWatchdog transfer : Op σ)).Waiting place := by
  have hledger := s.stream.ledger_onWatchdog transfer
  have hstart : (s.stream.onWatchdog transfer).startAt = s.stream.startAt := by
    unfold UacStream.onWatchdog
    split <;> rfl
  have hstate : (s.stream.onWatchdog transfer).counters.state = s.stream.counters.state :=
    congrArg Ledger.state hledger
  have harmed : (s.stream.onWatchdog transfer).play.armed = s.stream.play.armed :=
    congrArg Ledger.armed hledger
  refine ⟨w.inv.step _, fun hclosed => w.isOpen (hstate.symm.trans hclosed),
    harmed.trans w.armed, ?_⟩
  have hdue := w.due
  rw [UacStream.Due, ← hstart] at hdue
  exact hdue

/-- The handler that fills chunk `place` of a run takes it from the source it finds. -/
def SuppliedIn (s : Bus) (place : Nat) (ops : List (Op σ)) (chunk : WrittenChunk) : Prop :=
  ∃ earlier completion source rest, ops = earlier ++ .txDone completion source :: rest ∧
    (s.run earlier).history.places ≤ place ∧
    place < (s.run (earlier ++ [.txDone completion source])).history.places ∧
    chunk = suppliedChunk source

/-- What a run adds of a play that is due. -/
theorem Waiting.run (w : s.Waiting place) {ops : List (Op σ)} (hops : ∀ op ∈ ops, op.GoesOn) :
    (s.run ops).Waiting place ∧ ∃ added,
      Adds place (s.SuppliedIn place ops) s.history (s.run ops).history added := by
  induction ops using List.reverseRecOn with
  | nil => exact ⟨w, [], .nil rfl rfl rfl⟩
  | append_singleton ops op ih =>
    rw [List.forall_mem_append, List.forall_mem_singleton] at hops
    obtain ⟨w', added, hadds⟩ := ih hops.1
    have hstep : s.run (ops ++ [op]) = (s.run ops).step op := List.foldl_append
    have hearlier : Adds place (s.SuppliedIn place (ops ++ [op])) s.history (s.run ops).history
        added := by
      refine hadds.imp fun c _ _ hsupplied => ?_
      obtain ⟨earlier, completion, source, rest, rfl, hrest⟩ := hsupplied
      exact ⟨earlier, completion, source, rest ++ [op], by simp, hrest⟩
    rw [hstep]
    cases op with
    | txDone completion source =>
      obtain ⟨w'', added', hadds'⟩ := w'.txDone completion source
      refine ⟨w'', added ++ added', hearlier.append (hadds'.imp fun c hc hplace hsupplied => ?_)⟩
      have hplaces : c.place ∈ added'.map QueuedChunk.place := List.mem_map_of_mem hc
      rw [hadds'.places, List.mem_range'_1, hplace] at hplaces
      refine ⟨ops, completion, source, [], rfl, hplaces.1, ?_, hsupplied⟩
      rw [hstep, hadds'.next]
      exact hplaces.2
    | onWatchdog transfer =>
      have hsame : Adds place (s.SuppliedIn place (ops ++ [.onWatchdog transfer])) (s.run ops).history
          ((s.run ops).step (.onWatchdog transfer : Op σ)).history [] := .nil rfl rfl rfl
      exact ⟨w'.onWatchdog transfer, _, hearlier.append hsame⟩
    | _ => exact hops.2.elim

/-! ## The play that begins -/

/-- A play accepted on the stream that is open, of which no frame has been taken yet. -/
structure Accepted (s : Bus) : Prop where
  isOpen : s.stream.counters.state ≠ .closed
  same : s.history.openings = s.history.acceptedAt
  taken : s.history.taken = []

theorem Accepted.framesFor (a : s.Accepted) (v : s.Inv) :
    ∀ c ∈ s.history.chunks, c.framesFor s.history.plays = [] := by
  have k := v.credit.crc (by rw [a.same]; omega)
  have htaken := k.taken ⟨a.isOpen, a.same⟩
  rw [a.taken] at htaken
  obtain ⟨hsent, hpending⟩ := List.append_eq_nil_iff.mp htaken.symm
  intro c hc
  rcases List.mem_append.mp hc with hc | hc
  · exact List.flatMap_eq_nil_iff.mp hsent c hc
  · exact List.flatMap_eq_nil_iff.mp hpending c hc

/-- An accepted play is armed; it is due at `place` as its start says. -/
theorem Accepted.arm (a : s.Accepted) (v : s.Inv) (now : TickCount) (stallTimeout : TickSpan)
    {start : Option ScheduledStart}
    (hdue : (start.bind fun start =>
        if start.streamOpens = s.stream.counters.opens ∧
          !indexReached s.stream.counters.framesQueued start.index then some start.index
        else none) = none ∧ place ≤ s.history.places ∨
      (start.bind fun start =>
        if start.streamOpens = s.stream.counters.opens ∧
          !indexReached s.stream.counters.framesQueued start.index then some start.index
        else none) = some (.ofNat (48 * place)) ∧ s.history.places ≤ place ∧
          48 * (place - s.history.places) < 2 ^ 31) :
    (s.step (.arm now stallTimeout start : Op σ)).Waiting place := by
  have hopens : s.stream.counters.opens = s.stream.playOpens := by
    have hopenings : s.stream.counters.opens = _ := v.credit.opens
    have haccepted : s.stream.playOpens = _ := v.credit.playOpens
    rw [hopenings, haccepted, a.same]
  have hguard : ¬(s.stream.counters.state = .closed ∨
      s.stream.counters.opens ≠ s.stream.playOpens) :=
    not_or.mpr ⟨a.isOpen, not_not.mpr hopens⟩
  have harm : s.step (.arm now stallTimeout start : Op σ) =
      { s with stream := { s.stream with
          startAt := start.bind fun start =>
            if start.streamOpens = s.stream.counters.opens ∧
              !indexReached s.stream.counters.framesQueued start.index then some start.index
            else none
          stallTimeout
          play := { s.stream.play with armed := true, progressTick := now } } } := by
    unfold step UacStream.arm
    dsimp only
    rw [if_neg hguard]
  have hinv := v.step (.arm now stallTimeout start : Op σ)
  rw [harm] at hinv ⊢
  exact ⟨hinv, a.isOpen, rfl, hdue⟩

end Bus

end WaveformGenerator.UsbAudio
