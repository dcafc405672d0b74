import WaveformGenerator.UsbAudio.Bus
import WaveformGenerator.UsbAudio.Kept

/-!
# What queueing and crediting see

Of the stream's state only a part decides which chunks are queued and what they credit to a play.
Judging gaps, the stall clock and the mismatch count leave that part as it is.
-/

namespace WaveformGenerator.UsbAudio

/-- The stream as its queue and its play's credit see it. -/
structure Ledger where
  state : StreamState
  format : StreamFormat
  opens : UInt32
  framesSent : FrameCount
  framesQueued : FrameCount
  rejectedChunks : UInt32
  records : ChunkRecords
  queuedCrcs : ChannelCrcs
  playOpens : UInt32
  inFlight : Bool
  armed : Bool
  fileFrames : FrameCount
  firstFrameIndex : FrameCount
  lastFrameIndex : FrameCount
  crc32Left : UInt32
  crc32Right : UInt32
  pendingFrames : FrameCount

namespace UacStream

variable (s : UacStream)

def ledger : Ledger where
  state := s.counters.state
  format := s.counters.format
  opens := s.counters.opens
  framesSent := s.counters.framesSent
  framesQueued := s.counters.framesQueued
  rejectedChunks := s.counters.rejectedChunks
  records := s.records
  queuedCrcs := s.queuedCrcs
  playOpens := s.playOpens
  inFlight := s.inFlight
  armed := s.play.armed
  fileFrames := s.play.fileFrames
  firstFrameIndex := s.play.firstFrameIndex
  lastFrameIndex := s.play.lastFrameIndex
  crc32Left := s.play.crc32Left
  crc32Right := s.play.crc32Right
  pendingFrames := s.play.pendingFrames

/-! ## What leaves it as it is -/

@[simp] theorem ledger_trackInterval (completion : Completion) :
    (s.trackInterval completion).ledger = s.ledger :=
  (s.trackInterval_recounts completion).kept fun _ _ => rfl

@[simp] theorem ledger_noteMismatch (reported : ByteCount) (confirmed : FrameCount) :
    (s.noteMismatch reported confirmed).ledger = s.ledger :=
  s.noteMismatch_kept reported confirmed fun _ _ => rfl

@[simp] theorem ledger_onWatchdog (transfer : InTransfer) :
    (s.onWatchdog transfer).ledger = s.ledger := by
  unfold onWatchdog
  split <;> rfl

end UacStream

/-! ## What moves it -/

namespace Ledger

/-- The ledger once the oldest record's chunk is confirmed sent and its record dropped. -/
def credit (l : Ledger) (record : ChunkRecord) : Ledger :=
  if record.fileFrames = 0 then
    { l with records := l.records.pop }
  else
    { l with
      records := l.records.pop
      firstFrameIndex := if l.fileFrames = 0 then record.start else l.firstFrameIndex
      fileFrames := l.fileFrames + record.fileFrames
      lastFrameIndex := record.start + record.fileFrames - 1
      crc32Left := record.crc32Left
      crc32Right := record.crc32Right
      pendingFrames := l.pendingFrames - min l.pendingFrames record.fileFrames }

/-- The ledger once the records of the chunks sent, at most `limit` of them, are credited. -/
def retireWithin : Nat → Ledger → Ledger
  | 0, l => l
  | limit + 1, l =>
    match l.records.front with
    | none => l
    | some oldest =>
      if l.framesSent - oldest.start < chunkFrames ∨
          l.framesSent - oldest.start > UacStream.maxOutstandingFrames then
        l
      else
        retireWithin limit (l.credit oldest)

/-- The ledger once a completion has come, with the FIFO at `level` after its load. -/
def commit (l : Ledger) (level : ByteCount) : Ledger :=
  let confirmed := if l.inFlight then chunkFrames else 0
  let unconfirmed := l.framesQueued - (l.framesSent + confirmed)
  let l := { l with inFlight := unconfirmed > level / frameBytes l.format }
  if l.state = .priming ∧ confirmed = 0 then
    l
  else
    retireWithin l.records.count
      { l with state := .streaming, framesSent := l.framesSent + confirmed }

/-- The ledger once a chunk is written with `fileFrames` of its frames the play's. -/
def queueChunk (l : Ledger) (chunk : Chunk) (fileFrames : FrameCount) : Ledger :=
  let crcs := (chunk.toList.take fileFrames.toNat).foldl UacStream.addFrame l.queuedCrcs
  { l with
    records := (l.records.push
      { start := l.framesQueued, fileFrames, crc32Left := crcs.left.value,
        crc32Right := crcs.right.value }).2
    queuedCrcs := crcs
    framesQueued := l.framesQueued + chunkFrames
    pendingFrames := l.pendingFrames + fileFrames }

end Ledger

namespace UacStream

variable {s : UacStream}

theorem ledger_apply (record : ChunkRecord) :
    ({ s.apply record with records := s.records.pop } : UacStream).ledger =
      s.ledger.credit record := by
  unfold apply Ledger.credit
  split
  · rfl
  · dsimp only
    split
    · rename_i h
      have hf : s.ledger.fileFrames = 0 := h
      rw [if_pos hf]
      rfl
    · rename_i h
      have hf : ¬ s.ledger.fileFrames = 0 := h
      rw [if_neg hf]
      rfl

theorem records_apply (record : ChunkRecord) : (s.apply record).records = s.records := by
  unfold apply
  split <;> rfl

theorem ledger_retireWithin (limit : Nat) (s : UacStream) :
    (retireWithin limit s).ledger = s.ledger.retireWithin limit := by
  induction limit generalizing s with
  | zero => rfl
  | succ limit ih =>
    unfold retireWithin Ledger.retireWithin
    have hfront : s.ledger.records.front = s.records.front := rfl
    rw [hfront]
    cases s.records.front with
    | none => rfl
    | some oldest =>
      dsimp only
      have hsent : s.ledger.framesSent = s.counters.framesSent := rfl
      rw [hsent]
      split
      · rfl
      · rw [ih, records_apply, ledger_apply]

@[simp] theorem ledger_startReached (s : UacStream) : s.startReached.2.ledger = s.ledger := by
  unfold startReached
  split
  · rfl
  · split <;> rfl

/-- A fill touches no count; it takes at most a chunk of frames, and only for an armed play. -/
theorem fill_spec {σ : Type} [FrameSource σ] (s : UacStream) (source : σ) :
    (s.fill source).2.1.ledger = s.ledger ∧ (s.fill source).1.toNat ≤ 48 ∧
      ((s.fill source).1 ≠ 0 → s.ledger.armed = true) := by
  unfold fill
  dsimp only
  split
  · rename_i harmed
    split
    · refine ⟨s.ledger_startReached, ?_, fun _ => harmed⟩
      rw [toNat_min32]
      exact Nat.min_le_right ..
    · exact ⟨s.ledger_startReached, Nat.zero_le _, fun _ => harmed⟩
  · exact ⟨rfl, Nat.zero_le _, fun h => absurd rfl h⟩

theorem ledger_commit (s : UacStream) (completion : Completion) (level : ByteCount) :
    (s.commit completion level).ledger = s.ledger.commit level := by
  have hloaded : ((s.noteProgress completion.tick).confirmLoaded level).2.ledger =
      { s.ledger with inFlight := s.ledger.framesQueued - (s.ledger.framesSent +
          if s.ledger.inFlight then chunkFrames else 0) > level / frameBytes s.ledger.format } :=
    rfl
  have hconfirmed : ((s.noteProgress completion.tick).confirmLoaded level).1 =
      if s.ledger.inFlight then chunkFrames else 0 := rfl
  have hnoted := ledger_noteMismatch ((s.noteProgress completion.tick).confirmLoaded level).2
    completion.sent (if s.ledger.inFlight then chunkFrames else 0)
  rw [hloaded] at hnoted
  unfold commit Ledger.commit
  dsimp only
  rw [hconfirmed]
  generalize ((s.noteProgress completion.tick).confirmLoaded level).2.noteMismatch
    completion.sent (if s.ledger.inFlight then chunkFrames else 0) = noted at hnoted ⊢
  generalize (if s.ledger.inFlight then chunkFrames else 0) = confirmed at hnoted ⊢
  have hstate : noted.counters.state = s.ledger.state := congrArg Ledger.state hnoted
  rw [hstate]
  by_cases hprimer : s.ledger.state = .priming ∧ confirmed = 0
  · rw [if_pos hprimer, if_pos hprimer]
    exact hnoted
  · rw [if_neg hprimer, if_neg hprimer]
    generalize (if completion.sent ≠ packetBytes noted.counters.format then
      noted.counters.shortPackets + 1 else noted.counters.shortPackets) = shortPackets
    -- Judging the gap leaves the ledger of a data completion as it is.
    have htracked := ledger_trackInterval
      { noted with counters := { noted.counters with shortPackets, state := .streaming } } completion
    generalize trackInterval
      { noted with counters := { noted.counters with shortPackets, state := .streaming } }
      completion = tracked at htracked ⊢
    have hkept : noted.records = s.ledger.records := congrArg Ledger.records hnoted
    have hrecords : tracked.records = noted.records := congrArg Ledger.records htracked
    have hcommitted : ({ tracked with counters := { tracked.counters with
        framesSent := tracked.counters.framesSent + confirmed } } : UacStream).ledger =
          { tracked.ledger with framesSent := tracked.ledger.framesSent + confirmed } := rfl
    have hstreaming : ({ noted with counters := { noted.counters with
        shortPackets, state := .streaming } } : UacStream).ledger =
          { noted.ledger with state := .streaming } := rfl
    rw [retireSentChunks, ledger_retireWithin, hcommitted, htracked, hstreaming, hnoted]
    simp only [hrecords, hkept]

end UacStream

end WaveformGenerator.UsbAudio
