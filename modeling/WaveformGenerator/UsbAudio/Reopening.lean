import WaveformGenerator.UsbAudio.BusRun

/-!
# The count of openings

A stream is told from an earlier one by a 32-bit count of openings. Nothing else of the stream
depends on it, so reopening a stream can bring the count round with all else as it was.
-/

namespace WaveformGenerator.UsbAudio

/-- The stream with `n` more openings counted. -/
def UacStream.later (s : UacStream) (n : Nat) : UacStream :=
  { s with counters := { s.counters with opens := s.counters.opens + .ofNat n } }

namespace UacStream

variable {φ σ : Type} [InFifo φ] [FrameSource σ] (s : UacStream) (n : Nat)

theorem fill_later (source : σ) :
    (s.later n).fill source =
      ((s.fill source).1, (s.fill source).2.1.later n, (s.fill source).2.2) := by
  have harmed : (s.later n).play.armed = s.play.armed := rfl
  have hreached : (s.later n).startReached = (s.startReached.1, s.startReached.2.later n) := by
    have hstart : (s.later n).startAt = s.startAt := rfl
    have hqueued : (s.later n).counters.framesQueued = s.counters.framesQueued := rfl
    unfold startReached
    rw [hstart, hqueued]
    cases s.startAt with
    | none => rfl
    | some start =>
      dsimp only
      split
      · rfl
      · rfl
  unfold fill
  dsimp only
  rw [harmed, hreached]
  cases s.play.armed with
  | false => rfl
  | true =>
    rw [if_pos rfl, if_pos rfl]
    dsimp only
    cases s.startReached.1 with
    | false => rfl
    | true => rfl

theorem queueChunk_later (fifo : φ) (fileFrames : FrameCount) :
    (s.later n).queueChunk fifo fileFrames =
      ((s.queueChunk fifo fileFrames).1, (s.queueChunk fifo fileFrames).2.1.later n,
        (s.queueChunk fifo fileFrames).2.2) := by
  have hcrcs : (s.later n).crcsWith fileFrames = s.crcsWith fileFrames := rfl
  have hrecords : (s.later n).records = s.records := rfl
  have hqueued : (s.later n).counters.framesQueued = s.counters.framesQueued := rfl
  have hchunk : (s.later n).chunk = s.chunk := rfl
  have hformat : (s.later n).counters.format = s.counters.format := rfl
  unfold queueChunk
  dsimp only
  rw [hcrcs, hrecords, hqueued, hchunk, hformat]
  by_cases hrecorded : (!(s.records.push
      { start := s.counters.framesQueued, fileFrames
        crc32Left := (s.crcsWith fileFrames).left.value
        crc32Right := (s.crcsWith fileFrames).right.value }).1.isOk) = true
  · rw [if_pos hrecorded, if_pos hrecorded]
  · rw [if_neg hrecorded, if_neg hrecorded]
    by_cases hwrite : (InFifo.write fifo (packFrames s.chunk s.counters.format)).1 ≠
        packetBytes s.counters.format
    · rw [if_pos hwrite, if_pos hwrite]
      rfl
    · rw [if_neg hwrite, if_neg hwrite]
      rfl

/-- The count of openings plays no part in a top-up. -/
theorem topUpWithin_later (limit : Nat) (feed : Feed φ σ) :
    topUpWithin limit { feed with stream := feed.stream.later n } =
      { topUpWithin limit feed with stream := (topUpWithin limit feed).stream.later n } := by
  induction limit generalizing feed with
  | zero => rfl
  | succ limit ih =>
    have hroom : (feed.stream.later n).hasRoom feed.fifo = feed.stream.hasRoom feed.fifo := rfl
    unfold topUpWithin
    dsimp only
    rw [hroom, fill_later]
    dsimp only
    rw [queueChunk_later]
    split
    · dsimp only
      split
      · exact ih ⟨_, _, _, _⟩
      · rfl
    · rfl
end UacStream

namespace Bus

variable {σ : Type} [FrameSource σ]

/-- The bus with `n` more openings counted. -/
def later (s : Bus) (n : Nat) : Bus :=
  { s with
    stream := s.stream.later n
    history := { s.history with openings := s.history.openings + n } }

theorem later_later (s : Bus) (m n : Nat) : (s.later m).later n = s.later (m + n) := by
  unfold later UacStream.later
  dsimp only
  rw [UInt32.ofNat_add, UInt32.add_assoc, Nat.add_assoc]

theorem foldl_write_later (written : List WrittenChunk) (h : History) (n : Nat) :
    written.foldl History.write { h with openings := h.openings + n } =
      { written.foldl History.write h with
        openings := (written.foldl History.write h).openings + n } := by
  induction written generalizing h with
  | nil => rfl
  | cons chunk written ih => exact ih (h.write chunk)

theorem open_later (s : Bus) (n : Nat) {format : StreamFormat}
    (hconfigured : s.stream.configured = true) (hformat : format ∈ streamFormats) :
    (s.later n).step (.open format : Op σ) = (s.step (.open format : Op σ)).later n := by
  have hopened : (s.stream.later n).opened format = (s.stream.opened format).later n := by
    unfold UacStream.opened UacStream.later UacStream.endStream
    dsimp only
    rw [UInt32.add_assoc, UInt32.add_comm (.ofNat n), ← UInt32.add_assoc]
  have htopUp := UacStream.topUpWithin_later n fifoTargetChunks.toNat
    (⟨s.stream.opened format, {}, (), []⟩ : UacStream.Feed TinyUsbFifo Silence)
  have hdropped := foldl_write_later
    ((s.stream.opened format).topUp ({} : TinyUsbFifo) ()).written
    { s.history.drop with openings := s.history.openings + 1, places := 0, completed := 0 } n
  rw [step_open (s := s.later n) hconfigured hformat, step_open hconfigured hformat]
  unfold later UacStream.topUp
  dsimp only
  rw [hopened, htopUp]
  dsimp only
  rw [Nat.add_right_comm]
  exact congrArg (fun h => Bus.mk _ _ none h) hdropped

theorem close_later (s : Bus) (n : Nat) :
    (s.later n).step (.close : Op σ) = (s.step (.close : Op σ)).later n := rfl

/-- A stream opened and closed. -/
def reopening (format : StreamFormat) : List (Op σ) := [.open format, .close]

/-- Where reopening changes only the count of openings, that is all that any number of reopenings
changes. -/
theorem run_reopenings {s : Bus} {format : StreamFormat} (hconfigured : s.stream.configured = true)
    (hformat : format ∈ streamFormats)
    (hreopening : s.run (reopening format : List (Op σ)) = s.later 1) (k n : Nat) :
    (s.later k).run (List.replicate n (reopening format : List (Op σ))).flatten =
      s.later (k + n) := by
  induction n generalizing k with
  | zero => rfl
  | succ n ih =>
    have hlater : (s.later k).run (reopening format : List (Op σ)) = s.later (k + 1) := by
      rw [Nat.add_comm, ← later_later, ← hreopening]
      show ((s.later k).step (.open format : Op σ)).step (.close : Op σ) = _
      rw [open_later s k hconfigured hformat, close_later]
      rfl
    rw [List.replicate_succ, List.flatten_cons, run, List.foldl_append]
    show Bus.run (Bus.run (s.later k) (reopening format)) _ = _
    rw [hlater, ih, Nat.add_right_comm, Nat.add_assoc]

end Bus

end WaveformGenerator.UsbAudio
