import WaveformGenerator.UsbAudio.Stream

/-!
# The stream on the bus

The stream with TinyUSB's IN FIFO and endpoint: a FIFO that keeps whole packets in order and drops
them with the stream, and an endpoint that loads one packet before each completion's handler runs,
or a zero-length one when the FIFO is empty. The history says of each chunk written whose it is and
where it stands on its stream.
-/

namespace WaveformGenerator.UsbAudio

/-- TinyUSB's IN FIFO: the packets written and not yet loaded, oldest first. -/
structure TinyUsbFifo where
  packets : List (List UInt8) := []
  deriving DecidableEq, Repr

namespace TinyUsbFifo

def level (fifo : TinyUsbFifo) : Nat := (fifo.packets.map List.length).sum

instance : InFifo TinyUsbFifo where
  queued fifo := .ofNat fifo.level
  freeSpace fifo := fifoCapacityBytes - .ofNat fifo.level
  write fifo packet :=
    if fifo.level + packet.length ≤ fifoCapacityBytes.toNat then
      (.ofNat packet.length, ⟨fifo.packets ++ [packet]⟩)
    else
      (0, fifo)

end TinyUsbFifo

/-! ## The history of a run -/

/-- A chunk written to the FIFO: for which play, counted from boot, and its place on its stream. -/
structure QueuedChunk where
  chunk : WrittenChunk
  play : Nat
  place : Nat
  deriving DecidableEq, Repr

/-- The source frames a chunk carries for a play. -/
def QueuedChunk.framesFor (play : Nat) (c : QueuedChunk) : List StereoFrame :=
  if c.play = play then c.chunk.frames.toList.take c.chunk.fileFrames.toNat else []

structure History where
  /-- The chunks in the FIFO, oldest first. -/
  queue : List QueuedChunk := []
  /-- The chunk in flight; none for a zero-length packet. -/
  flying : Option QueuedChunk := none
  /-- The chunks whose completion has come, oldest first. -/
  sent : List QueuedChunk := []
  /-- The source frames taken for the current play. -/
  taken : List StereoFrame := []
  /-- The plays accepted or cleared since boot. -/
  plays : Nat := 0
  /-- The streams opened since boot, and how many there were when the play was accepted. -/
  openings : Nat := 0
  acceptedAt : Nat := 0
  /-- The chunks written, and those whose completion has come, since the stream opened. -/
  places : Nat := 0
  completed : Nat := 0
  deriving DecidableEq, Repr

namespace History

/-- The chunks written and not yet confirmed, oldest first. -/
def pending (h : History) : List QueuedChunk := h.flying.toList ++ h.queue

/-- The source frames of the current play whose completion has come. -/
def sentFrames (h : History) : List StereoFrame :=
  h.sent.flatMap (QueuedChunk.framesFor h.plays)

/-- A chunk of the current play is written. -/
def write (h : History) (chunk : WrittenChunk) : History :=
  let c : QueuedChunk := ⟨chunk, h.plays, h.places⟩
  { h with
    queue := h.queue ++ [c]
    taken := h.taken ++ c.framesFor h.plays
    places := h.places + 1 }

/-- A completion comes, and the endpoint has loaded the next packet. -/
def load (h : History) : History :=
  { h with
    sent := h.sent ++ h.flying.toList
    completed := h.completed + h.flying.toList.length
    flying := h.queue.head?
    queue := h.queue.tail }

/-- The FIFO is emptied. -/
def drop (h : History) : History := { h with queue := [], flying := none }

/-- Another play begins. -/
def restart (h : History) : History := { h with plays := h.plays + 1, taken := [] }

end History

/-! ## Runs -/

structure Bus where
  stream : UacStream := {}
  fifo : TinyUsbFifo := {}
  /-- The packet in flight; none for a zero-length one. -/
  loaded : Option (List UInt8) := none
  history : History := {}
  deriving DecidableEq

inductive Op (σ : Type)
  | configure
  | deconfigure
  | «open» (format : StreamFormat)
  | close
  /-- A completion comes; `source` is the play's source as its handler finds it. -/
  | txDone (completion : Completion) (source : σ)
  | acceptPlay
  | clearPlay
  | arm (now : TickCount) (stallTimeout : TickSpan) (start : Option ScheduledStart)
  | disarm
  | onWatchdog (transfer : InTransfer)

namespace Bus

/-- The stream ends and TinyUSB drops its FIFO. -/
def ended (s : Bus) (stream : UacStream) : Bus where
  stream := stream
  fifo := {}
  loaded := none
  history := s.history.drop

def step {σ : Type} [FrameSource σ] (s : Bus) : Op σ → Bus
  | .configure => s.ended s.stream.configure
  | .deconfigure => s.ended s.stream.deconfigure
  | .close => s.ended s.stream.close
  | .open format =>
    let (status, feed) := s.stream.open ({} : TinyUsbFifo) format
    if status.isOk then
      { stream := feed.stream
        fifo := feed.fifo
        loaded := none
        history := feed.written.foldl History.write
          { s.history.drop with
            openings := s.history.openings + 1, places := 0, completed := 0 } }
    else
      s
  | .txDone completion source =>
    let feed := s.stream.onTxDone (⟨s.fifo.packets.tail⟩ : TinyUsbFifo) source completion
    { stream := feed.stream
      fifo := feed.fifo
      loaded := s.fifo.packets.head?
      history := feed.written.foldl History.write s.history.load }
  | .acceptPlay =>
    let (status, stream) := s.stream.acceptPlay
    if status.isOk then
      { s with
        stream
        history := { s.history.restart with acceptedAt := s.history.openings } }
    else
      s
  | .clearPlay => { s with stream := s.stream.clearPlay, history := s.history.restart }
  | .arm now stallTimeout start => { s with stream := (s.stream.arm now stallTimeout start).2 }
  | .disarm => { s with stream := s.stream.disarm }
  | .onWatchdog transfer => { s with stream := s.stream.onWatchdog transfer }

def run {σ : Type} [FrameSource σ] (s : Bus) (ops : List (Op σ)) : Bus := ops.foldl step s

end Bus

end WaveformGenerator.UsbAudio
