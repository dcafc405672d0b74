import WaveformGenerator.UsbAudio.BusRun
import WaveformGenerator.UsbAudio.Gauge

/-!
# Runs with the intervals completions came in

A completion comes in a bus interval, and its handler reads that interval's number or the next
one's. Alongside a run stand the readings of the open stream's data completions and, of the gaps
judged for the play, the intervals truly skipped.
-/

namespace WaveformGenerator.UsbAudio

/-- A completion's bus interval, whether its handler read the next one's number, and the tick it
read. -/
structure Reading where
  interval : Nat
  late : Bool
  tick : TickCount
  deriving DecidableEq

namespace Reading

/-- The interval number read. -/
def number (r : Reading) : Nat := r.interval + r.late.toNat

/-- The frame number the controller gives for it. -/
def frame (r : Reading) : UInt16 := .ofNat (r.number % 2048)

/-- `r` comes in a later interval than `p`, and the ticks tell the gap between them. -/
def Before (p r : Reading) : Prop :=
  p.interval < r.interval ∧ r.number - p.number < (r.tick - p.tick).toNat + 1024 ∧
    (r.tick - p.tick).toNat < r.number - p.number + 1024 ∧ r.number - p.number + 2048 ≤ 2 ^ 32

instance (p r : Reading) : Decidable (p.Before r) :=
  inferInstanceAs (Decidable (_ ∧ _ ∧ _ ∧ _))

/-- The intervals skipped over a run of readings, newest first. -/
def skipped : List Reading → Nat
  | r :: p :: rs => (r.interval - p.interval - 1) + skipped (p :: rs)
  | _ => 0

/-- At no reading has the total to count reached 2^32. -/
def Fits (rs : List Reading) : Prop :=
  ∀ seen ∈ rs.tails, ∀ newest ∈ seen.head?, skipped seen + newest.late.toNat < 2 ^ 32

instance (rs : List Reading) : Decidable (Fits rs) :=
  inferInstanceAs (Decidable (∀ seen ∈ rs.tails, ∀ newest ∈ seen.head?, _ < _))

theorem Fits.newest {r : Reading} {rs : List Reading} (h : Fits (r :: rs)) :
    skipped (r :: rs) + r.late.toNat < 2 ^ 32 :=
  h _ List.mem_cons_self r rfl

theorem Fits.earlier {r : Reading} {rs : List Reading} (h : Fits (r :: rs)) : Fits rs :=
  fun seen hseen => h seen (List.mem_cons_of_mem _ hseen)

end Reading

/-! ## The gaps judged for the play -/

structure Judged where
  /-- The intervals truly skipped. -/
  skipped : Nat := 0
  /-- The counted late reads after which no gap was judged, so none could take them back. -/
  leftLate : Nat := 0
  /-- The latest judged gap ended in a late read, which the count still holds. -/
  countsLate : Bool := false
  /-- That gap was of one interval, from one late read to the next. -/
  passedOn : Bool := false
  deriving DecidableEq

namespace Judged

/-- The play's judging stops. -/
def leave (j : Judged) : Judged :=
  { j with leftLate := j.leftLate + j.countsLate.toNat, countsLate := false, passedOn := false }

/-- A gap from `p` to `r` ends. -/
def across (j : Judged) (judges : Bool) (p r : Reading) : Judged :=
  if judges then
    { j with
      skipped := j.skipped + (r.interval - p.interval - 1)
      countsLate := r.late && (!p.late || j.countsLate)
      passedOn := r.late && p.late && j.countsLate && r.interval == p.interval + 1 }
  else
    j.leave

end Judged

/-! ## Watched runs -/

def Op.isTxDone {σ : Type} : Op σ → Bool
  | .txDone .. => true
  | _ => false

/-- An operation, a completion with its reading. -/
inductive TimedOp (σ : Type)
  | txDone (sent : ByteCount) (reading : Reading) (source : σ)
  | other (op : Op σ) (isOther : op.isTxDone = false)

def TimedOp.toOp {σ : Type} : TimedOp σ → Op σ
  | .txDone sent reading source => .txDone ⟨sent, reading.frame, reading.tick⟩ source
  | .other op _ => op

structure Watch where
  bus : Bus := {}
  /-- The readings of the stream's data completions since it opened, newest first. -/
  reads : List Reading := []
  /-- The count of missed intervals since boot as it stood then. -/
  missedBefore : IntervalCount := 0
  judged : Judged := {}

namespace Watch

variable {σ : Type} [FrameSource σ]

/-- Whether the play judges a gap from `p` to `r`. -/
def judges (w : Watch) (p r : Reading) : Bool :=
  decide (w.bus.stream.play.pendingFrames ≠ 0) ||
    (w.bus.stream.playJudged && r.number == p.number)

/-- A data completion is read. -/
def read (w : Watch) (r : Reading) : Watch :=
  { w with
    reads := r :: w.reads
    judged :=
      match w.reads.head? with
      | none => w.judged
      | some p => w.judged.across (w.judges p r) p r }

/-- What the operation does to the readings. -/
def note (w : Watch) : TimedOp σ → Watch
  | .txDone _ r _ => if w.bus.stream.hears then w.read r else w
  | .other op _ =>
    match op with
    | .open format =>
      if w.bus.stream.configured ∧ format ∈ streamFormats then
        { w with
          reads := []
          missedBefore := w.bus.stream.counters.missedIntervals
          judged := w.judged.leave }
      else
        w
    | .configure | .deconfigure | .close => { w with judged := w.judged.leave }
    | .acceptPlay => if w.bus.stream.counters.state = .closed then w else { w with judged := {} }
    | .clearPlay => { w with judged := {} }
    | _ => w

def step (w : Watch) (op : TimedOp σ) : Watch :=
  { w.note op with bus := w.bus.step op.toOp }

def run (w : Watch) (ops : List (TimedOp σ)) : Watch := ops.foldl step w

/-- A data completion comes after the one before it, in a gap that can be told. -/
def Follows (w : Watch) : TimedOp σ → Prop
  | .txDone _ r _ => w.bus.stream.hears = true → ∀ p ∈ w.reads.head?, p.Before r
  | .other .. => True

/-- Every completion of the run does. -/
def Timely : Watch → List (TimedOp σ) → Prop
  | _, [] => True
  | w, op :: ops => w.Follows op ∧ (w.step op).Timely ops

instance (w : Watch) : (op : TimedOp σ) → Decidable (w.Follows op)
  | .txDone _ r _ =>
    inferInstanceAs (Decidable (w.bus.stream.hears = true → ∀ p ∈ w.reads.head?, p.Before r))
  | .other .. => .isTrue trivial

instance decidableTimely : (w : Watch) → (ops : List (TimedOp σ)) → Decidable (w.Timely ops)
  | _, [] => .isTrue trivial
  | w, op :: ops =>
    have := decidableTimely (w.step op) ops
    inferInstanceAs (Decidable (w.Follows op ∧ (w.step op).Timely ops))

end Watch

end WaveformGenerator.UsbAudio
