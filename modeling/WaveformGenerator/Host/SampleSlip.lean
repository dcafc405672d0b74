import Mathlib.Data.List.DropRight

/-!
# The host's sample slips (`host/signal_lab/sample_slip.py`)

The reference for the engine's sample slip stage: the planned events are sorted as tuples, and each
block is a list of parts. Frames are the host's unbounded integers.
-/

namespace WaveformGenerator.Host

/-- `KINDS`, in the order of the strings. -/
inductive SlipKind where
  | delete
  | duplicate
  deriving DecidableEq, Repr

/-- A planned tuple. -/
structure SlipTuple where
  frame : Nat
  kind : SlipKind
  length : Nat
  deriving DecidableEq, Repr

namespace SlipTuple

def kindLe : SlipKind → SlipKind → Bool
  | .duplicate, .delete => false
  | _, _ => true

/-- The order of tuples. -/
def le (a b : SlipTuple) : Bool :=
  if a.frame ≠ b.frame then decide (a.frame < b.frame)
  else if a.kind ≠ b.kind then kindLe a.kind b.kind
  else decide (a.length ≤ b.length)

end SlipTuple

/-- The parameters, their times in frames. -/
inductive SlipPlacement where
  | explicit (events : List SlipTuple)
  | single (kind : SlipKind) (length start : Nat)
  | spaced (kind : SlipKind) (length first period count : Nat)
  | clustered (kind : SlipKind) (length first spacing count : Nat)

namespace SampleSlip

def maxEvents : Nat := 32
def maxSlipLength : Nat := 1024

def badEvents : String := "sample_slip.events must be a list of at most 32 objects"
def badLength : String :=
  "sample_slip.length_samples is out of range, non-finite, or not an integer"
def badCount : String := "sample_slip.count is out of range, non-finite, or not an integer"
def badPeriod : String := "sample_slip.period_seconds must span at least one sample"
def badSpacing : String := "sample_slip.spacing_seconds must span at least one sample"
def noHistory : String :=
  "sample_slip duplicate needs length_samples frames of history before it"

def lengthRefused (length : Nat) : Bool := decide (length < 1 ∨ maxSlipLength < length)

/-- The events of several starts that follow each other. -/
def spread (kind : SlipKind) (length first step count : Nat) : List SlipTuple :=
  (List.range count).map fun k => ⟨first + k * step, kind, length⟩

def listed : SlipPlacement → Except String (List SlipTuple)
  | .explicit events =>
    if maxEvents < events.length then .error badEvents
    else if events.any (lengthRefused ·.length) then .error badLength
    else .ok events
  | .single kind length start =>
    if lengthRefused length then .error badLength else .ok [⟨start, kind, length⟩]
  | .spaced kind length first period count =>
    if lengthRefused length then .error badLength
    else if period = 0 then .error badPeriod
    else if count < 1 ∨ maxEvents < count then .error badCount
    else .ok (spread kind length first period count)
  | .clustered kind length first spacing count =>
    if lengthRefused length then .error badLength
    else if spacing = 0 then .error badSpacing
    else if count < 1 ∨ maxEvents < count then .error badCount
    else .ok (spread kind length first spacing count)

end SampleSlip

structure SampleSlip (α : Type) where
  planned : List SlipTuple
  applied : List SlipTuple := []
  dropped : List (SlipTuple × String) := []
  cursor : Nat := 0
  deleteRemaining : Nat := 0
  maxLength : Nat
  history : List α := []
  inputFrames : Nat := 0
  outputFrames : Nat := 0

namespace SampleSlip

variable {α : Type}

def prepare (params : SlipPlacement) : Except String (SampleSlip α) := do
  let events ← listed params
  if events.any fun event => event.kind = .duplicate && decide (event.frame < event.length) then
    .error noHistory
  else
    return {
      planned := events.mergeSort SlipTuple.le
      maxLength := (events.map (·.length)).foldl max 1 }

/-- The slice `l[-n:]`. -/
def lastOf (n : Nat) (l : List α) : List α := if n = 0 then l else l.rtake n

/-- The locals of `process`, with the lists that its loop extends. -/
structure Locals (α : Type) where
  i : Nat
  parts : List (List α)
  deleteRemaining : Nat
  applied : List SlipTuple
  dropped : List (SlipTuple × String)

def insideDeleted : String := "inside a deleted run"
def insufficientHistory : String := "insufficient history"

/-- One event that is reached in the block. -/
def take (block history : List α) (firstFrame : Nat) (event : SlipTuple) (l : Locals α) :
    Locals α :=
  let before := event.frame - firstFrame
  let parts := l.parts ++ [(block.take before).drop l.i]
  match event.kind with
  | .duplicate =>
    let emitted := history ++ parts.flatten
    if emitted.length < event.length then
      { l with i := before, parts, dropped := l.dropped ++ [(event, insufficientHistory)] }
    else
      { l with
        i := before
        parts := parts ++ [lastOf event.length emitted]
        applied := l.applied ++ [event] }
  | .delete =>
    let skip := min event.length (block.length - before)
    { l with
      i := before + skip
      parts
      deleteRemaining := event.length - skip
      applied := l.applied ++ [event] }

/-- The loop over the planned events: the locals, and how many it moved the cursor. -/
def pass (block history : List α) (firstFrame : Nat) :
    List SlipTuple → Locals α → Locals α × Nat
  | [], l => (l, 0)
  | event :: later, l =>
    if event.frame < firstFrame + block.length then
      if event.frame < firstFrame + l.i then
        let (l, moved) := pass block history firstFrame later
          { l with dropped := l.dropped ++ [(event, insideDeleted)] }
        (l, moved + 1)
      else
        let l := take block history firstFrame event l
        if l.deleteRemaining ≠ 0 then (l, 1)
        else
          let (l, moved) := pass block history firstFrame later l
          (l, moved + 1)
    else (l, 0)

def process (s : SampleSlip α) (block : List α) (firstFrame : Nat) : List α × SampleSlip α :=
  let skip := min s.deleteRemaining block.length
  let (l, moved) := pass block s.history firstFrame (s.planned.drop s.cursor)
    ⟨skip, [], s.deleteRemaining - skip, s.applied, s.dropped⟩
  let out := (l.parts ++ [block.drop l.i]).flatten
  (out,
    { s with
      applied := l.applied
      dropped := l.dropped
      cursor := s.cursor + moved
      deleteRemaining := l.deleteRemaining
      history := lastOf s.maxLength (s.history ++ out)
      inputFrames := s.inputFrames + block.length
      outputFrames := s.outputFrames + out.length })

/-- A stream in blocks. -/
def processBlocks (s : SampleSlip α) (firstFrame : Nat) :
    List (List α) → List (List α) × SampleSlip α
  | [] => ([], s)
  | block :: blocks =>
    let (output, s) := s.process block firstFrame
    let (outputs, s) := s.processBlocks (firstFrame + block.length) blocks
    (output :: outputs, s)

end SampleSlip

end WaveformGenerator.Host
