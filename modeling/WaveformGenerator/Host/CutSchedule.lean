import WaveformGenerator.Cut.Schedule

/-!
# The host's CUT schedules (`host/cut_schedule.py`)

The host judges a schedule by the board's rules, in integers without a width, and predicts from
the schedule and the length of the engine's output what the board reports for any prefix of the
stream: `apply` builds the cut stream, `tally` reads a prefix of it.
-/

namespace WaveformGenerator.Host

open Cut (CutKind)

/-- A schedule the board would refuse; `code` is the board's reply code. -/
structure CutError where
  code : String
  message : String
  deriving DecidableEq, Repr

def maxEntries : Nat := 16
def minLength : Nat := 1
def maxLength : Nat := 4800
def maxDropBalance : Nat := 3 * maxLength

structure CutEntry where
  offset : Nat
  length : Nat
  kind : CutKind
  deriving DecidableEq, Repr

namespace CutEntry

/-- The output frame just past those the entry covers (a ZERO covers none). -/
def coveredEnd (entry : CutEntry) : Nat :=
  entry.offset + if entry.kind = .drop then entry.length else 0

def spelling (entry : CutEntry) : String :=
  let kind := match entry.kind with
    | .drop => "drop"
    | .zero => "zero"
  s!"{entry.offset}:{entry.length}:{kind}"

/-- An entry of the board's schedule as the host holds it. -/
def ofBoard (entry : Cut.CutEntry) : CutEntry :=
  ⟨entry.offset.toNat, entry.length.toNat, entry.kind⟩

end CutEntry

/-- The loop of `drop_balance`: the highest balance the DROPs reach. -/
def dropBalanceFrom (balance highest previousEnd : Nat) : List CutEntry → Nat
  | [] => highest
  | entry :: rest =>
    if entry.kind ≠ .drop then
      dropBalanceFrom balance highest previousEnd rest
    else
      let balance := balance - (entry.offset - previousEnd) + entry.length
      dropBalanceFrom balance (max highest balance) entry.coveredEnd rest

def dropBalance (entries : List CutEntry) : Nat := dropBalanceFrom 0 0 0 entries

example : dropBalance [⟨0, 40, .drop⟩, ⟨50, 30, .zero⟩, ⟨60, 5, .drop⟩] = 40 := by decide +kernel

/-- The first entry of a length out of range. -/
def checkLengths : List CutEntry → Except CutError Unit
  | [] => .ok ()
  | entry :: rest =>
    if ¬(minLength ≤ entry.length ∧ entry.length ≤ maxLength) then
      .error ⟨"CUT_RANGE", s!"length {entry.length} is outside {minLength}..{maxLength}"⟩
    else
      checkLengths rest

/-- The first pair of neighbours out of order. -/
def checkNeighbours : List CutEntry → Except CutError Unit
  | earlier :: later :: rest =>
    if later.offset < earlier.offset then
      .error ⟨"CUT_UNSORTED", s!"{later.spelling} comes after {earlier.spelling}"⟩
    else if later.offset < earlier.coveredEnd ∨
        (earlier.kind = .zero ∧ later.kind = .zero ∧ later.offset = earlier.offset) then
      .error ⟨"CUT_OVERLAP", s!"{later.spelling} overlaps {earlier.spelling}"⟩
    else
      checkNeighbours (later :: rest)
  | _ => .ok ()

/-- The board's rules. -/
def validate (entries : List CutEntry) : Except CutError (List CutEntry) := do
  if entries.length > maxEntries then
    throw ⟨"CUT_TOO_MANY", s!"at most {maxEntries} entries"⟩
  checkLengths entries
  checkNeighbours entries
  let balance := dropBalance entries
  if balance > maxDropBalance then
    throw ⟨"CUT_DROP_RUN", s!"the DROPs reach a drop balance of {balance} frames, more than " ++
      s!"{maxDropBalance}: space them with output frames between them"⟩
  return entries

/-! ## The prediction -/

/-- A run of the cut stream: output frames from `cardFrame`, or zeros when none. -/
structure Segment where
  cardFrame : Option Nat
  frames : Nat
  deriving DecidableEq, Repr

structure AppliedCut where
  /-- The cut stream's frames before it. -/
  position : Nat
  frames : Nat
  kind : CutKind
  deriving DecidableEq, Repr

/-- What a play with a schedule sends, as the board's cut stage builds it from the engine's
output. -/
structure CutStream where
  segments : List Segment
  applied : List AppliedCut
  rejected : Nat
  frames : Nat
  deriving DecidableEq, Repr

/-- The variables of the loop of `apply`. -/
structure Walk where
  segments : List Segment := []
  applied : List AppliedCut := []
  rejected : Nat := 0
  at_ : Nat := 0
  sent : Nat := 0

namespace Walk

/-- The output frames before an entry's offset. -/
def advance (walk : Walk) (offset : Nat) : Walk :=
  if offset > walk.at_ then
    { walk with
      segments := walk.segments ++ [⟨some walk.at_, offset - walk.at_⟩]
      sent := walk.sent + (offset - walk.at_) }
  else
    walk

/-- The body of the loop of `apply`. -/
def entry (fileFrames : Nat) (walk : Walk) (entry : CutEntry) : Walk :=
  if entry.offset ≥ fileFrames then
    { walk with rejected := walk.rejected + 1 }
  else
    let walk := { walk.advance entry.offset with at_ := entry.offset }
    if entry.kind = .zero then
      { walk with
        applied := walk.applied ++ [⟨walk.sent, entry.length, .zero⟩]
        segments := walk.segments ++ [⟨none, entry.length⟩]
        sent := walk.sent + entry.length }
    else
      let skipped := min entry.length (fileFrames - walk.at_)
      { walk with
        applied := walk.applied ++ [⟨walk.sent, skipped, .drop⟩]
        at_ := walk.at_ + skipped }

/-- The rest of the output, after the last entry. -/
def close (fileFrames : Nat) (walk : Walk) : CutStream :=
  let walk := if walk.at_ < fileFrames then walk.advance fileFrames else walk
  ⟨walk.segments, walk.applied, walk.rejected, walk.sent⟩

end Walk

/-- The cut stream of an engine output of `fileFrames` frames under a valid schedule. -/
def apply (entries : List CutEntry) (fileFrames : Nat) : Except CutError CutStream := do
  let entries ← validate entries
  return (entries.foldl (Walk.entry fileFrames) {}).close fileFrames

/-- What the board reports for a prefix of a cut stream. -/
structure Tally where
  sentFrames : Nat
  /-- `uac_play_file_frames`: the output frames the sent frames cover. -/
  fileFrames : Int
  cutCount : Nat := 0
  cutDropFrames : Nat := 0
  cutZeroFrames : Nat := 0
  cutFirstPosition : Option Nat := none
  cutRejected : Nat
  deriving DecidableEq, Repr

/-- The body of the loop of `tally`. -/
def Tally.cut (stream : CutStream) (tally : Tally) (cut : AppliedCut) : Tally :=
  let sent := tally.sentFrames
  if ¬(sent > cut.position ∨ (sent = stream.frames ∧ cut.position = stream.frames)) then
    tally
  else
    let tally := { tally with
      cutCount := tally.cutCount + 1
      cutFirstPosition := tally.cutFirstPosition.or (some cut.position) }
    if cut.kind = .drop then
      { tally with cutDropFrames := tally.cutDropFrames + cut.frames }
    else
      { tally with cutZeroFrames := tally.cutZeroFrames + min cut.frames (sent - cut.position) }

/-- The cuts that took effect within the first `sent` frames (all by default). -/
def tally (stream : CutStream) (sent : Option Nat := none) : Except String Tally :=
  let sent := sent.getD stream.frames
  if sent > stream.frames then
    .error s!"sent frames must be 0..{stream.frames}"
  else
    let start : Tally :=
      { sentFrames := sent, fileFrames := sent
        cutRejected := if sent = stream.frames then stream.rejected else 0 }
    let tally := stream.applied.foldl (Tally.cut stream) start
    .ok { tally with fileFrames := sent - tally.cutZeroFrames + tally.cutDropFrames }

end WaveformGenerator.Host
