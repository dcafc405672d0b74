import WaveformGenerator.Cut.Stage

/-! # The CUT log and its tally (`common/cut_schedule.hpp`, `CutLog`) -/

namespace WaveformGenerator.Cut

/-- What a play's cuts did within the frames a route confirmed sent. -/
structure CutTally where
  applied : UInt32 := 0
  dropFrames : OutputFrames := 0
  zeroFrames : SentFrames := 0
  first : Option SentFrames := none
  rejected : UInt32 := 0
  sent : SentFrames := 0
  outputFrames : OutputFrames := 0
  deriving DecidableEq, Repr

def logFull : Status := ⟨.bufferTooSmall, "CUT_LOG_FULL"⟩

/-- A play's cuts in the order they took effect, at most `maxEntries` of them. -/
structure CutLog where
  applied : List AppliedCut := []
  bounded : applied.length ≤ maxEntries := by decide
  rejected : UInt32 := 0
  /-- Where the stream ended (`end_`), once `ended`. -/
  endFrames : SentFrames := 0
  ended : Bool := false

namespace CutLog

/-- The stage applied `cut`; a full log refuses it. -/
def record (log : CutLog) (cut : AppliedCut) : Result CutLog :=
  if h : log.applied.length = maxEntries then
    .error logFull
  else
    .ok { log with
      applied := log.applied ++ [cut]
      bounded := by have := log.bounded; simp; omega }

def reject (log : CutLog) (entries : UInt32) : CutLog :=
  { log with rejected := log.rejected + entries }

/-- The play's stream ends after `stream` frames (`end()`). -/
def endAt (log : CutLog) (stream : SentFrames) : CutLog :=
  { log with endFrames := stream, ended := true }

def wholeStream (log : CutLog) (sent : SentFrames) : Bool := log.ended && sent == log.endFrames

def tookEffect (log : CutLog) (cut : AppliedCut) (sent : SentFrames) : Bool :=
  sent > cut.position || (log.wholeStream sent && cut.position == log.endFrames)

/-- Adds `cut`, which took effect, to `tally`. -/
def count (tally : CutTally) (cut : AppliedCut) : CutTally :=
  let tally := { tally with
    applied := tally.applied + 1
    first := tally.first.or (some cut.position) }
  if cut.kind = .drop then
    { tally with dropFrames := tally.dropFrames + cut.frames }
  else
    { tally with
      zeroFrames := tally.zeroFrames + min cut.frames (tally.sent - cut.position) }

/-- The cuts that took effect within the first `sent` frames of the stream. -/
def tally (log : CutLog) (sent : SentFrames) : CutTally :=
  let start : CutTally := { rejected := if log.wholeStream sent then log.rejected else 0, sent }
  let tally := log.applied.foldl
    (fun tally cut => if log.tookEffect cut sent then count tally cut else tally) start
  { tally with outputFrames := sent - tally.zeroFrames + tally.dropFrames }

end CutLog

end WaveformGenerator.Cut
