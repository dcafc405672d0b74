import Mathlib.Data.UInt

/-!
# Operation timing (`common/operation_timing.hpp`)

Each operation is measured by two readings of the cycle counter and the tick counter, and its cycles
are counted when the ticks say that the cycle counter cannot have wrapped.
-/

namespace WaveformGenerator.OperationTiming

structure Sample where
  cycles : UInt32 := 0
  ticks : UInt32 := 0
  frequencyHz : UInt32 := 0
  deriving DecidableEq, Repr

structure Stats where
  calls : UInt64 := 0
  totalCycles : UInt64 := 0
  maxCycles : UInt32 := 0
  rejected : UInt64 := 0
  saturated : Bool := false
  deriving DecidableEq, Repr

/-- The named phases are those below `phaseCount`; a phase may be any byte. -/
abbrev Phase := UInt8

def phaseCount : Nat := 8

structure Snapshot where
  cycleHz : UInt32 := 0
  tickHz : UInt32 := 0
  phases : Vector Stats phaseCount := .replicate phaseCount {}

/-- The numeric limit of the totals. -/
def totalMax : UInt64 := 0xFFFFFFFFFFFFFFFF

/-- `saturating_add`, with the flag that it may set. -/
def saturatingAdd (current increment : UInt64) (saturated : Bool) : UInt64 × Bool :=
  if totalMax.toNat - current.toNat < increment.toNat then (totalMax, true)
  else (current + increment, saturated)

/-- `Accumulator`, whose one member is its snapshot. -/
structure Accumulator where
  snapshot : Snapshot := {}

def validPhase (phase : Phase) : Bool := phase.toNat < phaseCount

/-- A phase without a bucket is counted in the first. -/
def phaseIndex (phase : Phase) : Fin phaseCount :=
  if h : phase.toNat < phaseCount then ⟨phase.toNat, h⟩ else ⟨0, by decide⟩

namespace Stats

def countCall (stats : Stats) : Stats :=
  let (calls, saturated) := saturatingAdd stats.calls 1 stats.saturated
  { stats with calls, saturated }

def reject (stats : Stats) : Stats :=
  let (rejected, saturated) := saturatingAdd stats.rejected 1 stats.saturated
  { stats with rejected, saturated }

def accept (stats : Stats) (elapsedCycles : UInt32) : Stats :=
  let (totalCycles, saturated) :=
    saturatingAdd stats.totalCycles elapsedCycles.toUInt64 stats.saturated
  let stats := { stats with totalCycles, saturated }
  if stats.maxCycles < elapsedCycles then { stats with maxCycles := elapsedCycles } else stats

end Stats

namespace Accumulator

def reset (cycleHz tickHz : UInt32) : Accumulator := ⟨{ cycleHz, tickHz }⟩

def validSamples (a : Accumulator) (begin «end» : Sample) (elapsedTicks : UInt32) : Bool :=
  if a.snapshot.cycleHz = 0 ∨ a.snapshot.tickHz = 0 ∨
      begin.frequencyHz ≠ a.snapshot.cycleHz ∨ «end».frequencyHz ≠ a.snapshot.cycleHz then
    false
  else
    let conservativeTicks := elapsedTicks.toUInt64 + 2
    let cycleWrap : UInt64 := 0x100000000
    let wrapLimit := cycleWrap * a.snapshot.tickHz.toUInt64
    let largestSafeTickCount := (wrapLimit - 1) / a.snapshot.cycleHz.toUInt64
    conservativeTicks ≤ largestSafeTickCount

/-- What `record` makes of its bucket. -/
def recordStats (a : Accumulator) (phase : Phase) (begin «end» : Sample) (stats : Stats) : Stats :=
  let stats := stats.countCall
  if !validPhase phase then
    stats.reject
  else
    let elapsedCycles := «end».cycles - begin.cycles
    let elapsedTicks := «end».ticks - begin.ticks
    if !a.validSamples begin «end» elapsedTicks then stats.reject else stats.accept elapsedCycles

def record (a : Accumulator) (phase : Phase) (begin «end» : Sample) : Accumulator :=
  let index := phaseIndex phase
  let stats := a.recordStats phase begin «end» a.snapshot.phases[index]
  { a with snapshot.phases := a.snapshot.phases.set index stats }

end Accumulator

end WaveformGenerator.OperationTiming
