import Mathlib.Algebra.Order.Field.Rat
import Mathlib.Tactic.FieldSimp
import Mathlib.Tactic.NormNum
import WaveformGenerator.Common.OperationTiming

/-!
# What operation timing counts

A sample that is counted did not wrap the cycle counter. The counters of a phase are the counts and
the sum of its samples, each cut at the numeric limit.
-/

namespace WaveformGenerator.OperationTiming

/-- An operation that is recorded. -/
structure Measurement where
  phase : Phase
  begin : Sample
  «end» : Sample
  deriving DecidableEq, Repr

namespace Measurement

def elapsedCycles (m : Measurement) : UInt32 := m.end.cycles - m.begin.cycles

def elapsedTicks (m : Measurement) : UInt32 := m.end.ticks - m.begin.ticks

end Measurement

namespace Accumulator

def recordMeasurement (a : Accumulator) (m : Measurement) : Accumulator :=
  a.record m.phase m.begin m.end

/-- What a row of operations leaves behind a reset. -/
def run (cycleHz tickHz : UInt32) (measurements : List Measurement) : Accumulator :=
  measurements.foldl recordMeasurement (reset cycleHz tickHz)

/-- The operations that `record` counts. -/
def accepts (a : Accumulator) (m : Measurement) : Bool :=
  validPhase m.phase && a.validSamples m.begin m.end m.elapsedTicks

/-! ## A counted sample did not wrap -/

section
variable {a : Accumulator} {m : Measurement}

/-- What an accepted sample says: with two ticks more, its cycles are fewer than a wrap. -/
theorem ticks_lt_of_accepts (h : a.accepts m = true) :
    a.snapshot.cycleHz ≠ 0 ∧ a.snapshot.tickHz ≠ 0 ∧
      (m.elapsedTicks.toNat + 2) * a.snapshot.cycleHz.toNat < 2 ^ 32 * a.snapshot.tickHz.toNat := by
  rw [accepts, Bool.and_eq_true, validSamples] at h
  obtain ⟨-, h⟩ := h
  split at h
  · cases h
  rename_i hclock
  simp only [not_or] at hclock
  obtain ⟨hcycle, htick, -, -⟩ := hclock
  refine ⟨hcycle, htick, ?_⟩
  rw [decide_eq_true_iff, UInt64.le_iff_toNat_le, UInt64.toNat_div, UInt32.toNat_toUInt64] at h
  have hticks : (m.elapsedTicks.toUInt64 + 2).toNat = m.elapsedTicks.toNat + 2 := by
    have := m.elapsedTicks.toNat_lt
    rw [UInt64.toNat_add, UInt32.toNat_toUInt64]
    exact Nat.mod_eq_of_lt (by show _ + 2 < _; omega)
  have hpositive : 0 < a.snapshot.tickHz.toNat :=
    Nat.pos_of_ne_zero fun hzero => htick (UInt32.toNat_inj.mp hzero)
  have hlimit : ((0x100000000 : UInt64) * a.snapshot.tickHz.toUInt64).toNat =
      2 ^ 32 * a.snapshot.tickHz.toNat := by
    have := a.snapshot.tickHz.toNat_lt
    rw [UInt64.toNat_mul, UInt32.toNat_toUInt64]
    show 2 ^ 32 * _ % _ = _
    omega
  have hone : ((0x100000000 : UInt64) * a.snapshot.tickHz.toUInt64 - 1).toNat =
      2 ^ 32 * a.snapshot.tickHz.toNat - 1 := by
    rw [UInt64.toNat_sub_of_le, hlimit]
    · rfl
    · rw [UInt64.le_iff_toNat_le, hlimit]
      show 1 ≤ _
      omega
  rw [hticks, hone] at h
  have hproduct := Nat.mul_le_of_le_div _ _ _ h
  omega

/-- An operation of `elapsed` cycles that is counted, and took less time than its ticks and two
more, took as many cycles as the difference of its readings says. -/
theorem elapsedCycles_of_accepts (h : a.accepts m = true) {elapsed : Nat}
    (hreadings : m.end.cycles.toNat = (m.begin.cycles.toNat + elapsed) % 2 ^ 32)
    (htime : (elapsed : ℚ) / a.snapshot.cycleHz.toNat <
      (m.elapsedTicks.toNat + 2) / a.snapshot.tickHz.toNat) :
    m.elapsedCycles.toNat = elapsed := by
  obtain ⟨hcycle, htick, hlimit⟩ := ticks_lt_of_accepts h
  have hcyclePositive : 0 < a.snapshot.cycleHz.toNat :=
    Nat.pos_of_ne_zero fun hzero => hcycle (UInt32.toNat_inj.mp hzero)
  have htickPositive : 0 < a.snapshot.tickHz.toNat :=
    Nat.pos_of_ne_zero fun hzero => htick (UInt32.toNat_inj.mp hzero)
  rw [div_lt_div_iff₀ (by exact_mod_cast hcyclePositive) (by exact_mod_cast htickPositive)] at htime
  have hproduct : elapsed * a.snapshot.tickHz.toNat <
      (m.elapsedTicks.toNat + 2) * a.snapshot.cycleHz.toNat := by exact_mod_cast htime
  have hwrap : elapsed < 2 ^ 32 :=
    Nat.lt_of_mul_lt_mul_right (Nat.lt_trans hproduct hlimit)
  have hbegin := m.begin.cycles.toNat_lt
  rw [Measurement.elapsedCycles, UInt32.toNat_sub, hreadings]
  omega

end

/-! ## The counters are the sums, cut at the numeric limit -/

end Accumulator

theorem toNat_totalMax : totalMax.toNat = 2 ^ 64 - 1 := rfl

/-- A counter that holds a sum cut at the limit holds the next one as well, and the flag is set
when the next one is past it. -/
theorem saturatingAdd_spec {current : UInt64} (increment : UInt64) {saturated : Bool} {total : Nat}
    (hcurrent : current.toNat = min total (2 ^ 64 - 1)) (hflag : 2 ^ 64 ≤ total → saturated = true) :
    (saturatingAdd current increment saturated).1.toNat =
        min (total + increment.toNat) (2 ^ 64 - 1) ∧
      ((saturatingAdd current increment saturated).2 = true ↔
        saturated = true ∨ 2 ^ 64 ≤ total + increment.toNat) := by
  have hlt := current.toNat_lt
  rw [saturatingAdd, toNat_totalMax]
  split
  · refine ⟨by rw [toNat_totalMax]; omega, ?_⟩
    simp only [true_iff]
    by_cases htotal : 2 ^ 64 ≤ total
    · exact .inl (hflag htotal)
    · exact .inr (by omega)
  · have hsum : (current + increment).toNat = current.toNat + increment.toNat := by
      rw [UInt64.toNat_add]
      exact Nat.mod_eq_of_lt (by omega)
    refine ⟨by rw [hsum]; omega, ?_⟩
    constructor
    · exact .inl
    · rintro (hset | hpast)
      · exact hset
      · exact hflag (by omega)

/-- The true counts of a phase, of any size. -/
structure Counts where
  accepted : Nat
  rejected : Nat
  cycles : Nat

namespace Counts

def zero : Counts := ⟨0, 0, 0⟩

def reject (c : Counts) : Counts := { c with rejected := c.rejected + 1 }

def accept (c : Counts) (elapsedCycles : Nat) : Counts :=
  { c with accepted := c.accepted + 1, cycles := c.cycles + elapsedCycles }

/-- A count that no counter can hold. -/
def Exceeds (c : Counts) : Prop := 2 ^ 64 ≤ c.accepted + c.rejected ∨ 2 ^ 64 ≤ c.cycles

end Counts

namespace Stats

/-- The counters are the true counts cut at the limit, and the flag says whether one was cut. -/
structure Tallies (stats : Stats) (c : Counts) : Prop where
  calls : stats.calls.toNat = min (c.accepted + c.rejected) (2 ^ 64 - 1)
  rejected : stats.rejected.toNat = min c.rejected (2 ^ 64 - 1)
  totalCycles : stats.totalCycles.toNat = min c.cycles (2 ^ 64 - 1)
  saturated : stats.saturated = true ↔ c.Exceeds

variable {stats : Stats} {c : Counts}

theorem tallies_zero : Tallies {} .zero where
  calls := rfl
  rejected := rfl
  totalCycles := rfl
  saturated := by simp [Counts.Exceeds, Counts.zero]

/-- The counters are exact when the flag is not set. -/
theorem Tallies.exact (h : stats.Tallies c) (hflag : stats.saturated = false) :
    stats.calls.toNat = c.accepted + c.rejected ∧ stats.rejected.toNat = c.rejected ∧
      stats.totalCycles.toNat = c.cycles := by
  have hfits : ¬c.Exceeds := fun hexceeds => by
    have := h.saturated.mpr hexceeds
    rw [hflag] at this
    cases this
  rw [Counts.Exceeds, not_or] at hfits
  have hcalls := h.calls
  have hrejected := h.rejected
  have hcycles := h.totalCycles
  omega

/-- A call is counted before it is accepted or rejected. -/
theorem Tallies.countCall (h : stats.Tallies c) :
    stats.countCall.calls.toNat = min (c.accepted + c.rejected + 1) (2 ^ 64 - 1) ∧
      (stats.countCall.saturated = true ↔ c.Exceeds ∨ 2 ^ 64 ≤ c.accepted + c.rejected + 1) := by
  have hcalls := saturatingAdd_spec 1 h.calls fun hpast =>
    h.saturated.mpr (.inl hpast)
  rw [h.saturated] at hcalls
  exact hcalls

theorem Tallies.reject (h : stats.Tallies c) : stats.countCall.reject.Tallies c.reject := by
  obtain ⟨hcalls, hflag⟩ := h.countCall
  have hflagged (hpast : 2 ^ 64 ≤ c.rejected) : stats.countCall.saturated = true :=
    hflag.mpr (.inl (.inl (by omega)))
  have hrejected := saturatingAdd_spec 1 h.rejected hflagged
  refine ⟨?_, hrejected.1, h.totalCycles, hrejected.2.trans ?_⟩
  · rw [Counts.reject, ← Nat.add_assoc]
    exact hcalls
  · rw [hflag, UInt64.toNat_one]
    simp only [Counts.Exceeds, Counts.reject]
    omega

theorem Tallies.setMaxCycles (h : stats.Tallies c) (maxCycles : UInt32) :
    Tallies { stats with maxCycles } c :=
  ⟨h.calls, h.rejected, h.totalCycles, h.saturated⟩

theorem Tallies.accept (h : stats.Tallies c) (elapsedCycles : UInt32) :
    (stats.countCall.accept elapsedCycles).Tallies (c.accept elapsedCycles.toNat) := by
  obtain ⟨hcalls, hflag⟩ := h.countCall
  have hflagged (hpast : 2 ^ 64 ≤ c.cycles) : stats.countCall.saturated = true :=
    hflag.mpr (.inl (.inr hpast))
  have hspec := saturatingAdd_spec elapsedCycles.toUInt64 h.totalCycles hflagged
  rw [UInt32.toNat_toUInt64, hflag] at hspec
  have htotal : Tallies
      { stats.countCall with
        totalCycles := (saturatingAdd stats.totalCycles elapsedCycles.toUInt64
          stats.countCall.saturated).1
        saturated := (saturatingAdd stats.totalCycles elapsedCycles.toUInt64
          stats.countCall.saturated).2 }
      (c.accept elapsedCycles.toNat) := by
    refine ⟨?_, h.rejected, hspec.1, hspec.2.trans ?_⟩
    · rw [Counts.accept, Nat.add_right_comm]
      exact hcalls
    · simp only [Counts.Exceeds, Counts.accept]
      omega
  dsimp only [Stats.accept]
  split
  · exact htotal.setMaxCycles elapsedCycles
  · exact htotal

end Stats

/-! ## Runs -/

namespace Accumulator

/-- The operations that are counted in a bucket. -/
def ownOf (index : Fin phaseCount) (measurements : List Measurement) : List Measurement :=
  measurements.filter fun m => phaseIndex m.phase = index

/-- What a bucket should count of a row of operations. -/
def countsOf (a : Accumulator) (index : Fin phaseCount) (measurements : List Measurement) :
    Counts where
  accepted := (ownOf index measurements).countP (a.accepts ·)
  rejected := (ownOf index measurements).countP (!a.accepts ·)
  cycles := (((ownOf index measurements).filter (a.accepts ·)).map (·.elapsedCycles.toNat)).sum

section
variable {a b : Accumulator} {index : Fin phaseCount} {measurements : List Measurement}
  {m : Measurement}

theorem accepts_congr (hcycle : b.snapshot.cycleHz = a.snapshot.cycleHz)
    (htick : b.snapshot.tickHz = a.snapshot.tickHz) : b.accepts m = a.accepts m := by
  simp only [accepts, validSamples, hcycle, htick]

theorem ownOf_append_of_eq (h : phaseIndex m.phase = index) :
    ownOf index (measurements ++ [m]) = ownOf index measurements ++ [m] := by
  simp [ownOf, h]

theorem ownOf_append_of_ne (h : phaseIndex m.phase ≠ index) :
    ownOf index (measurements ++ [m]) = ownOf index measurements := by
  simp [ownOf, h]

theorem countsOf_accept (h : phaseIndex m.phase = index) (haccepts : a.accepts m = true) :
    a.countsOf index (measurements ++ [m]) =
      (a.countsOf index measurements).accept m.elapsedCycles.toNat := by
  simp [countsOf, ownOf_append_of_eq h, haccepts, Counts.accept]

theorem countsOf_reject (h : phaseIndex m.phase = index) (haccepts : a.accepts m = false) :
    a.countsOf index (measurements ++ [m]) = (a.countsOf index measurements).reject := by
  simp [countsOf, ownOf_append_of_eq h, haccepts, Counts.reject]

theorem countsOf_other (h : phaseIndex m.phase ≠ index) :
    a.countsOf index (measurements ++ [m]) = a.countsOf index measurements := by
  simp only [countsOf, ownOf_append_of_ne h]

theorem recordStats_of_accepts {stats : Stats} (h : a.accepts m = true) :
    a.recordStats m.phase m.begin m.end stats = stats.countCall.accept m.elapsedCycles := by
  rw [accepts, Bool.and_eq_true] at h
  rw [recordStats, h.1]
  have hsamples : a.validSamples m.begin m.end (m.end.ticks - m.begin.ticks) = true := h.2
  simp [hsamples, Measurement.elapsedCycles]

theorem recordStats_of_not_accepts {stats : Stats} (h : a.accepts m = false) :
    a.recordStats m.phase m.begin m.end stats = stats.countCall.reject := by
  rw [accepts, Bool.and_eq_false_iff] at h
  rw [recordStats]
  rcases h with hphase | hsamples
  · simp [hphase]
  · have hticks : a.validSamples m.begin m.end (m.end.ticks - m.begin.ticks) = false := hsamples
    simp [hticks]

/-- One operation keeps the counters of every bucket right. -/
theorem tallies_recordMeasurement (hcycle : b.snapshot.cycleHz = a.snapshot.cycleHz)
    (htick : b.snapshot.tickHz = a.snapshot.tickHz)
    (h : b.snapshot.phases[index].Tallies (a.countsOf index measurements)) :
    (b.recordMeasurement m).snapshot.phases[index].Tallies
      (a.countsOf index (measurements ++ [m])) := by
  by_cases hown : phaseIndex m.phase = index
  · have hbucket : (b.recordMeasurement m).snapshot.phases[index] =
        b.recordStats m.phase m.begin m.end b.snapshot.phases[index] := by
      subst hown
      simp [recordMeasurement, record]
    rw [hbucket]
    cases haccepts : a.accepts m with
    | true =>
      rw [recordStats_of_accepts ((accepts_congr hcycle htick).trans haccepts),
        countsOf_accept hown haccepts]
      exact h.accept m.elapsedCycles
    | false =>
      rw [recordStats_of_not_accepts ((accepts_congr hcycle htick).trans haccepts),
        countsOf_reject hown haccepts]
      exact h.reject
  · have hbucket : (b.recordMeasurement m).snapshot.phases[index] = b.snapshot.phases[index] := by
      have hother : (phaseIndex m.phase).val ≠ index.val := fun heq => hown (Fin.ext heq)
      simp [recordMeasurement, record, hother]
    rw [hbucket, countsOf_other hown]
    exact h

end

variable (cycleHz tickHz : UInt32) (measurements : List Measurement)

theorem run_append (m : Measurement) :
    run cycleHz tickHz (measurements ++ [m]) =
      (run cycleHz tickHz measurements).recordMeasurement m := by
  rw [run, run, List.foldl_append]
  rfl

theorem clocks_run :
    (run cycleHz tickHz measurements).snapshot.cycleHz = cycleHz ∧
      (run cycleHz tickHz measurements).snapshot.tickHz = tickHz := by
  induction measurements using List.reverseRecOn with
  | nil => exact ⟨rfl, rfl⟩
  | append_singleton measurements m ih =>
    rw [run_append]
    exact ih

/-- After every run the counters of every bucket are its true counts, cut at the limit. -/
theorem tallies_run (index : Fin phaseCount) :
    (run cycleHz tickHz measurements).snapshot.phases[index].Tallies
      ((reset cycleHz tickHz).countsOf index measurements) := by
  induction measurements using List.reverseRecOn with
  | nil =>
    have hzero : (run cycleHz tickHz []).snapshot.phases[index] = {} := by
      simp [run, reset]
    rw [hzero]
    exact Stats.tallies_zero
  | append_singleton measurements m ih =>
    rw [run_append]
    obtain ⟨hcycle, htick⟩ := clocks_run cycleHz tickHz measurements
    exact tallies_recordMeasurement hcycle htick ih

/-- A counted operation that took less time than its ticks and two more did not wrap the cycle
counter, and no total wraps: each is its true value or stands at the limit, and `saturated` says
whether one does. -/
theorem never_wraps (cycleHz tickHz : UInt32) (measurements : List Measurement) :
    (∀ m, ∀ elapsed : Nat, (run cycleHz tickHz measurements).accepts m = true →
      m.end.cycles.toNat = (m.begin.cycles.toNat + elapsed) % 2 ^ 32 →
      (elapsed : ℚ) / cycleHz.toNat < (m.elapsedTicks.toNat + 2) / tickHz.toNat →
      m.elapsedCycles.toNat = elapsed) ∧
    ∀ index : Fin phaseCount,
      let stats := (run cycleHz tickHz measurements).snapshot.phases[index]
      let counts := (reset cycleHz tickHz).countsOf index measurements
      stats.Tallies counts ∧
        (stats.saturated = false → stats.calls.toNat = counts.accepted + counts.rejected ∧
          stats.rejected.toNat = counts.rejected ∧ stats.totalCycles.toNat = counts.cycles) := by
  obtain ⟨hcycle, htick⟩ := clocks_run cycleHz tickHz measurements
  refine ⟨fun m elapsed haccepts hreadings htime => ?_, fun index => ?_⟩
  · refine elapsedCycles_of_accepts haccepts hreadings ?_
    rw [hcycle, htick]
    exact htime
  · have htallies := tallies_run cycleHz tickHz measurements index
    exact ⟨htallies, htallies.exact⟩

/-- With a cycle counter of 1 MHz and a tick counter of 1 kHz, an operation of 512 cycles in which
the cycle counter comes round. -/
def comesRound : Measurement :=
  { phase := 2, begin := ⟨0xFFFFFF00, 90, 1000000⟩, «end» := ⟨0x100, 90, 1000000⟩ }

theorem never_wraps_comesRound :
    comesRound.elapsedCycles.toNat = 512 ∧
      (run 1000000 1000 [comesRound]).snapshot.phases[phaseIndex 2].calls.toNat = 1 := by
  obtain ⟨hsample, htotals⟩ := never_wraps 1000000 1000 [comesRound]
  have hticks : comesRound.elapsedTicks.toNat = 0 := by decide
  constructor
  · refine hsample comesRound 512 (by decide) (by decide) ?_
    have hcycle : (1000000 : UInt32).toNat = 1000000 := rfl
    have htick : (1000 : UInt32).toNat = 1000 := rfl
    rw [hticks, hcycle, htick]
    norm_num
  · exact ((htotals (phaseIndex 2)).2 (by decide)).1.trans (by decide)

/-- An operation that takes no time. -/
def instant : Measurement := { phase := 0, begin := ⟨0, 0, 1⟩, «end» := ⟨0, 0, 1⟩ }

theorem counts_instants (n : Nat) :
    (reset 1 1).countsOf (phaseIndex 0) (List.replicate n instant) = ⟨n, 0, 0⟩ := by
  have haccepts : (reset 1 1).accepts instant = true := by decide
  have hown : ownOf (phaseIndex 0) (List.replicate n instant) = List.replicate n instant :=
    List.filter_replicate_of_pos (by decide)
  have hcycles : instant.elapsedCycles.toNat = 0 := by decide
  simp [countsOf, hown, haccepts, List.countP_replicate, hcycles]

theorem calls_instants (n : Nat) :
    (run 1 1 (List.replicate n instant)).snapshot.phases[phaseIndex 0].calls.toNat =
      min n (2 ^ 64 - 1) := by
  have hcalls := (tallies_run 1 1 (.replicate n instant) (phaseIndex 0)).calls
  rw [counts_instants] at hcalls
  exact hcalls

/-- `calls` stands at the limit after 2^64 operations, all of them accepted. -/
theorem calls_stop :
    let measurements := List.replicate (2 ^ 64) instant
    let counts := (reset 1 1).countsOf (phaseIndex 0) measurements
    (run 1 1 measurements).snapshot.phases[phaseIndex 0].calls.toNat ≠
      counts.accepted + counts.rejected := by
  intro measurements counts
  have hcounts : counts = ⟨2 ^ 64, 0, 0⟩ := counts_instants (2 ^ 64)
  rw [calls_instants, hcounts]
  decide

end Accumulator

end WaveformGenerator.OperationTiming
