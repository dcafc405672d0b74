import WaveformGenerator.LiveProtocol.Names
import WaveformGenerator.SignalLab.DetLaws

/-!
# Sequencing of live lines

A line's sequence is read once, by the parser and by the reply alike. The last sequence is the
greatest that was read, whatever became of the commands.
-/

namespace WaveformGenerator.LiveProtocol

open SignalLab (Det)

variable {R : Type} [Det R]

/-- The characters of a line as it comes. -/
def lineText (line : List UInt8) : List Char := line.map fun byte => .ofNat byte.toNat

theorem seq_ne_zero {text : List Char} {line : Sequenced} (h : readSequence text = .ok line) :
    line.seq ≠ 0 := by
  rw [readSequence] at h
  split at h
  · cases h
  dsimp only at h
  generalize (if text.getLast? = some '\r' then text.dropLast else text) = text at h
  split at h
  · cases h
  split at h
  · cases h
  split at h
  · cases h
  split at h
  · cases h
  · rename_i hzero
    cases h
    exact hzero

theorem error_of_readSequence {text : List Char} {status : Status}
    (h : readSequence text = .error status) : status = badRequest := by
  rw [readSequence] at h
  split at h
  · cases h
    rfl
  dsimp only at h
  generalize (if text.getLast? = some '\r' then text.dropLast else text) = text at h
  split at h
  · cases h
    rfl
  split at h
  · cases h
    rfl
  split at h
  · cases h
    rfl
  split at h
  · cases h
    rfl
  · cases h

/-- The reply names no sequence exactly where the parser read none. -/
theorem replySequence_eq_zero (text : List Char) :
    replySequence text = 0 ↔ ∀ line, readSequence text ≠ .ok line := by
  rw [replySequence]
  cases h : readSequence text with
  | error status => simp
  | ok line => simp [seq_ne_zero h]

/-! ## One line -/

/-- A line without a newer sequence is refused and changes nothing. -/
theorem parse_old {text : List Char} {last : UInt32} (h : replySequence text ≤ last) :
    (parse text last : Result (Request R) × UInt32) = (.error badRequest, last) := by
  rw [replySequence] at h
  rw [parse]
  cases hread : readSequence text with
  | error status => rw [error_of_readSequence hread]
  | ok line =>
    rw [hread] at h
    exact if_pos h

/-- A line with a newer one consumes it, and its command is judged. -/
theorem parse_newer {text : List Char} {last : UInt32} (h : last < replySequence text) :
    ∃ command, (parse text last : Result (Request R) × UInt32) =
      (parseScheduled command { seq := replySequence text }, replySequence text) := by
  rw [parse]
  cases hread : readSequence text with
  | error status =>
    rw [replySequence, hread] at h
    exact absurd (UInt32.lt_iff_toNat_lt.mp h) (Nat.not_lt_zero _)
  | ok line =>
    have hseq : replySequence text = line.seq := by rw [replySequence, hread]
    rw [hseq] at h ⊢
    exact ⟨line.command, if_neg (UInt32.not_le.mpr h)⟩

/-! ## Runs -/

/-- A line of a run: the last sequence before and after it, and what became of it. -/
structure LineStep (R : Type) [Det R] where
  line : List UInt8
  before : UInt32
  outcome : Result (Request R)
  after : UInt32

namespace LineStep

/-- The sequence that its reply names. -/
def seq (step : LineStep R) : UInt32 := replySequence (lineText step.line)

/-- What one line does: it is older and refused, or its sequence is consumed, and the request it may
give carries it. -/
structure Sound (step : LineStep R) : Prop where
  older : step.seq ≤ step.before → step.outcome = .error badRequest ∧ step.after = step.before
  newer : step.before < step.seq → step.after = step.seq
  accepted : ∀ request, step.outcome = .ok request →
    step.before < request.seq ∧ request.seq = step.seq ∧ request.Named

theorem Sound.before_le {step : LineStep R} (h : step.Sound) : step.before ≤ step.after := by
  rcases Nat.lt_or_ge step.before.toNat step.seq.toNat with hnewer | holder
  · rw [h.newer (UInt32.lt_iff_toNat_lt.mpr hnewer), UInt32.le_iff_toNat_le]
    exact hnewer.le
  · rw [(h.older (UInt32.le_iff_toNat_le.mpr holder)).2]
    exact UInt32.le_refl _

theorem Sound.seq_le {step : LineStep R} (h : step.Sound) : step.seq ≤ step.after := by
  rcases Nat.lt_or_ge step.before.toNat step.seq.toNat with hnewer | holder
  · rw [h.newer (UInt32.lt_iff_toNat_lt.mpr hnewer)]
    exact UInt32.le_refl _
  · rw [(h.older (UInt32.le_iff_toNat_le.mpr holder)).2, UInt32.le_iff_toNat_le]
    exact holder

end LineStep

def stepOf (last : UInt32) (line : List UInt8) : LineStep R :=
  let parsed := parse (lineText line) last
  { line, before := last, outcome := parsed.1, after := parsed.2 }

/-- The lines of a session, one after another. -/
def runLines (last : UInt32) : List (List UInt8) → List (LineStep R)
  | [] => []
  | line :: lines =>
    let step := stepOf last line
    step :: runLines step.after lines

theorem sound_stepOf (last : UInt32) (line : List UInt8) :
    (stepOf last line : LineStep R).Sound where
  older hseq := by
    have hparse := parse_old (R := R) hseq
    exact ⟨congrArg Prod.fst hparse, congrArg Prod.snd hparse⟩
  newer hseq := by
    obtain ⟨command, hparse⟩ := parse_newer (R := R) hseq
    exact congrArg Prod.snd hparse
  accepted := by
    intro request houtcome
    rcases Nat.lt_or_ge last.toNat (replySequence (lineText line)).toNat with hnewer | holder
    · have hnewer := UInt32.lt_iff_toNat_lt.mpr hnewer
      obtain ⟨command, hparse⟩ := parse_newer (R := R) hnewer
      have hblank := Request.named_blank (R := R) (replySequence (lineText line))
      obtain ⟨hseq, hnamed⟩ := keeps_parseScheduled ⟨rfl, hblank⟩ command request
        ((congrArg Prod.fst hparse).symm.trans houtcome)
      refine ⟨?_, hseq, hnamed⟩
      rw [hseq]
      exact hnewer
    · have hparse := parse_old (R := R) (UInt32.le_iff_toNat_le.mpr holder)
      cases (congrArg Prod.fst hparse).symm.trans houtcome

/-- What every line of a run has in front of it. -/
theorem last_le {last : UInt32} {lines : List (List UInt8)} :
    ∀ step ∈ (runLines last lines : List (LineStep R)), step.Sound ∧ last ≤ step.before := by
  induction lines generalizing last with
  | nil => exact fun step hstep => absurd hstep List.not_mem_nil
  | cons line lines ih =>
    intro step hstep
    have hsound := sound_stepOf (R := R) last line
    rcases List.mem_cons.mp hstep with rfl | hstep
    · exact ⟨hsound, UInt32.le_refl _⟩
    · obtain ⟨hstepSound, hle⟩ := ih step hstep
      exact ⟨hstepSound, UInt32.le_trans hsound.before_le hle⟩

/-- A property of two lines in a run that holds when all that the first consumed is behind the
second. -/
theorem pairwise_runLines {r : LineStep R → LineStep R → Prop} {last : UInt32}
    {lines : List (List UInt8)}
    (hr : ∀ earlier later : LineStep R, earlier.Sound → later.Sound →
      earlier.after ≤ later.before → r earlier later) :
    (runLines last lines).Pairwise r := by
  induction lines generalizing last with
  | nil => exact .nil
  | cons line lines ih =>
    rw [runLines]
    refine List.pairwise_cons.mpr ⟨fun later hlater => ?_, ih⟩
    obtain ⟨hsound, hle⟩ := last_le later hlater
    exact hr _ later (sound_stepOf last line) hsound hle

theorem map_line_runLines (last : UInt32) (lines : List (List UInt8)) :
    (runLines last lines : List (LineStep R)).map (·.line) = lines := by
  induction lines generalizing last with
  | nil => rfl
  | cons line lines ih =>
    rw [runLines, List.map_cons, ih]
    rfl

/-- The sequence of a line that was accepted. -/
def LineStep.acceptedSeq (step : LineStep R) : Option UInt32 :=
  step.outcome.toOption.map (·.seq)

theorem acceptedSeq_eq_some {step : LineStep R} (h : step.Sound) {seq : UInt32}
    (hseq : step.acceptedSeq = some seq) : step.before < seq ∧ seq ≤ step.after := by
  obtain ⟨request, hrequest, rfl⟩ := Option.map_eq_some_iff.mp hseq
  have houtcome : step.outcome = .ok request := by
    cases hresult : step.outcome with
    | error status =>
      rw [hresult] at hrequest
      cases hrequest
    | ok accepted =>
      rw [hresult] at hrequest
      cases hrequest
      rfl
  obtain ⟨hbefore, hread, -⟩ := h.accepted request houtcome
  refine ⟨hbefore, ?_⟩
  rw [hread]
  exact h.seq_le

/-- The last sequence of a run never falls, and every accepted line has a greater sequence than
those before it. A line whose sequence an earlier line had is refused, whatever became of that
one. -/
theorem runLines_sequenced (last : UInt32) (lines : List (List UInt8)) :
    let run : List (LineStep R) := runLines last lines
    run.map (·.line) = lines ∧
      (last :: run.map (·.after)).Pairwise (· ≤ ·) ∧
      (run.filterMap (·.acceptedSeq)).Pairwise (· < ·) ∧
      (run.Pairwise fun earlier later => later.seq = earlier.seq →
        later.outcome = .error badRequest ∧ later.after = later.before) ∧
      ∀ step ∈ run, step.Sound ∧
        (∀ line, readSequence (lineText step.line) = .ok line → step.seq = line.seq) ∧
        (step.seq = 0 ↔ ∀ line, readSequence (lineText step.line) ≠ .ok line) := by
  intro run
  refine ⟨map_line_runLines last lines, ?_, ?_, ?_, fun step hstep => ⟨?_, ?_, ?_⟩⟩
  · refine List.pairwise_cons.mpr ⟨fun after hafter => ?_, ?_⟩
    · obtain ⟨step, hstep, rfl⟩ := List.mem_map.mp hafter
      obtain ⟨hsound, hle⟩ := last_le step hstep
      exact UInt32.le_trans hle hsound.before_le
    · refine List.pairwise_map.mpr (pairwise_runLines fun earlier later _ hlater hle => ?_)
      exact UInt32.le_trans hle hlater.before_le
  · refine List.pairwise_filterMap.mpr
      (pairwise_runLines fun earlier later hearlier hlater hle first hfirst second hsecond => ?_)
    have hbehind := (acceptedSeq_eq_some hearlier hfirst).2
    have hahead := (acceptedSeq_eq_some hlater hsecond).1
    exact UInt32.lt_of_le_of_lt (UInt32.le_trans hbehind hle) hahead
  · refine pairwise_runLines fun earlier later hearlier hlater hle hseq => hlater.older ?_
    rw [hseq]
    exact UInt32.le_trans hearlier.seq_le hle
  · exact (last_le step hstep).1
  · intro line hline
    rw [LineStep.seq, replySequence, hline]
  · exact replySequence_eq_zero _

/-- The retry of a refused line is refused, since that one consumed their sequence. -/
theorem runLines_sequenced_retry :
    let run : List (LineStep Rat) :=
      runLines 6 (["7 PAUSE", "7 STOP", "8 STOP"].map fun text => text.toUTF8.toList)
    run.map (fun step => (step.acceptedSeq, step.after)) = [(none, 7), (none, 7), (some 8, 8)] ∧
      (run.filterMap (·.acceptedSeq)).Pairwise (· < ·) :=
  ⟨by decide +kernel, (runLines_sequenced 6 _).2.2.1⟩

end WaveformGenerator.LiveProtocol
