import WaveformGenerator.Cut.Play
import WaveformGenerator.Cut.Reference
import WaveformGenerator.Cut.StageSpec

/-!
# The rounds of a play

`Play.Inv` is the invariant of a play of one engine output under one schedule: where the stage
stands in the block on hand, what of the output is still to come, and that the frames sent, the
zeros still owed and the walk from where the stage stands make up the reference stream.
`RoundStep` lists what a round can do; `Inv.round` says that every round does one of these, so
neither the stage nor the log ever refuses.
-/

namespace WaveformGenerator.Cut

open CutEntry CutStage

variable {α : Type} {silence : α} {schedule : ValidSchedule} {output : List α}

namespace CutLog

theorem record_eq_ok {log logged : CutLog} {cut : AppliedCut} (h : log.record cut = .ok logged) :
    logged.applied = log.applied ++ [cut] ∧ logged.rejected = log.rejected ∧
      logged.endFrames = log.endFrames ∧ logged.ended = log.ended := by
  unfold record at h
  split at h
  · cases h
  · cases h; exact ⟨rfl, rfl, rfl, rfl⟩

theorem record_of_lt {log : CutLog} (h : log.applied.length < maxEntries) (cut : AppliedCut) :
    ∃ logged, log.record cut = .ok logged := by
  unfold record
  rw [dif_neg (by omega)]
  exact ⟨_, rfl⟩

end CutLog

namespace Play

structure Inv (silence : α) (schedule : ValidSchedule) (output : List α) (play : Play α) :
    Prop where
  latched : play.stage.schedule = schedule
  stage : play.stage.Inv
  offered : play.stage.offered.toNat + play.input.flatten.length = output.length
  block : play.stage.block.toNat = play.block.length
  onHand_le : play.stage.onHand.toNat ≤ play.block.length
  rest : output.drop play.stage.position.toNat =
    play.block.drop (play.block.length - play.stage.onHand.toNat) ++ play.input.flatten
  finished : play.stage.finished = true → play.input = [] ∧ play.stage.onHand.toNat = 0
  ended : play.ended = true → play.stage.finished = true ∧ play.stage.zerosLeft.toNat = 0
  logged_le : play.log.applied.length ≤ play.stage.nextEntry.toNat
  stream : play.sent ++ List.replicate play.stage.zerosLeft.toNat silence ++
    streamFrom silence play.stage.pending play.stage.position.toNat
      (output.drop play.stage.position.toNat) = cutStream silence schedule.entries output

/-- What a round makes of a play. -/
inductive RoundStep (silence : α) (play : Play α) : Play α → Prop
  /-- The stream has ended: nothing more happens. -/
  | idle (ended : play.ended = true) : RoundStep silence play play
  | «end» (running : play.ended = false) (noZeros : play.stage.zerosLeft.toNat = 0)
      (used : play.stage.onHand.toNat = 0) (finished : play.stage.finished = true) :
    RoundStep silence play play.endStream
  | block (block : List α) (input : List (List α))
      (running : play.ended = false) (open_ : play.stage.finished = false)
      (noZeros : play.stage.zerosLeft.toNat = 0) (used : play.stage.onHand.toNat = 0)
      (next : play.input = block :: input) :
    RoundStep silence play
      { play with
        stage := { play.stage with
          offered := play.stage.offered + .ofNat block.length
          block := .ofNat block.length }
        block, input }
  | finishClear (running : play.ended = false) (open_ : play.stage.finished = false)
      (noZeros : play.stage.zerosLeft.toNat = 0) (used : play.stage.onHand.toNat = 0)
      (next : play.input = [])
      (clear : ∀ entry ∈ play.stage.pending,
        play.stage.position.toNat ≤ entry.offset.toNat) :
    RoundStep silence play
      { play with
        stage := { play.stage with nextEntry := play.stage.schedule.size, finished := true }
        log := play.log.reject (.ofNat play.stage.pending.length) }
  | finishUnderway (entry : CutEntry) (later : List CutEntry) (logged : CutLog)
      (running : play.ended = false) (open_ : play.stage.finished = false)
      (noZeros : play.stage.zerosLeft.toNat = 0) (used : play.stage.onHand.toNat = 0)
      (next : play.input = []) (pending : play.stage.pending = entry :: later)
      (kind : entry.kind = .drop)
      (offset : entry.offset.toNat < play.stage.position.toNat)
      (log : play.log.record
        ⟨play.streamPosition, play.stage.position - entry.offset, .drop⟩ = .ok logged) :
    RoundStep silence play
      { play with
        stage := { play.stage with nextEntry := play.stage.schedule.size, finished := true }
        log := logged.reject (.ofNat later.length) }
  | zeros (m : UInt32) (running : play.ended = false)
      (pos : 0 < m.toNat) (le : m.toNat ≤ play.stage.zerosLeft.toNat) :
    RoundStep silence play
      { play with
        stage := { play.stage with zerosLeft := play.stage.zerosLeft - m }
        sent := play.sent ++ List.replicate m.toNat silence }
  | insert (entry : CutEntry) (later : List CutEntry) (m : UInt32) (logged : CutLog)
      (running : play.ended = false)
      (noZeros : play.stage.zerosLeft.toNat = 0) (onHand : 0 < play.stage.onHand.toNat)
      (pending : play.stage.pending = entry :: later) (kind : entry.kind = .zero)
      (offset : entry.offset.toNat = play.stage.position.toNat)
      (pos : 0 < m.toNat) (le : m.toNat ≤ entry.length.toNat)
      (log : play.log.record ⟨play.streamPosition, entry.length, .zero⟩ = .ok logged) :
    RoundStep silence play
      { play with
        stage := { play.stage with
          nextEntry := play.stage.nextEntry + 1
          zerosLeft := entry.length - m }
        log := logged
        sent := play.sent ++ List.replicate m.toNat silence }
  | discard (entry : CutEntry) (later : List CutEntry) (m : UInt32)
      (running : play.ended = false) (noZeros : play.stage.zerosLeft.toNat = 0)
      (pending : play.stage.pending = entry :: later) (kind : entry.kind = .drop)
      (offset : entry.offset.toNat ≤ play.stage.position.toNat)
      (pos : 0 < m.toNat) (covered : play.stage.position.toNat + m.toNat < entry.past)
      (le : m.toNat ≤ play.stage.onHand.toNat) :
    RoundStep silence play
      { play with stage := { play.stage with position := play.stage.position + m } }
  | discardLast (entry : CutEntry) (later : List CutEntry) (m : UInt32) (logged : CutLog)
      (running : play.ended = false) (noZeros : play.stage.zerosLeft.toNat = 0)
      (pending : play.stage.pending = entry :: later) (kind : entry.kind = .drop)
      (offset : entry.offset.toNat ≤ play.stage.position.toNat)
      (pos : 0 < m.toNat) (covered : play.stage.position.toNat + m.toNat = entry.past)
      (le : m.toNat ≤ play.stage.onHand.toNat)
      (log : play.log.record ⟨play.streamPosition, entry.length, .drop⟩ = .ok logged) :
    RoundStep silence play
      { play with
        stage := { play.stage with
          position := play.stage.position + m
          nextEntry := play.stage.nextEntry + 1 }
        log := logged }
  | send (m : UInt32) (running : play.ended = false)
      (noZeros : play.stage.zerosLeft.toNat = 0)
      (clear : ∀ entry ∈ play.stage.pending,
        play.stage.position.toNat + m.toNat ≤ entry.offset.toNat)
      (pos : 0 < m.toNat) (le : m.toNat ≤ play.stage.onHand.toNat) :
    RoundStep silence play
      { play with
        stage := { play.stage with position := play.stage.position + m }
        sent := play.sent ++
          (play.block.drop play.stage.blockPosition.toNat).take m.toNat }

variable {play : Play α}

theorem Inv.start (silence : α) (schedule : ValidSchedule) (blocks : List (List α)) :
    Inv silence schedule blocks.flatten (start schedule blocks) where
  latched := rfl
  stage := .latch schedule
  offered := by simp [Play.start, CutStage.latch]
  block := rfl
  onHand_le := by simp [Play.start, CutStage.latch, CutStage.onHand]
  rest := by simp [Play.start, CutStage.latch]
  finished h := nomatch h
  ended h := nomatch h
  logged_le := by simp [Play.start]
  stream := by simp [Play.start, CutStage.latch, CutStage.pending, cutStream]

/-- The log has room for the cut of an entry that is still pending. -/
theorem Inv.record (h : Inv silence schedule output play) {entry : CutEntry}
    {later : List CutEntry} (hp : play.stage.pending = entry :: later) (cut : AppliedCut) :
    ∃ logged, play.log.record cut = .ok logged := by
  refine CutLog.record_of_lt ?_ cut
  have h1 := (pending_succ hp).1
  have h2 := play.stage.schedule.list.bounded
  have h3 := h.logged_le
  simp only [ValidSchedule.entries] at h1
  omega

theorem Inv.blockPosition_toNat (h : Inv silence schedule output play) :
    play.stage.blockPosition.toNat = play.block.length - play.stage.onHand.toNat := by
  have h1 := h.onHand_le
  have h2 := h.block
  unfold CutStage.blockPosition
  rw [UInt32.toNat_sub_of_le _ _ (by
    rw [UInt32.le_iff_toNat_le]; simp only [CutStage.onHand] at h1; omega), h2]
  rfl

theorem Inv.finishOutput (h : Inv silence schedule output play)
    (running : play.ended = false) (open_ : play.stage.finished = false)
    (noZeros : play.stage.zerosLeft.toNat = 0) (used : play.stage.onHand.toNat = 0)
    (next : play.input = []) :
    ∃ play', play.finishOutput = .ok play' ∧ RoundStep silence play play' := by
  by_cases hc : ∀ entry ∈ play.stage.pending, play.stage.position.toNat ≤ entry.offset.toNat
  · refine ⟨_, ?_, .finishClear running open_ noZeros used next hc⟩
    simp only [Play.finishOutput, finish_clear h.stage hc, logCut]
    rfl
  · push Not at hc
    obtain ⟨entry, hm, ho⟩ := hc
    obtain ⟨hhead, hk, -⟩ := h.stage.ahead entry hm ho
    obtain ⟨later, hp⟩ : ∃ later, play.stage.pending = entry :: later := by
      cases hpe : play.stage.pending with
      | nil => simp [hpe] at hhead
      | cons e later => rw [hpe] at hhead; cases hhead; exact ⟨later, rfl⟩
    obtain ⟨logged, hlog⟩ := h.record hp
      ⟨play.streamPosition, play.stage.position - entry.offset, .drop⟩
    refine ⟨_, ?_, .finishUnderway entry later logged running open_ noZeros used next hp hk ho
      hlog⟩
    simp only [Play.finishOutput, finish_underway hp hk ho, logCut, hlog]
    rfl

/-- Every round carries out one of the steps above: nothing is ever refused. -/
theorem Inv.round (h : Inv silence schedule output play) (hN : output.length < 2 ^ 32)
    (limit : StepLimit) :
    ∃ play', play.round silence limit = .ok play' ∧ RoundStep silence play play' := by
  unfold Play.round
  cases running : play.ended with
  | true => exact ⟨play, rfl, .idle running⟩
  | false =>
    simp only [Bool.false_eq_true, if_false]
    have hon := h.stage.onHand_toNat
    have hoff := play.stage.offered.toNat_lt
    have hspec := next_spec h.stage limit
    revert hspec
    generalize play.stage.next limit = step
    intro hspec
    cases hspec with
    | «end» hz hu hf => exact ⟨_, rfl, .«end» running hz hu hf⟩
    | pull hz hu hf =>
      simp only [reduceCtorEq, if_false, carryOut, takeStep, CutStage.take, logCut, runStep]
      show ∃ play', play.pullBlock = .ok play' ∧ _
      unfold pullBlock
      cases hi : play.input with
      | nil => exact h.finishOutput running hf hz hu hi
      | cons block input =>
        refine ⟨_, ?_, .block block input running hf hz hu hi⟩
        have hlen := h.offered
        rw [hi, List.flatten_cons, List.length_append] at hlen
        have hfit : ¬ (.ofNat block.length > 0xFFFFFFFF - play.stage.offered) := by
          rw [gt_iff_lt, UInt32.lt_iff_toNat_lt, toNat_ofNat32 (by omega),
            UInt32.toNat_sub_of_le _ _ (by rw [UInt32.le_iff_toNat_le]; simp; omega)]
          simp
          omega
        simp only [offer, hfit, if_false]
        rfl
    | zeros m hpos hle =>
      refine ⟨_, ?_, .zeros m running hpos hle⟩
      simp only [reduceCtorEq, if_false, carryOut, takeStep, take_zeros hpos hle, logCut]
      rfl
    | insert entry later m hz ho hp hk hoff' hpos hle =>
      obtain ⟨logged, hlog⟩ := h.record hp ⟨play.streamPosition, entry.length, .zero⟩
      refine ⟨_, ?_, .insert entry later m logged running hz ho hp hk hoff' hpos hle hlog⟩
      simp only [reduceCtorEq, if_false, carryOut, takeStep, take_insert hz hp hle, logCut, hlog]
      rfl
    | discard entry later m hz hp hk hoff' hpos hcov hle =>
      have htake := take_discard hp hoff' hk hcov (by have := h.stage.position_le; omega)
        play.streamPosition
      by_cases hlt : play.stage.position.toNat + m.toNat < entry.past
      · refine ⟨_, ?_, .discard entry later m running hz hp hk hoff' hpos hlt hle⟩
        simp only [reduceCtorEq, if_false, carryOut, takeStep, htake, if_pos hlt, logCut]
        simp [bind, Except.bind, runStep, pushFrames, stepFrames]
      · obtain ⟨logged, hlog⟩ := h.record hp ⟨play.streamPosition, entry.length, .drop⟩
        refine ⟨_, ?_, .discardLast entry later m logged running hz hp hk hoff' hpos
          (by omega) hle hlog⟩
        simp only [reduceCtorEq, if_false, carryOut, takeStep, htake, if_neg hlt, logCut, hlog]
        simp [bind, Except.bind, pure, Except.pure, runStep, pushFrames, stepFrames]
    | send m hz hclear hpos hle =>
      exact ⟨_, rfl, .send m running hz hclear hpos hle⟩

end Play

end WaveformGenerator.Cut
