import WaveformGenerator.Cut.LogTally
import WaveformGenerator.Cut.StageRefinement

/-!
# The log of a run

Through every round, the cuts logged and those the host's walk finds from where the stage stands
are together the cuts predicted. So the log is faithful at every point of a run, a step half
carried out included, and its tallies are exact.
-/

namespace WaveformGenerator.Cut

open CutEntry CutStage
open Host (appliedFrom sentFrom)

variable {α : Type} {silence : α} {schedule : ValidSchedule} {output : List α}

namespace Play

variable {play play' : Play α}

/-- The log's part of the invariant of a play. -/
structure LogInv (schedule : ValidSchedule) (output : List α) (play : Play α) : Prop where
  applied : play.log.applied.map AppliedCut.toHost ++
      appliedFrom output.length play.stage.position.toNat
        (play.sent.length + play.stage.zerosLeft.toNat) play.stage.pending =
    predicted schedule.entries output
  frames : sentFrom output.length play.stage.position.toNat
      (play.sent.length + play.stage.zerosLeft.toNat) play.stage.pending =
    streamFrames schedule.entries output
  rejected : play.log.rejected.toNat + pastEnd play.stage.pending output =
    pastEnd schedule.entries output
  ended : play.log.ended = play.ended
  endFrames : play.ended = true → play.log.endFrames.toNat = play.sent.length

theorem LogInv.start (schedule : ValidSchedule) (blocks : List (List α)) :
    LogInv schedule blocks.flatten (start schedule blocks) where
  applied := by simp [Play.start, CutStage.latch, CutStage.pending, predicted]
  frames := by simp [Play.start, CutStage.latch, CutStage.pending, streamFrames]
  rejected := by simp [Play.start, CutStage.latch, CutStage.pending]
  ended := rfl
  endFrames h := nomatch h

/-- The predicted stream has no more frames than the output and the schedule's zeros. -/
theorem streamFrames_le (schedule : ValidSchedule) (output : List α) :
    streamFrames schedule.entries output ≤ output.length + zeroLength schedule.entries := by
  have hlaid := walk_laid output (fun _ => schedule.length_pos) schedule.ordered
    (fun _ _ => Nat.zero_le _) (Nat.zero_le _)
  rw [List.drop_zero] at hlaid
  have hsum := countP_isSent_add (walk schedule.entries 0 output)
  have hout := countP_output schedule.entries 0 output
  have hzeros := hlaid.zeros_le
  rw [streamFrames, hlaid.sentFrom_eq]
  omega

theorem pastEnd_cons {entry : CutEntry} (later : List CutEntry)
    (h : entry.offset.toNat < output.length) :
    pastEnd (entry :: later) output = pastEnd later output :=
  List.countP_cons_of_neg (by simpa using h)

theorem pastEnd_of_past {entries : List CutEntry}
    (h : ∀ entry ∈ entries, output.length ≤ entry.offset.toNat) :
    pastEnd entries output = entries.length :=
  List.countP_eq_length.mpr fun entry he => decide_eq_true (h entry he)

/-- Entries past the end are counted without a wrap: a schedule has few. -/
theorem LogInv.reject (h : LogInv schedule output play) (log : CutLog)
    (hlog : log.rejected = play.log.rejected) {entries : List CutEntry}
    (hpast : pastEnd play.stage.pending output = entries.length) :
    (log.reject (.ofNat entries.length)).rejected.toNat = pastEnd schedule.entries output := by
  have hle : pastEnd schedule.entries output ≤ 16 :=
    Nat.le_trans List.countP_le_length schedule.list.bounded
  have hsum := h.rejected
  rw [hpast] at hsum
  rw [CutLog.reject, hlog, UInt32.toNat_add, toNat_ofNat32 (by omega), hsum]
  omega

theorem LogInv.sent_le (h : LogInv schedule output play) :
    play.sent.length ≤ streamFrames schedule.entries output := by
  have hle : play.sent.length + play.stage.zerosLeft.toNat ≤
      streamFrames schedule.entries output := h.frames ▸ Host.le_sentFrom
  exact Nat.le_trans (Nat.le_add_right ..) hle

theorem LogInv.streamPosition_toNat (h : LogInv schedule output play)
    (hN : output.length + zeroLength schedule.entries < 2 ^ 32) :
    play.streamPosition.toNat = play.sent.length := by
  have := h.sent_le
  have := streamFrames_le schedule output
  exact toNat_ofNat32 (by omega)

/-- Every round keeps the log's invariant. -/
theorem LogInv.step (h : LogInv schedule output play) (hplay : Inv silence schedule output play)
    (hN : output.length + zeroLength schedule.entries < 2 ^ 32)
    (hs : RoundStep silence play play') : LogInv schedule output play' := by
  have hstream := h.streamPosition_toNat hN
  have happlied := h.applied
  have hframes := h.frames
  have hrejected := h.rejected
  have hposle := hplay.stage.position_le
  have hoffered := hplay.offered
  have hon := hplay.stage.onHand_toNat
  cases hs with
  | idle => exact h
  | «end» => exact { h with ended := rfl, endFrames := fun _ => hstream }
  | block => exact { h with }
  | finishClear running hopen hz hu hi hclear =>
    have hend : output.length = play.stage.position.toNat := by
      rw [hi] at hoffered; simp at hoffered; omega
    have hpast : ∀ entry ∈ play.stage.pending, output.length ≤ entry.offset.toNat := fun e he =>
      hend ▸ hclear e he
    have hpend : ({ play.stage with
        nextEntry := play.stage.schedule.size, finished := true } : CutStage).pending = [] :=
      pending_of_size rfl
    rw [Host.appliedFrom_of_past hpast] at happlied
    rw [Host.sentFrom_of_past hpast] at hframes
    exact
      { applied := by rw [hpend]; exact happlied
        frames := by rw [hpend]; exact hframes
        rejected := by rw [hpend]; exact h.reject play.log rfl (pastEnd_of_past hpast)
        ended := h.ended
        endFrames := fun he => absurd (he : play.ended = true) (by simp [running]) }
  | finishUnderway entry later logged running hopen hz hu hi hp hk ho hlog =>
    have hend : output.length = play.stage.position.toNat := by
      rw [hi] at hoffered; simp at hoffered; omega
    have hcov := (hplay.stage.ahead entry (hp ▸ List.mem_cons_self) ho).2.2
    have hpast : ∀ e ∈ later, output.length ≤ e.offset.toNat := fun e he => by
      have := (precedes_of_pending hp e he).past_le; omega
    have hinside : entry.offset.toNat < output.length := by omega
    simp only [past, hk, if_true] at hcov
    have hskipped : (play.stage.position - entry.offset).toNat =
        min entry.length.toNat (output.length - entry.offset.toNat) := by
      rw [UInt32.toNat_sub_of_le _ _ (by rw [UInt32.le_iff_toNat_le]; omega)]
      omega
    have hpend : ({ play.stage with
        nextEntry := play.stage.schedule.size, finished := true } : CutStage).pending = [] :=
      pending_of_size rfl
    obtain ⟨hadded, hrej, -, hended⟩ := CutLog.record_eq_ok hlog
    rw [hp, Host.appliedFrom_cons_drop hk hinside, Host.appliedFrom_of_past hpast, hz] at happlied
    rw [hp, Host.sentFrom_cons_drop hk hinside, Host.sentFrom_of_past hpast, hz] at hframes
    exact
      { applied := by
          rw [hpend]
          simp only [CutLog.reject, hadded, List.map_append, List.map_cons, List.map_nil,
            AppliedCut.toHost, hstream, hskipped, appliedFrom, List.append_nil]
          rw [Nat.sub_eq_zero_of_le (by omega)] at happlied
          exact happlied
        frames := by
          rw [hpend]
          simp only [sentFrom, hz]
          omega
        rejected := by
          rw [hpend]
          refine h.reject logged hrej ?_
          rw [hp, pastEnd_cons later hinside, pastEnd_of_past hpast]
        ended := hended.trans h.ended
        endFrames := fun he => absurd (he : play.ended = true) (by simp [running]) }
  | zeros m running hpos hle =>
    have hsub : (play.stage.zerosLeft - m).toNat = play.stage.zerosLeft.toNat - m.toNat :=
      UInt32.toNat_sub_of_le _ _ (UInt32.le_iff_toNat_le.mpr hle)
    have hsame : (play.sent ++ List.replicate m.toNat silence).length +
        (play.stage.zerosLeft - m).toNat =
          play.sent.length + play.stage.zerosLeft.toNat := by
      rw [hsub, List.length_append, List.length_replicate]; omega
    exact { h with
      applied := by rw [hsame]; exact happlied
      frames := by rw [hsame]; exact hframes
      endFrames := fun he => absurd (he : play.ended = true) (by simp [running]) }
  | insert entry later m logged running hz hhand hp hk ho hpos hle hlog =>
    have hinside : entry.offset.toNat < output.length := by omega
    have hpend : ({ play.stage with
        nextEntry := play.stage.nextEntry + 1
        zerosLeft := entry.length - m } : CutStage).pending = later := pending_of_next hp rfl rfl
    have hsub : (entry.length - m).toNat = entry.length.toNat - m.toNat :=
      UInt32.toNat_sub_of_le _ _ (UInt32.le_iff_toNat_le.mpr hle)
    have hplace : (play.sent ++ List.replicate m.toNat silence).length +
        (entry.length - m).toNat = play.sent.length + entry.length.toNat := by
      rw [hsub, List.length_append, List.length_replicate]; omega
    obtain ⟨hadded, hrej, -, hended⟩ := CutLog.record_eq_ok hlog
    rw [hp, Host.appliedFrom_cons_zero hk hinside, ho, Nat.sub_self, hz] at happlied
    rw [hp, Host.sentFrom_cons_zero hk hinside, ho, Nat.sub_self, hz] at hframes
    exact
      { applied := by
          simp only [hadded, hpend, hplace, List.map_append, List.map_cons, List.map_nil,
            AppliedCut.toHost, hstream, List.append_assoc]
          exact happlied
        frames := by simp only [hpend, hplace]; exact hframes
        rejected := by
          rw [hp, pastEnd_cons later hinside] at hrejected
          simp only [hpend, hrej]
          exact hrejected
        ended := hended.trans h.ended
        endFrames := fun he => absurd (he : play.ended = true) (by simp [running]) }
  | discard entry later m running hz hp hk ho hpos hcov hle =>
    obtain ⟨hadd, -⟩ := hplay.advance hle
    have hinside : entry.offset.toNat < output.length := by omega
    have hsame : entry.offset.toNat - (play.stage.position + m).toNat =
        entry.offset.toNat - play.stage.position.toNat := by omega
    rw [hp, Host.appliedFrom_cons_drop hk hinside, ← hsame,
      ← Host.appliedFrom_cons_drop hk hinside, ← hp] at happlied
    rw [hp, Host.sentFrom_cons_drop hk hinside, ← hsame,
      ← Host.sentFrom_cons_drop hk hinside, ← hp] at hframes
    exact { h with
      applied := happlied
      frames := hframes
      endFrames := fun he => absurd (he : play.ended = true) (by simp [running]) }
  | discardLast entry later m logged running hz hp hk ho hpos hcov hle hlog =>
    obtain ⟨hadd, -⟩ := hplay.advance hle
    have hinside : entry.offset.toNat < output.length := by omega
    have hpend : ({ play.stage with
        position := play.stage.position + m
        nextEntry := play.stage.nextEntry + 1 } : CutStage).pending = later :=
      pending_of_next hp rfl rfl
    have hpast : entry.past = entry.offset.toNat + entry.length.toNat := by simp [past, hk]
    have hskipped : min entry.length.toNat (output.length - entry.offset.toNat) =
        entry.length.toNat := by omega
    have hplace : entry.offset.toNat + entry.length.toNat = (play.stage.position + m).toNat := by
      omega
    obtain ⟨hadded, hrej, -, hended⟩ := CutLog.record_eq_ok hlog
    rw [hp, Host.appliedFrom_cons_drop hk hinside, hskipped, Nat.sub_eq_zero_of_le ho, hz,
      hplace] at happlied
    rw [hp, Host.sentFrom_cons_drop hk hinside, hskipped, Nat.sub_eq_zero_of_le ho, hz,
      hplace] at hframes
    exact
      { applied := by
          simp only [hadded, hpend, hz, List.map_append, List.map_cons, List.map_nil,
            AppliedCut.toHost, hstream, List.append_assoc]
          exact happlied
        frames := by simp only [hpend, hz]; exact hframes
        rejected := by
          rw [hp, pastEnd_cons later hinside] at hrejected
          simp only [hpend, hrej]
          exact hrejected
        ended := hended.trans h.ended
        endFrames := fun he => absurd (he : play.ended = true) (by simp [running]) }
  | send m running hz hclear hpos hle =>
    obtain ⟨hadd, -, -, -, hlen⟩ := hplay.advance hle
    have hinside : play.stage.position.toNat + m.toNat ≤ output.length := by omega
    have hplace : (play.sent ++
        (play.block.drop play.stage.blockPosition.toNat).take m.toNat).length +
          play.stage.zerosLeft.toNat =
            play.sent.length + play.stage.zerosLeft.toNat + m.toNat := by
      rw [List.length_append, hlen]; omega
    obtain ⟨hcuts, hsent⟩ := Host.walk_advance hinside hclear
    rw [← hcuts, ← hadd] at happlied
    rw [← hsent, ← hadd] at hframes
    exact { h with
      applied := by simp only [hplace]; exact happlied
      frames := by simp only [hplace]; exact hframes
      endFrames := fun he => absurd (he : play.ended = true) (by simp [running]) }

/-! ## Every point of a run -/

/-- The log of a play between two rounds is faithful. -/
theorem LogInv.faithful (h : LogInv schedule output play)
    (hplay : Inv silence schedule output play) :
    play.log.Faithful schedule.entries output play.sent.length where
  logged := ⟨_, h.applied, fun _ hc =>
    Nat.le_trans (Nat.le_add_right ..) (Host.le_position_of_mem hc)⟩
  emitted_le := h.sent_le
  whole hlog := by
    have hended : play.ended = true := h.ended ▸ hlog
    obtain ⟨hfinished, hz⟩ := hplay.ended hended
    obtain ⟨hi, hu⟩ := hplay.finished hfinished
    have hpend := hplay.stage.finished hfinished
    have hend : output.length = play.stage.position.toNat := by
      have hoffered := hplay.offered
      have hposle := hplay.stage.position_le
      have hon := hplay.stage.onHand_toNat
      rw [hi] at hoffered
      simp at hoffered
      omega
    have happlied := h.applied
    have hframes := h.frames
    have hrejected := h.rejected
    rw [hpend] at happlied hframes hrejected
    simp only [appliedFrom, sentFrom, List.append_nil, hz] at happlied hframes
    refine ⟨happlied, ?_, hrejected⟩
    rw [h.endFrames hended]
    omega

theorem logCut_eq_ok {cut : Option AppliedCut} (h : play.logCut cut = .ok play') :
    ∃ log, play' = { play with log } := by
  cases cut with
  | none => cases h; exact ⟨play.log, rfl⟩
  | some cut =>
    cases hlog : play.log.record cut with
    | error status => simp [logCut, hlog, bind, Except.bind] at h
    | ok log =>
      simp only [logCut, hlog, bind, Except.bind, pure, Except.pure, Except.ok.injEq] at h
      exact ⟨log, h.symm⟩

/-- A step that puts frames into the stream, cut short: the log has taken all of it, the stream
holds some of its frames. -/
theorem stopWithin_of_round {limit : StepLimit} {written : Nat} (running : play.ended = false)
    (hend : (play.stage.next limit).kind ≠ .«end») (hpull : (play.stage.next limit).kind ≠ .pull)
    (h : play.round silence limit = .ok play') :
    ∃ stopped, play.stopWithin silence limit written = .ok stopped ∧
      stopped.log = play'.log ∧ stopped.sent <+: play'.sent ∧ stopped.ended = false ∧
      play'.ended = false := by
  rw [round, running, if_neg Bool.false_ne_true] at h
  dsimp only at h
  rw [if_neg hend, carryOut] at h
  cases htaken : play.takeStep (play.stage.next limit) with
  | error status => simp [htaken, bind, Except.bind] at h
  | ok taken =>
    simp only [htaken, bind, Except.bind, runStep, if_neg hpull, Except.ok.injEq] at h
    obtain ⟨log, htaken'⟩ := logCut_eq_ok (show logCut _ _ = .ok taken from htaken)
    refine ⟨_, by simp only [stopWithin, htaken, bind, Except.bind]; rfl, ?_, ?_, ?_, ?_⟩
    · rw [← h]; rfl
    · rw [← h]
      exact (List.prefix_append_right_inj _).mpr (List.take_prefix ..)
    · rw [pushFrames, htaken']
      exact running
    · rw [← h, pushFrames, htaken']
      exact running

/-- Where the next step is a pull or the end, cutting it short changes nothing. -/
theorem stopWithin_of_idle {limit : StepLimit} (written : Nat)
    (h : (play.stage.next limit).kind = .«end» ∨ (play.stage.next limit).kind = .pull) :
    play.stopWithin silence limit written = .ok play := by
  have htake : ∀ stream, play.stage.take (play.stage.next limit) stream = (none, play.stage) := by
    intro stream
    rcases h with h | h <;> simp [CutStage.take, h]
  have hframes : ∀ p : Play α, p.stepFrames silence (play.stage.next limit)
      play.stage.blockPosition = [] := by
    intro p
    rcases h with h | h <;> simp [stepFrames, h]
  simp [stopWithin, takeStep, htake, logCut, bind, Except.bind, hframes, pushFrames, pure,
    Except.pure]

/-- A run's log at a play's point: every tally of frames put into the stream is exact; and it is
the host's, unless all of the stream is sent before its end is known. -/
def TalliesExact (silence : α) (schedule : ValidSchedule) (output : List α) (play : Play α) :
    Prop :=
  ∀ sent : SentFrames, sent.toNat ≤ play.sent.length →
    (play.log.tally sent).Exact schedule.entries output
      (play.ended && sent.toNat == play.sent.length) sent ∧
    (play.ended = true ∨ sent.toNat < (cutStream silence schedule.entries output).length →
      ∃ stream, Host.apply (schedule.entries.map .ofBoard) output.length = .ok stream ∧
        Host.tally stream (some sent.toNat) = .ok (play.log.tally sent).toHost)

theorem length_cutStream (silence : α) (schedule : ValidSchedule) (output : List α) :
    (cutStream silence schedule.entries output).length =
      streamFrames schedule.entries output := by
  have hlaid := walk_laid output (fun _ => schedule.length_pos) schedule.ordered
    (fun _ _ => Nat.zero_le _) (Nat.zero_le _)
  rw [List.drop_zero] at hlaid
  have hemit : ∀ marks : List (Mark α),
      (marks.filterMap (Mark.emit silence)).length = marks.countP Mark.isSent := fun marks => by
    induction marks with
    | nil => rfl
    | cons mark marks ih => cases mark <;> simp [List.filterMap_cons, Mark.emit, List.countP_cons, ih]
  rw [cutStream, streamFrom, hemit, streamFrames, hlaid.sentFrom_eq, Nat.zero_add]

theorem talliesExact_of_faithful
    (h : play.log.Faithful schedule.entries output play.sent.length)
    (hN : output.length + zeroLength schedule.entries < 2 ^ 32)
    (hended : play.log.ended = play.ended)
    (hend : play.ended = true → play.log.endFrames.toNat = play.sent.length) :
    TalliesExact silence schedule output play := by
  intro sent hs
  have hwhole : (play.ended && sent.toNat == play.sent.length) = play.log.wholeStream sent := by
    rw [Bool.eq_iff_iff, CutLog.wholeStream_iff, hended, Bool.and_eq_true, beq_iff_eq]
    exact and_congr_right fun he => by rw [hend he]
  rw [hwhole, length_cutStream, ← hended]
  exact ⟨h.exact hN hs, h.host hN hs⟩

theorem Inv.talliesExact (hplay : Inv silence schedule output play)
    (hlog : LogInv schedule output play)
    (hN : output.length + zeroLength schedule.entries < 2 ^ 32) :
    TalliesExact silence schedule output play ∧
      ∀ limit written, ∃ stopped, play.stopWithin silence limit written = .ok stopped ∧
        TalliesExact silence schedule output stopped := by
  have hexact : TalliesExact silence schedule output play :=
    talliesExact_of_faithful (hlog.faithful hplay) hN hlog.ended hlog.endFrames
  refine ⟨hexact, fun limit written => ?_⟩
  by_cases hidle : (play.stage.next limit).kind = .«end» ∨ (play.stage.next limit).kind = .pull
  · exact ⟨play, stopWithin_of_idle written hidle, hexact⟩
  · rw [not_or] at hidle
    have running : play.ended = false := by
      by_contra hended
      obtain ⟨hf, hz⟩ := hplay.ended (by simpa using hended)
      obtain ⟨-, hu⟩ := hplay.finished hf
      obtain ⟨hend, -⟩ := hidle
      rw [next_of_finished limit hf hz hu] at hend
      exact hend rfl
    obtain ⟨next, hround, hstep⟩ := hplay.round (by omega) limit
    obtain ⟨stopped, hstop, hl, hprefix, hended, hnotended⟩ :=
      stopWithin_of_round running hidle.1 hidle.2 hround
    have hnext := hlog.step hplay hN hstep
    have hinv := hplay.step (by omega) hstep
    refine ⟨stopped, hstop, talliesExact_of_faithful ?_ hN ?_ ?_⟩
    · rw [hl]
      exact (hnext.faithful hinv).mono hprefix.length_le
    · rw [hl, hnext.ended, hnotended, hended]
    · simp [hended]

/-- **The log is exact.** At every point of every run, a step half carried out included, and for
every prefix of the frames sent, the tally is what the reference walk says of the prefix, and what
the host computes of it from the schedule and the length of the output. -/
theorem run_talliesExact (silence : α) (schedule : ValidSchedule) (blocks : List (List α))
    (hN : blocks.flatten.length + zeroLength schedule.entries < 2 ^ 32)
    (limits : List StepLimit) :
    ∃ play, (start schedule blocks).run silence limits = .ok play ∧
      TalliesExact silence schedule blocks.flatten play ∧
      ∀ limit written, ∃ stopped, play.stopWithin silence limit written = .ok stopped ∧
        TalliesExact silence schedule blocks.flatten stopped := by
  obtain ⟨play, hrun, hinv, hlog⟩ :=
    (Inv.start silence schedule blocks).run (P := fun _ => LogInv schedule blocks.flatten)
      (by omega) (.start schedule blocks) (fun hinv hs hlog => hlog.step hinv hN hs) limits
  exact ⟨play, hrun, hinv.talliesExact hlog hN⟩

/-- One frame of output, and a ZERO past its end. -/
def pastEndZero : ValidSchedule := ⟨⟨[⟨5, 1, .zero⟩], by decide⟩, by decide⟩

theorem run_talliesExact_erasure : [[10, 11], [], [12, 13, 14]].flatten.length +
      zeroLength erasure.entries < 2 ^ 32 ∧
    ∃ play, (start erasure [[10, 11], [], [12, 13, 14]]).run 0
        (List.replicate 20 ⟨1, by decide⟩) = .ok play ∧
      TalliesExact 0 erasure [10, 11, 12, 13, 14] play :=
  ⟨by decide,
    let ⟨play, hrun, hexact, _⟩ := run_talliesExact 0 erasure [[10, 11], [], [12, 13, 14]]
      (by decide) (List.replicate 20 ⟨1, by decide⟩)
    ⟨play, hrun, hexact⟩⟩

/-- With all frames sent and the end of the output not yet seen, the board has not counted the
entry past it; the host, which knows the length, has. -/
theorem tally_ne_host_before_end :
    ∃ play stream, (start pastEndZero [[7]]).run 0 (List.replicate 2 ⟨1, by decide⟩) = .ok play ∧
      Host.apply (pastEndZero.entries.map .ofBoard) 1 = .ok stream ∧ play.sent = [7] ∧
      Host.tally stream (some 1) ≠ .ok (play.log.tally 1).toHost :=
  ⟨_, _, rfl, rfl, rfl, by decide⟩

end Play

end WaveformGenerator.Cut
