import WaveformGenerator.Cut.PlaySteps

/-!
# The CUT stage refines the reference walk

Every round keeps `Play.Inv` and, until the stream ends, lowers `Play.work`. So every run, with
its blocks cut and its steps limited in any way, sends a prefix of the reference stream, and after
enough rounds has sent all of it.
-/

namespace WaveformGenerator.Cut

open CutEntry CutStage

variable {α : Type} {silence : α} {schedule : ValidSchedule} {output : List α}

namespace Play

variable {play play' : Play α}

/-- The stage moves over `m` frames on hand. -/
theorem Inv.advance (h : Inv silence schedule output play) {m : UInt32}
    (hle : m.toNat ≤ play.stage.onHand.toNat) :
    (play.stage.position + m).toNat = play.stage.position.toNat + m.toNat ∧
      (play.stage.offered - (play.stage.position + m)).toNat =
        play.stage.onHand.toNat - m.toNat ∧
      output.drop (play.stage.position + m).toNat =
        play.block.drop (play.block.length - (play.stage.onHand.toNat - m.toNat)) ++
          play.input.flatten ∧
      output.drop play.stage.position.toNat =
        (play.block.drop play.stage.blockPosition.toNat).take m.toNat ++
          output.drop (play.stage.position + m).toNat ∧
      ((play.block.drop play.stage.blockPosition.toNat).take m.toNat).length = m.toNat := by
  have hon := h.stage.onHand_toNat
  have hpos := h.stage.position_le
  have hoff := play.stage.offered.toNat_lt
  have hbl := h.onHand_le
  have hadd : (play.stage.position + m).toNat = play.stage.position.toNat + m.toNat := by
    rw [UInt32.toNat_add]; omega
  have hsub : (play.stage.offered - (play.stage.position + m)).toNat =
      play.stage.onHand.toNat - m.toNat := by
    rw [UInt32.toNat_sub_of_le _ _ (by rw [UInt32.le_iff_toNat_le]; omega), hadd]
    omega
  have hlen : m.toNat ≤ (play.block.drop play.stage.blockPosition.toNat).length := by
    rw [h.blockPosition_toNat, List.length_drop]
    omega
  have hdrop : output.drop (play.stage.position + m).toNat =
      (play.block.drop play.stage.blockPosition.toNat).drop m.toNat ++ play.input.flatten := by
    rw [hadd, ← List.drop_drop, h.rest, h.blockPosition_toNat, List.drop_append_of_le_length]
    rwa [h.blockPosition_toNat] at hlen
  refine ⟨hadd, hsub, ?_, ?_, by rw [List.length_take]; omega⟩
  · rw [hdrop, h.blockPosition_toNat, List.drop_drop]
    congr 2
    omega
  · rw [hdrop, ← List.append_assoc, List.take_append_drop, h.rest, h.blockPosition_toNat]

theorem Inv.pending_ne_of_lt (h : Inv silence schedule output play)
    (hlt : 0 < play.stage.onHand.toNat) : output.drop play.stage.position.toNat ≠ [] := by
  have hbl := h.onHand_le
  have hon := h.stage.onHand_toNat
  have hoff := h.offered
  rw [Ne, List.drop_eq_nil_iff]
  omega

/-- Every round keeps the invariant. -/
theorem Inv.step (h : Inv silence schedule output play) (hN : output.length < 2 ^ 32)
    (hs : RoundStep silence play play') : Inv silence schedule output play' := by
  have hon := h.stage.onHand_toNat
  have hposle := h.stage.position_le
  have hoffered := h.offered
  cases hs with
  | idle => exact h
  | «end» running hz hu hf =>
    exact { h with
      ended := fun _ => ⟨hf, hz⟩ }
  | block block input running hopen hz hu hi =>
    rw [hi, List.flatten_cons, List.length_append] at hoffered
    have hlen : (UInt32.ofNat block.length).toNat = block.length := toNat_ofNat32 (by omega)
    have hadd : (play.stage.offered + .ofNat block.length).toNat =
        play.stage.offered.toNat + block.length := by
      rw [UInt32.toNat_add, hlen]; omega
    have hhand : (play.stage.offered + .ofNat block.length - play.stage.position).toNat =
        block.length := by
      rw [UInt32.toNat_sub_of_le _ _ (by rw [UInt32.le_iff_toNat_le]; omega), hadd]
      omega
    have hrest := h.rest
    rw [hu, Nat.sub_zero, List.drop_length, List.nil_append, hi, List.flatten_cons] at hrest
    exact { h with
      stage := { h.stage with position_le := by simp only [hadd]; omega }
      offered := by simp only [hadd]; omega
      block := hlen
      onHand_le := by simp only [CutStage.onHand, hhand]; omega
      rest := by simp only [CutStage.onHand, hhand, Nat.sub_self, List.drop_zero]; exact hrest
      finished := fun hf => absurd (hf : play.stage.finished = true) (by simp [hopen])
      ended := fun he => absurd (he : play.ended = true) (by simp [running]) }
  | finishClear running hopen hz hu hi hclear =>
    have hnil : output.drop play.stage.position.toNat = [] := by
      rw [h.rest, hu, Nat.sub_zero, List.drop_length, hi]; rfl
    have hpend : ({ play.stage with
        nextEntry := play.stage.schedule.size, finished := true } : CutStage).pending = [] :=
      pending_of_size rfl
    exact { h with
      stage := { h.stage with
        entry_le := by simp [ValidSchedule.size_toNat]
        ahead := by simp [hpend]
        finished := fun _ => hpend }
      finished := fun _ => ⟨hi, hu⟩
      ended := fun he => absurd (he : play.ended = true) (by simp [running])
      logged_le := Nat.le_trans h.logged_le (by
        simpa [ValidSchedule.size_toNat] using h.stage.entry_le)
      stream := by
        have := h.stream
        simp only [hnil, streamFrom_nil] at this ⊢
        exact this }
  | finishUnderway entry later logged running hopen hz hu hi hp hk ho hlog =>
    have hnil : output.drop play.stage.position.toNat = [] := by
      rw [h.rest, hu, Nat.sub_zero, List.drop_length, hi]; rfl
    have hpend : ({ play.stage with
        nextEntry := play.stage.schedule.size, finished := true } : CutStage).pending = [] :=
      pending_of_size rfl
    have hle := h.logged_le
    exact { h with
      stage := { h.stage with
        entry_le := by simp [ValidSchedule.size_toNat]
        ahead := by simp [hpend]
        finished := fun _ => hpend }
      finished := fun _ => ⟨hi, hu⟩
      ended := fun he => absurd (he : play.ended = true) (by simp [running])
      logged_le := by
        have := (pending_succ hp).1
        simp only [CutLog.reject, (CutLog.record_eq_ok hlog).1, ValidSchedule.size_toNat,
          List.length_append, List.length_singleton]
        omega
      stream := by
        have := h.stream
        simp only [hnil, streamFrom_nil] at this ⊢
        exact this }
  | zeros m running hpos hle =>
    have hsub : (play.stage.zerosLeft - m).toNat = play.stage.zerosLeft.toNat - m.toNat :=
      UInt32.toNat_sub_of_le _ _ (UInt32.le_iff_toNat_le.mpr hle)
    exact { h with
      stage := { h.stage with }
      ended := fun he => absurd (he : play.ended = true) (by simp [running])
      stream := by
        have := h.stream
        rw [show play.stage.zerosLeft.toNat = m.toNat + (play.stage.zerosLeft.toNat - m.toNat) by
          omega, ← List.replicate_append_replicate, ← List.append_assoc] at this
        simp only [hsub]
        exact this }
  | insert entry later m logged running hz hhand hp hk ho hpos hle hlog =>
    obtain ⟨hlt, hsucc, -⟩ := pending_succ hp
    have hsub : (entry.length - m).toNat = entry.length.toNat - m.toNat :=
      UInt32.toNat_sub_of_le _ _ (UInt32.le_iff_toNat_le.mpr hle)
    have hpend : ({ play.stage with
        nextEntry := play.stage.nextEntry + 1
        zerosLeft := entry.length - m } : CutStage).pending = later := pending_of_next hp rfl rfl
    have hle := h.logged_le
    exact { h with
      stage :=
        { entry_le := by simp only [hsucc]; omega
          position_le := h.stage.position_le
          ahead := by
            rw [hpend]
            intro e he hlt'
            have := (precedes_of_pending hp e he).past_le
            have := entry.offset_le_past
            simp only at hlt'
            omega
          finished := fun hf => by simp [h.stage.finished hf] at hp }
      ended := fun he => absurd (he : play.ended = true) (by simp [running])
      logged_le := by
        simp only [(CutLog.record_eq_ok hlog).1, hsucc, List.length_append,
          List.length_singleton]
        omega
      stream := by
        have hst := h.stream
        rw [hp, streamFrom_zero silence hk ho (precedes_of_pending hp)
          (h.pending_ne_of_lt hhand), hz, List.replicate_zero, List.append_nil,
          show entry.length.toNat = m.toNat + (entry.length.toNat - m.toNat) by omega,
          ← List.replicate_append_replicate] at hst
        simp only [hpend, hsub]
        simpa only [List.append_assoc] using hst }
  | discard entry later m running hz hp hk ho hpos hcov hle =>
    obtain ⟨hadd, hsub, hrest, hsplit, hlen⟩ := h.advance hle
    exact { h with
      stage := { h.stage with
        position_le := by simp only [hadd]; omega
        ahead := by
          intro e he hlt'
          simp only [hadd] at hlt' ⊢
          change e ∈ play.stage.pending at he
          change play.stage.pending.head? = some e ∧ _
          rw [hp] at he ⊢
          rcases List.mem_cons.mp he with rfl | he
          · exact ⟨rfl, hk, hcov⟩
          · have := (precedes_of_pending hp e he).past_le
            omega }
      onHand_le := (Nat.le_of_eq hsub).trans ((Nat.sub_le ..).trans h.onHand_le)
      rest := by simp only [CutStage.onHand, hsub]; exact hrest
      finished := fun hf => by
        have := h.finished hf
        omega
      ended := fun he => absurd (he : play.ended = true) (by simp [running])
      stream := by
        have hst := h.stream
        rw [hsplit, hp, streamFrom_drop silence _ _ hk ho (by omega)
          (precedes_of_pending hp), hlen, ← hadd, ← hp] at hst
        exact hst }
  | discardLast entry later m logged running hz hp hk ho hpos hcov hle hlog =>
    obtain ⟨hadd, hsub, hrest, hsplit, hlen⟩ := h.advance hle
    obtain ⟨hlt, hsucc, -⟩ := pending_succ hp
    have hpend : ({ play.stage with
        position := play.stage.position + m
        nextEntry := play.stage.nextEntry + 1 } : CutStage).pending = later :=
      pending_of_next hp rfl rfl
    have hlogged := h.logged_le
    exact { h with
      stage :=
        { entry_le := by simp only [hsucc]; omega
          position_le := by simp only [hadd]; omega
          ahead := by
            rw [hpend]
            intro e he hlt'
            have := (precedes_of_pending hp e he).past_le
            simp only [hadd] at hlt'
            omega
          finished := fun hf => by simp [h.stage.finished hf] at hp }
      onHand_le := (Nat.le_of_eq hsub).trans ((Nat.sub_le ..).trans h.onHand_le)
      rest := by simp only [CutStage.onHand, hsub]; exact hrest
      finished := fun hf => by
        have := h.finished hf
        omega
      ended := fun he => absurd (he : play.ended = true) (by simp [running])
      logged_le := by
        simp only [(CutLog.record_eq_ok hlog).1, hsucc, List.length_append,
          List.length_singleton]
        omega
      stream := by
        have hst := h.stream
        rw [hsplit, hp, streamFrom_drop silence _ _ hk ho (by omega)
          (precedes_of_pending hp), hlen,
          streamFrom_of_past silence hk (by omega), ← hadd] at hst
        simp only [hpend]
        exact hst }
  | send m running hz hclear hpos hle =>
    obtain ⟨hadd, hsub, hrest, hsplit, hlen⟩ := h.advance hle
    exact { h with
      stage := { h.stage with
        position_le := by simp only [hadd]; omega
        ahead := by
          intro e he hlt'
          have := hclear e he
          simp only [hadd] at hlt'
          omega }
      onHand_le := (Nat.le_of_eq hsub).trans ((Nat.sub_le ..).trans h.onHand_le)
      rest := by simp only [CutStage.onHand, hsub]; exact hrest
      finished := fun hf => by
        have := h.finished hf
        omega
      ended := fun he => absurd (he : play.ended = true) (by simp [running])
      stream := by
        have hst := h.stream
        rw [hsplit, streamFrom_append_of_clear silence _ _ (by rwa [hlen]), hlen, hz,
          List.replicate_zero, List.append_nil, ← hadd] at hst
        simp only [hz, List.replicate_zero, List.append_nil, List.append_assoc]
        exact hst }

/-! ## Runs -/

/-- What a play has still to do: frames on hand and to come, zeros owed and to be inserted, blocks
to ask for, and the two ends. Every round lowers it. -/
def work (play : Play α) : Nat :=
  (if play.ended then 0 else 1) + (if play.stage.finished then 0 else 1) + play.input.length +
    play.stage.onHand.toNat + play.input.flatten.length + play.stage.zerosLeft.toNat +
    (play.stage.pending.map (·.length.toNat)).sum

theorem Inv.work_lt (h : Inv silence schedule output play) (hN : output.length < 2 ^ 32)
    (hs : RoundStep silence play play') (running : play.ended = false) :
    play'.work < play.work := by
  have hoffered := h.offered
  have hposle := h.stage.position_le
  cases hs with
  | idle ended => simp [running] at ended
  | «end» _ _ _ finished => simp [work, endStream, running, finished]
  | block block input _ hopen hz hu hi =>
    rw [hi, List.flatten_cons, List.length_append] at hoffered
    have hlen : (UInt32.ofNat block.length).toNat = block.length := toNat_ofNat32 (by omega)
    have hhand : (play.stage.offered + .ofNat block.length - play.stage.position).toNat =
        block.length := by
      have hon := h.stage.onHand_toNat
      have hadd : (play.stage.offered + .ofNat block.length).toNat =
          play.stage.offered.toNat + block.length := by
        rw [UInt32.toNat_add, hlen]; omega
      rw [UInt32.toNat_sub_of_le _ _ (by rw [UInt32.le_iff_toNat_le]; omega), hadd]
      omega
    simp only [work, hi, hu, List.length_cons, List.flatten_cons, List.length_append]
    simp only [CutStage.onHand, CutStage.pending, hhand]
    omega
  | finishClear _ hopen hz hu hi _ | finishUnderway _ _ _ _ hopen hz hu hi =>
    simp only [work, running, hopen, hi, CutStage.onHand, CutStage.pending,
      ValidSchedule.size_toNat]
    simp
    omega
  | zeros m _ hpos hle =>
    have hsub : (play.stage.zerosLeft - m).toNat = play.stage.zerosLeft.toNat - m.toNat :=
      UInt32.toNat_sub_of_le _ _ (UInt32.le_iff_toNat_le.mpr hle)
    simp only [work, CutStage.onHand, CutStage.pending, hsub]
    omega
  | insert entry later m logged _ hz hhand hp hk ho hpos hle hlog =>
    obtain ⟨-, hsucc, hlater⟩ := pending_succ hp
    have hsub : (entry.length - m).toNat = entry.length.toNat - m.toNat :=
      UInt32.toNat_sub_of_le _ _ (UInt32.le_iff_toNat_le.mpr hle)
    simp only [work, hp, List.map_cons, List.sum_cons]
    simp only [CutStage.onHand, CutStage.pending, hsub, hsucc, hlater]
    omega
  | discard entry later m _ hz hp hk ho hpos hcov hle =>
    obtain ⟨-, hsub, -⟩ := h.advance hle
    simp only [work, CutStage.pending]
    simp only [CutStage.onHand] at hsub ⊢
    simp only [CutStage.onHand] at hle
    omega
  | discardLast entry later m logged _ hz hp hk ho hpos hcov hle hlog =>
    obtain ⟨-, hsub, -⟩ := h.advance hle
    obtain ⟨-, hsucc, hlater⟩ := pending_succ hp
    simp only [work, hp, List.map_cons, List.sum_cons]
    simp only [CutStage.pending, hsucc, hlater]
    simp only [CutStage.onHand] at hsub hle ⊢
    omega
  | send m _ hz hclear hpos hle =>
    obtain ⟨-, hsub, -⟩ := h.advance hle
    simp only [work, CutStage.pending]
    simp only [CutStage.onHand] at hsub ⊢
    simp only [CutStage.onHand] at hle
    omega

theorem RoundStep.eq_of_ended (hs : RoundStep silence play play') (ended : play.ended = true) :
    play' = play := by
  cases hs <;> first | rfl | simp_all

/-- A run is never refused, keeps the invariant, and keeps whatever every round keeps. -/
theorem Inv.run {P : Nat → Play α → Prop} (h : Inv silence schedule output play)
    (hN : output.length < 2 ^ 32) (start : P 0 play)
    (step : ∀ {n p p'}, Inv silence schedule output p → RoundStep silence p p' → P n p →
      P (n + 1) p') (limits : List StepLimit) :
    ∃ play', play.run silence limits = .ok play' ∧ Inv silence schedule output play' ∧
      P limits.length play' := by
  induction limits generalizing play P with
  | nil => exact ⟨play, rfl, h, start⟩
  | cons limit limits ih =>
    obtain ⟨next, hround, hstep⟩ := h.round hN limit
    have hnext : P 1 next := step h hstep start
    obtain ⟨play', hrun, hinv, hP⟩ := ih (P := fun n => P (n + 1)) (h.step hN hstep) hnext step
    exact ⟨play', by rw [Play.run, List.foldlM_cons, hround]; exact hrun, hinv, hP⟩

/-- A run has ended, or done work in each of its rounds. -/
theorem Inv.run_work (h : Inv silence schedule output play) (hN : output.length < 2 ^ 32)
    (limits : List StepLimit) :
    ∃ play', play.run silence limits = .ok play' ∧ Inv silence schedule output play' ∧
      (play'.ended = true ∨ play'.work + limits.length ≤ play.work) := by
  refine h.run (P := fun n p => p.ended = true ∨ p.work + n ≤ play.work) hN (.inr (Nat.le_refl _))
    (fun {n p p'} hinv hs hP => ?_) limits
  cases hended : p.ended with
  | true => exact .inl (hs.eq_of_ended hended ▸ hended)
  | false =>
    have hlt := hinv.work_lt hN hs hended
    rcases hP with hP | hP
    · simp [hended] at hP
    · exact .inr (by omega)

/-- At the end nothing is owed: the play has sent the whole reference stream. -/
theorem Inv.sent_of_ended (h : Inv silence schedule output play) (hended : play.ended = true) :
    play.sent = cutStream silence schedule.entries output := by
  obtain ⟨hf, hz⟩ := h.ended hended
  obtain ⟨hi, hu⟩ := h.finished hf
  have hst := h.stream
  rw [h.rest, hu, Nat.sub_zero, List.drop_length, hi, hz] at hst
  simpa using hst

theorem Inv.sent_prefix (h : Inv silence schedule output play) :
    play.sent <+: cutStream silence schedule.entries output := by
  rw [← h.stream, List.append_assoc]
  exact List.prefix_append ..

/-- **The stage refines the reference walk.** However the engine's output is cut into blocks and
the steps are limited, a run is never refused and sends a prefix of the reference stream; it ends
within a number of rounds that does not depend on the limits, having sent all of it. -/
theorem run_refines_cutStream (silence : α) (schedule : ValidSchedule) (blocks : List (List α))
    (hN : blocks.flatten.length ≤ 2 ^ 32 - 1) :
    (∀ limits, ∃ play, (start schedule blocks).run silence limits = .ok play ∧
      play.sent <+: cutStream silence schedule.entries blocks.flatten ∧
      (play.ended = true → play.sent = cutStream silence schedule.entries blocks.flatten)) ∧
    ∃ rounds, ∀ limits : List StepLimit, rounds ≤ limits.length →
      ∃ play, (start schedule blocks).run silence limits = .ok play ∧ play.ended = true ∧
        play.sent = cutStream silence schedule.entries blocks.flatten := by
  have hN : blocks.flatten.length < 2 ^ 32 := by omega
  have hstart := Inv.start silence schedule blocks
  refine ⟨fun limits => ?_, (start schedule blocks).work + 1, fun limits hlen => ?_⟩
  · obtain ⟨play, hrun, hinv, -⟩ := hstart.run_work hN limits
    exact ⟨play, hrun, hinv.sent_prefix, hinv.sent_of_ended⟩
  · obtain ⟨play, hrun, hinv, hended | hwork⟩ := hstart.run_work hN limits
    · exact ⟨play, hrun, hended, hinv.sent_of_ended hended⟩
    · omega

/-- An erasure whose ZERO lies where its DROP begins, and a ZERO past the end of a short output. -/
def erasure : ValidSchedule :=
  ⟨⟨[⟨1, 2, .zero⟩, ⟨1, 3, .drop⟩, ⟨9, 1, .zero⟩], by decide⟩, by decide⟩

theorem run_refines_cutStream_erasure :
    [[10, 11], [], [12, 13, 14]].flatten.length ≤ 2 ^ 32 - 1 ∧
    ∃ rounds, ∀ limits : List StepLimit, rounds ≤ limits.length →
      ∃ play, (start erasure [[10, 11], [], [12, 13, 14]]).run 0 limits = .ok play ∧
        play.ended = true ∧ play.sent = [10, 0, 0, 14] :=
  ⟨by decide, (run_refines_cutStream 0 erasure [[10, 11], [], [12, 13, 14]] (by decide)).2⟩

end Play

end WaveformGenerator.Cut
