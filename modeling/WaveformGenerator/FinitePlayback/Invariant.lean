import WaveformGenerator.FinitePlayback.Moves

/-!
# The scheduler's counters

`Inv` ties the five counters, the pending action and the phase together; every move keeps it, so
it holds in every state a run reaches.
-/

namespace WaveformGenerator.FinitePlayback

namespace Scheduler

/-- The range of a pending action is the one the counters imply. -/
def InRange (s : Scheduler) (action : Action) : Prop :=
  match action.kind with
  | .produce =>
    action.firstFrame.toNat = s.producedFrames.toNat ∧ 0 < action.frames.toNat ∧
      s.producedFrames.toNat + action.frames.toNat ≤ s.config.totalFrames.toNat ∧
      s.producedFrames.toNat + action.frames.toNat ≤
        s.writtenFrames.toNat + s.config.maxBlockFrames.toNat
  | .write =>
    action.firstFrame.toNat = s.writtenFrames.toNat ∧ 0 < action.frames.toNat ∧
      s.writtenFrames.toNat = s.committedFrames.toNat ∧
      action.frames.toNat ≤ s.config.maxBlockFrames.toNat ∧
      s.writtenFrames.toNat + action.frames.toNat ≤ s.producedFrames.toNat
  | .visibilityBarrier =>
    action.firstFrame.toNat = s.committedFrames.toNat ∧ 0 < action.frames.toNat ∧
      s.committedFrames.toNat + action.frames.toNat = s.writtenFrames.toNat
  | .read =>
    action.firstFrame.toNat = s.readFrames.toNat ∧ 0 < action.frames.toNat ∧
      action.frames.toNat ≤ s.config.maxBlockFrames.toNat ∧
      s.readFrames.toNat + action.frames.toNat ≤ s.committedFrames.toNat ∧
      s.readFrames.toNat + action.frames.toNat ≤
        s.consumedFrames.toNat + s.config.queueCapacityFrames.toNat
  | .finalize =>
    action.firstFrame.toNat = s.config.totalFrames.toNat ∧ action.frames.toNat = 0 ∧
      s.consumedFrames.toNat = s.config.totalFrames.toNat

structure Inv (s : Scheduler) : Prop where
  consumed_le : s.consumedFrames.toNat ≤ s.readFrames.toNat
  read_le : s.readFrames.toNat ≤ s.committedFrames.toNat
  committed_le : s.committedFrames.toNat ≤ s.writtenFrames.toNat
  written_le : s.writtenFrames.toNat ≤ s.producedFrames.toNat
  produced_le : s.producedFrames.toNat ≤ s.config.totalFrames.toNat
  staged : s.producedFrames.toNat ≤ s.writtenFrames.toNat + s.config.maxBlockFrames.toNat
  hidden : s.writtenFrames.toNat ≤ s.committedFrames.toNat + s.config.maxBlockFrames.toNat
  queued : s.readFrames.toNat ≤ s.consumedFrames.toNat + s.config.queueCapacityFrames.toNat
  fits : s.config.maxBlockFrames.toNat ≤ s.config.queueCapacityFrames.toNat
  pending : s.actionPending = true → s.InRange s.pendingAction
  completed : s.state = .completed → s.consumedFrames.toNat = s.config.totalFrames.toNat

/-- Everything a scheduler knows of its phase. -/
structure PhaseInv (s : Scheduler) : Prop where
  idle : s.actionPending = false → s.pendingAction = {}
  block_pos : s.state ≠ .unconfigured → 0 < s.config.maxBlockFrames.toNat
  total_pos : s.state ≠ .unconfigured → 0 < s.config.totalFrames.toNat
  lead_le : s.requiredLeadFrames.toNat ≤ s.config.totalFrames.toNat
  ready : s.state = .ready → s.consumedFrames.toNat = 0
  running : s.state = .running → s.started = true
  finalized : s.artifactFinalized = true → s.state = .completed
  cancelling : s.state = .cancelling → s.actionPending = true
  settled : s.state = .unconfigured ∨ s.state = .completed ∨ s.state = .cancelled →
    s.actionPending = false
  ok_iff : s.firstStatus.isOk = true ↔
    s.state ≠ .failed ∧ s.state ≠ .cancelling ∧ s.state ≠ .cancelled

variable {s s' : Scheduler}

theorem Inv.initial : Inv {} where
  consumed_le := Nat.le_refl _
  read_le := Nat.le_refl _
  committed_le := Nat.le_refl _
  written_le := Nat.le_refl _
  produced_le := Nat.le_refl _
  staged := Nat.le_refl _
  hidden := Nat.le_refl _
  queued := Nat.le_refl _
  fits := Nat.le_refl _
  pending h := nomatch h
  completed h := nomatch h

theorem toUInt32_toNat {n : UInt64} (h : n.toNat < 2 ^ 32) : n.toUInt32.toNat = n.toNat := by
  rw [UInt64.toNat_toUInt32]; omega

/-- An action issued under its guard has the range the counters imply. -/
theorem Inv.inRange (h : s.Inv) {action : Action}
    (hr : s.CanBegin action.kind action.firstFrame action.frames) : s.InRange action := by
  have h1 := h.consumed_le
  have h2 := h.read_le
  have h3 := h.committed_le
  have h4 := h.written_le
  have h5 := h.produced_le
  have h6 := h.staged
  have h8 := h.queued
  unfold InRange
  unfold CanBegin at hr
  cases hk : action.kind with
  | produce =>
    simp only [hk] at hr ⊢
    obtain ⟨hf, hne, hb, ht, hst⟩ := hr
    rw [Ne, ← UInt32.toNat_inj] at hne
    rw [UInt64.le_iff_toNat_le, UInt64.toNat_sub_of_le _ _ (UInt64.le_iff_toNat_le.mpr h5),
      UInt32.toNat_toUInt64] at ht
    rw [UInt64.le_iff_toNat_le, UInt64.toNat_sub_of_le _ _ (by
        rw [UInt64.le_iff_toNat_le, UInt64.toNat_sub_of_le _ _ (UInt64.le_iff_toNat_le.mpr h4),
          UInt32.toNat_toUInt64]
        omega),
      UInt64.toNat_sub_of_le _ _ (UInt64.le_iff_toNat_le.mpr h4), UInt32.toNat_toUInt64,
      UInt32.toNat_toUInt64] at hst
    simp at hne
    refine ⟨by rw [hf], ?_, ?_, ?_⟩ <;> omega
  | write =>
    simp only [hk] at hr ⊢
    obtain ⟨hf, hwc, hne, hb, ht⟩ := hr
    rw [Ne, ← UInt32.toNat_inj] at hne
    rw [UInt32.le_iff_toNat_le] at hb
    rw [UInt64.le_iff_toNat_le, UInt64.toNat_sub_of_le _ _ (UInt64.le_iff_toNat_le.mpr h4),
      UInt32.toNat_toUInt64] at ht
    simp at hne
    refine ⟨by rw [hf], ?_, by rw [hwc], hb, ?_⟩ <;> omega
  | visibilityBarrier =>
    simp only [hk] at hr ⊢
    obtain ⟨hf, hne, hle, hfr⟩ := hr
    have hsub : (s.writtenFrames - s.committedFrames).toNat =
        s.writtenFrames.toNat - s.committedFrames.toNat :=
      UInt64.toNat_sub_of_le _ _ (UInt64.le_iff_toNat_le.mpr h3)
    have hb := s.config.maxBlockFrames.toNat_lt
    rw [UInt64.le_iff_toNat_le, UInt32.toNat_toUInt64] at hle
    rw [Ne, ← UInt64.toNat_inj] at hne
    rw [hfr, toUInt32_toNat (by omega), hsub]
    refine ⟨by rw [hf], ?_, ?_⟩ <;> omega
  | read =>
    simp only [hk] at hr ⊢
    obtain ⟨hf, hne, hb, ht, hst⟩ := hr
    rw [Ne, ← UInt32.toNat_inj] at hne
    rw [UInt32.le_iff_toNat_le] at hb
    rw [UInt64.le_iff_toNat_le, UInt64.toNat_sub_of_le _ _ (UInt64.le_iff_toNat_le.mpr h2),
      UInt32.toNat_toUInt64] at ht
    rw [UInt64.le_iff_toNat_le, UInt64.toNat_sub_of_le _ _ (by
        rw [UInt64.le_iff_toNat_le, UInt64.toNat_sub_of_le _ _ (UInt64.le_iff_toNat_le.mpr h1),
          UInt32.toNat_toUInt64]
        omega),
      UInt64.toNat_sub_of_le _ _ (UInt64.le_iff_toNat_le.mpr h1), UInt32.toNat_toUInt64,
      UInt32.toNat_toUInt64] at hst
    simp at hne
    refine ⟨by rw [hf], ?_, hb, ?_, ?_⟩ <;> omega
  | finalize =>
    simp only [hk] at hr ⊢
    obtain ⟨hf, hz, -, -, -, -, -, hc, -⟩ := hr
    exact ⟨by rw [hf], by rw [hz]; rfl, by rw [hc]⟩

theorem actionMatches_iff {action : Action} :
    s.actionMatches action = true ↔ s.actionPending = true ∧ action = s.pendingAction := by
  obtain ⟨token, first, frames, kind⟩ := action
  cases hp : s.pendingAction
  simp [actionMatches, hp, and_assoc]

theorem add_toNat {counter : UInt64} {frames : UInt32} {bound : UInt64}
    (h : counter.toNat + frames.toNat ≤ bound.toNat) :
    (counter + frames.toUInt64).toNat = counter.toNat + frames.toNat := by
  have := bound.toNat_lt
  rw [UInt64.toNat_add, UInt32.toNat_toUInt64]
  omega

/-- The counter each kind of action moves. -/
def moved (s : Scheduler) (action : Action) : Scheduler :=
  match action.kind with
  | .produce => { s with producedFrames := s.producedFrames + action.frames.toUInt64 }
  | .write => { s with writtenFrames := s.writtenFrames + action.frames.toUInt64 }
  | .visibilityBarrier => { s with committedFrames := s.writtenFrames }
  | .read => { s with readFrames := s.readFrames + action.frames.toUInt64 }
  | .finalize => { s with artifactFinalized := true, state := .completed }

/-- A completed action finds its cursor where it left it. -/
theorem Inv.advance_eq (h : s.Inv) (pending : s.actionPending = true) :
    s.settle.advance s.pendingAction = (.success, s.settle.moved s.pendingAction) := by
  have hr := h.pending pending
  have hwritten := h.written_le
  unfold InRange at hr
  unfold advance moved
  cases hk : s.pendingAction.kind with
  | produce =>
    simp only [hk] at hr
    have hf : s.pendingAction.firstFrame = s.settle.producedFrames := UInt64.toNat_inj.mp hr.1
    simp only [hf, ne_eq, not_true_eq_false, if_false]
  | write =>
    simp only [hk] at hr
    have hf : s.pendingAction.firstFrame = s.settle.writtenFrames := UInt64.toNat_inj.mp hr.1
    have hwritten : s.settle.writtenFrames ≤ s.settle.producedFrames :=
      UInt64.le_iff_toNat_le.mpr hwritten
    have hle : ¬ (s.pendingAction.frames.toUInt64 >
        s.settle.producedFrames - s.settle.writtenFrames) := by
      rw [gt_iff_lt, UInt64.lt_iff_toNat_lt, UInt32.toNat_toUInt64,
        UInt64.toNat_sub_of_le _ _ hwritten]
      simp only [settle]
      omega
    simp only [hf, hle, ne_eq, not_true_eq_false, or_self, if_false]
  | visibilityBarrier =>
    simp only [hk] at hr
    have hf : s.pendingAction.firstFrame = s.settle.committedFrames := UInt64.toNat_inj.mp hr.1
    have hend : s.settle.committedFrames + s.pendingAction.frames.toUInt64 =
        s.settle.writtenFrames :=
      UInt64.toNat_inj.mp ((add_toNat (Nat.le_of_eq hr.2.2)).trans hr.2.2)
    simp only [hf, hend, ne_eq, not_true_eq_false, or_self, if_false]
  | read =>
    simp only [hk] at hr
    have hf : s.pendingAction.firstFrame = s.settle.readFrames := UInt64.toNat_inj.mp hr.1
    have hle : ¬ (s.settle.readFrames + s.pendingAction.frames.toUInt64 >
        s.settle.committedFrames) := by
      rw [gt_iff_lt, UInt64.not_lt, UInt64.le_iff_toNat_le]
      exact (add_toNat hr.2.2.2.1).trans_le hr.2.2.2.1
    simp only [hf, hle, ne_eq, not_true_eq_false, or_self, if_false]
  | finalize => rfl

theorem Inv.moved (h : s.Inv) (pending : s.actionPending = true) :
    (s.settle.moved s.pendingAction).Inv := by
  have hr := h.pending pending
  have h1 := h.consumed_le
  have h2 := h.read_le
  have h3 := h.committed_le
  have h4 := h.written_le
  have h5 := h.produced_le
  have h6 := h.staged
  have h7 := h.hidden
  have h8 := h.queued
  unfold InRange at hr
  unfold Scheduler.moved
  cases hk : s.pendingAction.kind with
  | produce =>
    simp only [hk] at hr ⊢
    have hadd := add_toNat hr.2.2.1
    exact { h with
      written_le := by simp only [settle, hadd]; omega
      produced_le := by simp only [settle, hadd]; omega
      staged := by simp only [settle, hadd]; omega
      pending := fun hp => nomatch hp }
  | write =>
    simp only [hk] at hr ⊢
    have hadd := add_toNat hr.2.2.2.2
    exact { h with
      committed_le := by simp only [settle, hadd]; omega
      written_le := by simp only [settle, hadd]; omega
      staged := by simp only [settle, hadd]; omega
      hidden := by simp only [settle, hadd]; omega
      pending := fun hp => nomatch hp }
  | visibilityBarrier =>
    simp only [hk] at hr ⊢
    exact { h with
      read_le := by simp only [settle]; omega
      committed_le := Nat.le_refl _
      hidden := by simp only [settle]; omega
      pending := fun hp => nomatch hp }
  | read =>
    simp only [hk] at hr ⊢
    have hadd := add_toNat hr.2.2.2.1
    exact { h with
      consumed_le := by simp only [settle, hadd]; omega
      read_le := by simp only [settle, hadd]; omega
      queued := by simp only [settle, hadd]; omega
      pending := fun hp => nomatch hp }
  | finalize =>
    simp only [hk] at hr ⊢
    exact { h with
      pending := fun hp => nomatch hp
      completed := fun _ => hr.2.2 }

/-- The audio clock moves on under a pending action. -/
theorem Inv.consume (h : s.Inv) (pending : s.actionPending = true) {frames : UInt32}
    (hadd : (s.consumedFrames + frames.toUInt64).toNat = s.consumedFrames.toNat + frames.toNat)
    (pos : frames.toNat ≠ 0)
    (queued : frames.toNat ≤ s.readFrames.toNat - s.consumedFrames.toNat) :
    InRange { s with consumedFrames := s.consumedFrames + frames.toUInt64 } s.pendingAction := by
  have hr := h.pending pending
  have h2 := h.read_le
  have h3 := h.committed_le
  have h4 := h.written_le
  have h5 := h.produced_le
  unfold InRange at hr ⊢
  cases hk : s.pendingAction.kind with
  | read =>
    simp only [hk, hadd] at hr ⊢
    refine ⟨hr.1, hr.2.1, hr.2.2.1, hr.2.2.2.1, ?_⟩
    omega
  | finalize =>
    simp only [hk] at hr
    omega
  | _ =>
    simp only [hk] at hr ⊢
    exact hr

/-- Every move keeps the invariant. -/
theorem Inv.move (h : s.Inv) {op : Op} {reply : Reply} (hm : Move s op reply s') : s'.Inv := by
  cases hm with
  | refused => exact h
  | configured config settled free total capacity block fits =>
    exact
      { consumed_le := Nat.le_refl _
        read_le := Nat.le_refl _
        committed_le := Nat.le_refl _
        written_le := Nat.le_refl _
        produced_le := Nat.zero_le _
        staged := Nat.zero_le _
        hidden := Nat.zero_le _
        queued := Nat.zero_le _
        fits := UInt32.le_iff_toNat_le.mp fits
        pending := fun hp => nomatch hp
        completed := fun hc => nomatch hc }
  | issued op action begins settled live tickets token range =>
    exact { h with pending := fun _ => h.inRange range }
  | settled action status count ticket ended =>
    exact { h with
      pending := fun hp => nomatch hp
      completed := fun hc => by
        simp only at hc
        split at hc
        · cases hc
        · rcases ended with ho | ho <;> simp_all }
  | failedAction =>
    exact { h with
      pending := fun hp => nomatch hp
      completed := fun hc => nomatch hc }
  | advanced action status count ticket live ok moved =>
    obtain ⟨hp, rfl⟩ := actionMatches_iff.mp ticket
    rw [h.advance_eq hp]
    exact h.moved hp
  | started ready lead queue => exact { h with completed := fun hc => nomatch hc }
  | consumed frames started running pos block queued =>
    have h1 := h.consumed_le
    have h8 := h.queued
    rw [UInt64.le_iff_toNat_le, UInt32.toNat_toUInt64,
      UInt64.toNat_sub_of_le _ _ (UInt64.le_iff_toNat_le.mpr h1)] at queued
    have hadd : (s.consumedFrames + frames.toUInt64).toNat =
        s.consumedFrames.toNat + frames.toNat :=
      add_toNat (show _ ≤ s.readFrames.toNat by omega)
    exact { h with
      consumed_le := by simp only [hadd]; omega
      queued := by simp only [hadd]; omega
      pending := fun hp => h.consume hp hadd (by
        rw [Ne, ← UInt32.toNat_inj] at pos; simpa using pos) queued
      completed := fun hc => by simp [running] at hc }
  | underrun => exact { h with completed := fun hc => nomatch hc }
  | failed => exact { h with completed := fun hc => nomatch hc }
  | cancelled =>
    exact { h with
      completed := fun hc => by
        simp only [latch] at hc
        split at hc <;> cases hc }
  | released => exact { h with }

/-! ## The phases -/

/-- The lead asked for never exceeds the playback. -/
theorem requiredLead_le (config : Config) :
    (requiredLead config).toNat ≤ config.totalFrames.toNat := by
  unfold requiredLead
  dsimp only
  generalize hlead : min _ config.totalFrames = lead
  have hle : lead.toNat ≤ config.totalFrames.toNat := by
    rw [← hlead, toNat_min64]; omega
  split
  · exact Nat.le_refl _
  · rename_i hm
    have hsub := UInt64.toNat_sub_of_le config.totalFrames lead (UInt64.le_iff_toNat_le.mpr hle)
    rw [ge_iff_le, UInt64.le_iff_toNat_le, hsub] at hm
    have := config.totalFrames.toNat_lt
    rw [UInt64.toNat_add]
    omega

theorem PhaseInv.initial : PhaseInv {} where
  idle _ := rfl
  block_pos h := absurd rfl h
  total_pos h := absurd rfl h
  lead_le := Nat.le_refl _
  ready h := nomatch h
  running h := nomatch h
  finalized h := nomatch h
  cancelling h := nomatch h
  settled _ := rfl
  ok_iff := by decide

/-- A failure keeps the first status, or is it. -/
theorem latch_status_isOk {reason : Status} (state : State) :
    (s.latch reason state).2.firstStatus.isOk = false := isOk_latch reason state

theorem isTerminal_iff : s.isTerminal = true ↔
    s.state = .completed ∨ s.state = .failed ∨ s.state = .cancelled := by
  simp [isTerminal, or_assoc]

theorem PhaseInv.moved (h : s.PhaseInv) (pending : s.actionPending = true)
    (live : s.state ≠ .cancelling ∧ s.state ≠ .failed) :
    (s.settle.moved s.pendingAction).PhaseInv := by
  have hsettled := fun hst => Bool.false_ne_true ((h.settled hst).symm.trans pending)
  unfold Scheduler.moved
  cases hk : s.pendingAction.kind with
  | finalize =>
    exact { h with
      idle := fun _ => rfl
      block_pos := fun _ => h.block_pos fun hu => hsettled (.inl hu)
      total_pos := fun _ => h.total_pos fun hu => hsettled (.inl hu)
      ready := fun hc => nomatch hc
      running := fun hc => nomatch hc
      finalized := fun _ => rfl
      cancelling := fun hc => nomatch hc
      settled := fun _ => rfl
      ok_iff := by
        simp only [reduceCtorEq, not_false_eq_true, and_self, iff_true, ne_eq]
        exact h.ok_iff.mpr ⟨live.2, live.1, fun hc => hsettled (.inr (.inr hc))⟩ }
  | _ =>
    exact { h with
      idle := fun _ => rfl
      cancelling := fun hc => absurd hc live.1
      settled := fun _ => rfl }

theorem PhaseInv.latch (h : s.PhaseInv) (configured : s.state ≠ .unconfigured)
    (open_ : s.isTerminal = false) (reason : Status) {state : State}
    (ended : state = .failed ∨ state = .cancelled ∧ s.actionPending = false ∨
      state = .cancelling ∧ s.actionPending = true) :
    (s.latch reason state).2.PhaseInv := by
  have hopen : s.state ≠ .completed := fun hc => by
    simp [isTerminal, hc] at open_
  exact { h with
    block_pos := fun _ => h.block_pos configured
    total_pos := fun _ => h.total_pos configured
    ready := fun hc => by simp only [Scheduler.latch] at hc; simp [hc] at ended
    running := fun hc => by simp only [Scheduler.latch] at hc; simp [hc] at ended
    finalized := fun hf => absurd (h.finalized hf) hopen
    cancelling := fun hc => by
      simp only [Scheduler.latch] at hc ⊢
      simpa [hc] using ended
    settled := fun hc => by
      simp only [Scheduler.latch] at hc
      rcases hc with hc | hc | hc <;> simp [hc] at ended
      exact ended
    ok_iff := by
      rw [latch_status_isOk]
      simp only [Scheduler.latch]
      rcases ended with rfl | ⟨rfl, -⟩ | ⟨rfl, -⟩ <;> simp }

/-- Every move keeps the phase invariant. -/
theorem PhaseInv.move (h : s.PhaseInv) (hinv : s.Inv) {op : Op} {reply : Reply}
    (hm : Move s op reply s') : s'.PhaseInv := by
  cases hm with
  | refused => exact h
  | configured config settled free total capacity block fits =>
    exact
      { idle := fun _ => rfl
        block_pos := fun _ => by
          rw [Ne, ← UInt32.toNat_inj] at block
          exact Nat.pos_of_ne_zero block
        total_pos := fun _ => by
          rw [Ne, ← UInt64.toNat_inj] at total
          exact Nat.pos_of_ne_zero total
        lead_le := requiredLead_le config
        ready := fun _ => rfl
        running := fun hc => nomatch hc
        finalized := fun hc => nomatch hc
        cancelling := fun hc => nomatch hc
        settled := fun _ => rfl
        ok_iff := by simp [resetRun] }
  | issued op action begins settled live tickets token range =>
    exact { h with
      idle := fun hp => nomatch hp
      cancelling := fun _ => rfl
      settled := fun hc => by
        simp only [issue] at hc
        rcases live with hl | hl <;> simp [hl] at hc }
  | settled action status count ticket ended =>
    obtain ⟨hp, -⟩ := actionMatches_iff.mp ticket
    rcases ended with ho | ho
    · rw [if_pos ho]
      have hok : s.firstStatus.isOk = false := by
        by_contra hn
        exact (h.ok_iff.mp (by simpa using hn)).2.1 ho
      exact { h with
        idle := fun _ => rfl
        block_pos := fun _ => h.block_pos (by simp [ho])
        total_pos := fun _ => h.total_pos (by simp [ho])
        ready := fun hc => nomatch hc
        running := fun hc => nomatch hc
        finalized := fun hf => by
          have := h.finalized hf
          simp [ho] at this
        cancelling := fun hc => nomatch hc
        settled := fun _ => rfl
        ok_iff := by simp [settle, hok] }
    · rw [if_neg (by simp [ho])]
      exact { h with
        idle := fun _ => rfl
        cancelling := fun hc => by simp [ho] at hc
        settled := fun _ => rfl }
  | failedAction action status count reason ticket live notOk own =>
    obtain ⟨hp, -⟩ := actionMatches_iff.mp ticket
    have hsettled := fun hst => Bool.false_ne_true ((h.settled hst).symm.trans hp)
    have hs : s.settle.PhaseInv := { h with
      idle := fun _ => rfl
      cancelling := fun hc => absurd hc live.1
      settled := fun _ => rfl }
    refine hs.latch (fun hu => hsettled (.inl hu)) ?_ reason (.inl rfl)
    rw [Bool.eq_false_iff, Ne, isTerminal_iff]
    rintro (hc | hc | hc)
    · exact hsettled (.inr (.inl hc))
    · exact live.2 hc
    · exact hsettled (.inr (.inr hc))
  | advanced action status count ticket live ok moved =>
    obtain ⟨hp, rfl⟩ := actionMatches_iff.mp ticket
    rw [hinv.advance_eq hp]
    exact h.moved hp live
  | started ready lead queue =>
    exact { h with
      block_pos := fun _ => h.block_pos (by simp [ready])
      total_pos := fun _ => h.total_pos (by simp [ready])
      ready := fun hc => nomatch hc
      running := fun _ => rfl
      finalized := fun hf => by
        have := h.finalized hf
        simp [ready] at this
      cancelling := fun hc => nomatch hc
      settled := fun hc => by simp at hc
      ok_iff := by
        have := h.ok_iff.mpr (by simp [ready])
        simp [this] }
  | consumed frames started running pos block queued =>
    exact { h with ready := fun hc => by simp [running] at hc }
  | underrun frames reason started running pos block queued notOk =>
    refine h.latch (by simp [running]) ?_ reason (.inl rfl)
    simp [isTerminal, running]
  | failed given reason configured open_ notOk own =>
    exact h.latch configured open_ reason (.inl rfl)
  | cancelled reason configured open_ notOk =>
    refine h.latch configured open_ reason ?_
    cases hp : s.actionPending <;> simp
  | released terminal settled => exact { h with }

/-! ## Runs -/

/-- Holds of the first scheduler, is kept by every move: holds of every scheduler a run reaches. -/
theorem run_induct {P : Scheduler → Prop} (initial : P s)
    (move : ∀ {s s' op reply}, Move s op reply s' → P s → P s') (ops : List Op) :
    P (s.run ops) := by
  induction ops generalizing s with
  | nil => exact initial
  | cons op ops ih => exact ih (move (s.step_move op) initial)

theorem run_inv (ops : List Op) : (({} : Scheduler).run ops).Inv ∧
    (({} : Scheduler).run ops).PhaseInv :=
  run_induct (P := fun s => s.Inv ∧ s.PhaseInv) ⟨.initial, .initial⟩
    (fun hm h => ⟨h.1.move hm, h.2.move h.1 hm⟩) ops

/-- **Bounds.** In every state a run reaches the counters are in order and within their bounds, a
pending action has exactly the range they imply, and a completed playback has done all of it. -/
theorem run_bounded (ops : List Op) :
    let s := ({} : Scheduler).run ops
    let block := s.config.maxBlockFrames.toNat
    (s.consumedFrames ≤ s.readFrames ∧ s.readFrames ≤ s.committedFrames ∧
      s.committedFrames ≤ s.writtenFrames ∧ s.writtenFrames ≤ s.producedFrames ∧
      s.producedFrames ≤ s.config.totalFrames) ∧
    (s.producedFrames.toNat - s.writtenFrames.toNat ≤ block ∧
      s.writtenFrames.toNat - s.committedFrames.toNat ≤ block ∧
      s.readFrames.toNat - s.consumedFrames.toNat ≤ s.config.queueCapacityFrames.toNat) ∧
    (s.actionPending = true → s.InRange s.pendingAction) ∧
    (s.state = .completed →
      s.producedFrames = s.config.totalFrames ∧ s.writtenFrames = s.config.totalFrames ∧
      s.committedFrames = s.config.totalFrames ∧ s.readFrames = s.config.totalFrames ∧
      s.consumedFrames = s.config.totalFrames) := by
  intro s block
  have h : s.Inv := (run_inv ops).1
  have h1 := h.consumed_le
  have h2 := h.read_le
  have h3 := h.committed_le
  have h4 := h.written_le
  have h5 := h.produced_le
  have h6 := h.staged
  have h7 := h.hidden
  have h8 := h.queued
  refine ⟨⟨?_, ?_, ?_, ?_, ?_⟩, ⟨?_, ?_, ?_⟩, h.pending, fun hc => ?_⟩
  · exact UInt64.le_iff_toNat_le.mpr h1
  · exact UInt64.le_iff_toNat_le.mpr h2
  · exact UInt64.le_iff_toNat_le.mpr h3
  · exact UInt64.le_iff_toNat_le.mpr h4
  · exact UInt64.le_iff_toNat_le.mpr h5
  · exact Nat.sub_le_iff_le_add'.mpr h6
  · exact Nat.sub_le_iff_le_add'.mpr h7
  · exact Nat.sub_le_iff_le_add'.mpr h8
  · have hall : s.consumedFrames.toNat = s.config.totalFrames.toNat := h.completed hc
    simp only [← UInt64.toNat_inj]
    exact ⟨by omega, by omega, by omega, by omega, hall⟩

end Scheduler

end WaveformGenerator.FinitePlayback
