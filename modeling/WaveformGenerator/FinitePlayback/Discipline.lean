import WaveformGenerator.FinitePlayback.Invariant

/-!
# The scheduler's failure discipline

Tickets are issued once and settled once, the first failure stays until a reconfiguration, and
what is refused changes nothing.
-/

namespace WaveformGenerator.FinitePlayback

namespace Scheduler

variable {s s' : Scheduler} {op : Op} {reply : Reply}

/-! ## Tickets -/

/-- The ticket a reply issues. -/
def issuedBy : Reply → List UInt64
  | .issued action => [action.token]
  | .status _ => []

/-- The ticket an operation settles: a completion's, when it matches the pending action. -/
def settledBy (s : Scheduler) : Op → List UInt64
  | .complete action _ _ => if s.actionMatches action then [action.token] else []
  | _ => []

/-- The tickets a run issues, in order. -/
def issuedTokens (s : Scheduler) : List Op → List UInt64
  | [] => []
  | op :: ops => issuedBy (s.step op).1 ++ (s.step op).2.issuedTokens ops

/-- The tickets a run settles, in order. -/
def settledTokens (s : Scheduler) : List Op → List UInt64
  | [] => []
  | op :: ops => s.settledBy op ++ (s.step op).2.settledTokens ops

/-- The ticket outstanding. -/
def outstanding (s : Scheduler) : List UInt64 :=
  if s.actionPending then [s.pendingAction.token] else []

theorem outstanding_of_settled (h : s.actionPending = false) : s.outstanding = [] := by
  simp [outstanding, h]

theorem settledBy_of_refuses (h : s.refuses op) : s.settledBy op = [] := by
  cases op with
  | complete action status count =>
    have h : s.actionMatches action = false := h
    simp [settledBy, h]
  | _ => rfl

theorem settledBy_of_settled (h : s.actionPending = false) (op : Op) : s.settledBy op = [] := by
  cases op with
  | complete action status count => simp [settledBy, actionMatches, h]
  | _ => rfl

theorem settledBy_of_matches {action : Action} (h : s.actionMatches action = true)
    (status : Status) (count : UInt32) :
    s.settledBy (.complete action status count) = s.outstanding := by
  obtain ⟨hp, rfl⟩ := actionMatches_iff.mp h
  rw [settledBy, if_pos h, outstanding, if_pos hp]

@[simp] theorem moved_actionPending (s : Scheduler) (action : Action) :
    (s.moved action).actionPending = s.actionPending := by
  unfold moved
  split <;> rfl

/-- The ticket outstanding before a move and the one it issues are the one it settles and the one
outstanding after it. -/
theorem outstanding_move (hs : s.Inv) (hm : Move s op reply s') :
    s.outstanding ++ issuedBy reply = s.settledBy op ++ s'.outstanding := by
  cases hm with
  | refused op status refuses => simp [issuedBy, settledBy_of_refuses refuses]
  | configured config settled free total capacity block fits =>
    simp [outstanding, settled, issuedBy, settledBy, resetRun]
  | issued op action begins settled live tickets token range =>
    simp [outstanding, settled, settledBy_of_settled settled, issuedBy, issue]
  | settled action status count ticket ended =>
    rw [settledBy_of_matches ticket]
    rfl
  | failedAction action status count reason ticket live notOk own =>
    rw [settledBy_of_matches ticket]
    rfl
  | advanced action status count ticket live ok moved =>
    rw [settledBy_of_matches ticket]
    obtain ⟨hp, rfl⟩ := actionMatches_iff.mp ticket
    have hnone : (s.settle.moved s.pendingAction).outstanding = [] :=
      outstanding_of_settled (moved_actionPending ..)
    rw [hs.advance_eq hp, hnone]
    rfl
  | _ => exact List.append_nil _

/-- Every ticket issued is settled, in order, but the one outstanding. -/
theorem issuedTokens_eq (hs : s.Inv) (ops : List Op) :
    s.outstanding ++ s.issuedTokens ops = s.settledTokens ops ++ (s.run ops).outstanding := by
  induction ops generalizing s with
  | nil => simp [issuedTokens, settledTokens, run]
  | cons op ops ih =>
    have hm := s.step_move op
    rw [issuedTokens, settledTokens, ← List.append_assoc, outstanding_move hs hm,
      List.append_assoc, ih (hs.move hm), List.append_assoc]
    rfl

/-- A move issues the next ticket, or none. -/
theorem nextToken_move (hm : Move s op reply s') :
    (issuedBy reply = [] ∧ s'.nextToken = s.nextToken) ∨
      (issuedBy reply = [s.nextToken] ∧ s'.nextToken.toNat = s.nextToken.toNat + 1) := by
  cases hm with
  | issued op action begins settled live tickets token range =>
    refine .inr ⟨by rw [issuedBy, token], ?_⟩
    have := s.nextToken.toNat_lt
    rw [Ne, ← UInt64.toNat_inj] at tickets
    simp only [issue, UInt64.toNat_add]
    simp at tickets ⊢
    omega
  | advanced action status count ticket live ok moved =>
    refine .inl ⟨rfl, ?_⟩
    unfold advance
    split <;> first | rfl | (split <;> rfl)
  | _ => exact .inl ⟨rfl, rfl⟩

theorem nextToken_le_of_mem (ops : List Op) {token : UInt64} (h : token ∈ s.issuedTokens ops) :
    s.nextToken ≤ token := by
  induction ops generalizing s with
  | nil => nomatch h
  | cons op ops ih =>
    rw [UInt64.le_iff_toNat_le]
    rcases List.mem_append.mp h with h | h
    · rcases nextToken_move (s.step_move op) with ⟨hi, -⟩ | ⟨hi, -⟩ <;> rw [hi] at h
      · nomatch h
      · rw [List.mem_singleton.mp h]
    · have hnext := UInt64.le_iff_toNat_le.mp (ih h)
      rcases nextToken_move (s.step_move op) with ⟨-, hn⟩ | ⟨-, hn⟩
      · rwa [hn] at hnext
      · omega

/-- No ticket is issued twice. -/
theorem issuedTokens_nodup (s : Scheduler) (ops : List Op) : (s.issuedTokens ops).Nodup := by
  induction ops generalizing s with
  | nil => exact .nil
  | cons op ops ih =>
    rw [issuedTokens]
    rcases nextToken_move (s.step_move op) with ⟨hi, -⟩ | ⟨hi, hn⟩ <;> rw [hi]
    · exact ih _
    · refine List.nodup_cons.mpr ⟨fun hm => ?_, ih _⟩
      have := UInt64.le_iff_toNat_le.mp (nextToken_le_of_mem ops hm)
      omega

/-! ## Failures -/

/-- A mismatched completion is refused. -/
theorem complete_mismatch {action : Action}
    (h : ¬ (s.actionPending = true ∧ action = s.pendingAction)) (status : Status)
    (count : UInt32) :
    s.step (.complete action status count) =
      (.status (invalidArgument "finite playback action ticket mismatch"), s) := by
  have hm : s.actionMatches action = false := by
    rw [Bool.eq_false_iff, Ne, actionMatches_iff]
    exact h
  simp [step, complete, hm]

/-- The first failure stays, whatever is not a reconfiguration. -/
theorem firstStatus_move (hs : s.Inv) (hm : Move s op reply s')
    (failed : s.firstStatus.isOk = false)
    (kept : ∀ config, op = .configure config → reply ≠ .status .success) :
    s'.firstStatus = s.firstStatus := by
  cases hm with
  | configured config => exact absurd rfl (kept config rfl)
  | advanced action status count ticket live ok moved =>
    obtain ⟨hp, rfl⟩ := actionMatches_iff.mp ticket
    rw [hs.advance_eq hp]
    unfold Scheduler.moved
    split <;> rfl
  | failedAction | underrun | failed | cancelled => simp [latch, settle, failed]
  | _ => rfl

/-- Whether a run reconfigures. -/
def reconfigures (s : Scheduler) : List Op → Prop
  | [] => False
  | op :: ops =>
    (∃ config, op = .configure config ∧ (s.step op).1 = .status .success) ∨
      (s.step op).2.reconfigures ops

theorem firstStatus_run (hs : s.Inv) (failed : s.firstStatus.isOk = false) {ops : List Op}
    (kept : ¬ s.reconfigures ops) : (s.run ops).firstStatus = s.firstStatus := by
  induction ops generalizing s with
  | nil => rfl
  | cons op ops ih =>
    have hm := s.step_move op
    obtain ⟨hop, hops⟩ := not_or.mp kept
    have hfirst := firstStatus_move hs hm failed fun config h hr => hop ⟨config, h, hr⟩
    exact (ih (hs.move hm) (hfirst ▸ failed) hops).trans hfirst

/-- The failure a live run's first failing operation latches. -/
theorem firstStatus_of_failure (hs : s.PhaseInv) (ok : s.firstStatus.isOk = true) :
    (∀ reason, reason.isOk = false → s.state ≠ .unconfigured → s.isTerminal = false →
      (s.step (.fail reason)).2.firstStatus = reason) ∧
    (s.state ≠ .unconfigured → s.isTerminal = false →
      (s.step .cancel).2.firstStatus = unavailable "finite playback cancelled") ∧
    ∀ status count, s.actionPending = true → status.isOk = false →
      (s.step (.complete s.pendingAction status count)).2.firstStatus = status := by
  refine ⟨fun reason hr hu ht => ?_, fun hu ht => ?_, fun status count hp hst => ?_⟩
  · simp [step, fail, ht, hu, hr, latch, ok]
  · have hr : (unavailable "finite playback cancelled").isOk = false := rfl
    simp [step, cancel, ht, hu, latch, ok, hr]
  · have hm : s.actionMatches s.pendingAction = true := actionMatches_iff.mpr ⟨hp, rfl⟩
    obtain ⟨hf, hc, -⟩ := hs.ok_iff.mp ok
    have hlive : ¬ (s.settle.state = .cancelling ∨ s.settle.state = .failed) := by
      simp [settle, hf, hc]
    simp only [step, complete, hm, Bool.not_true, Bool.false_eq_true, if_false, if_neg hlive, hst,
      Bool.not_false, if_true, latch]
    simp [settle, ok]

/-- Cancellation and failure leave the pending action to its owner. -/
theorem pending_move (hm : Move s op reply s') (h : op = .cancel ∨ ∃ reason, op = .fail reason) :
    s'.actionPending = s.actionPending ∧ s'.pendingAction = s.pendingAction := by
  cases hm with
  | refused | failed | cancelled => exact ⟨rfl, rfl⟩
  | issued op action begins =>
    rcases h with rfl | ⟨reason, rfl⟩ <;> cases begins
  | _ => simp at h

/-- A completion after cancellation or failure settles the action and nothing else. -/
theorem settle_after_failure (pending : s.actionPending = true)
    (ended : s.state = .cancelling ∨ s.state = .failed) (status : Status) (count : UInt32) :
    s.step (.complete s.pendingAction status count) =
      (.status s.firstStatus,
        { s with
          actionPending := false
          pendingAction := {}
          state := if s.state = .cancelling then .cancelled else .failed }) := by
  have hm : s.actionMatches s.pendingAction = true := actionMatches_iff.mpr ⟨pending, rfl⟩
  have hended : s.settle.state = .cancelling ∨ s.settle.state = .failed := ended
  simp only [step, complete, hm, Bool.not_true, Bool.false_eq_true, if_false, if_pos hended]
  rcases ended with ho | ho <;> simp [settle, ho]

/-- What is accepted as a reconfiguration. -/
theorem configure_accepted {config : Config}
    (h : (s.step (.configure config)).1 = .status .success) :
    s.actionPending = false ∧
      (s.state = .unconfigured ∨ s.isTerminal = true ∧ s.ownerReleased = true) := by
  have hm := s.step_move (.configure config)
  generalize hs' : (s.step (.configure config)).2 = s' at hm
  rw [h] at hm
  cases hm with
  | refused op status refuses =>
    have hstatus : (s.configure config).1 = .success := Reply.status.inj h
    have : (s.configure config).1.isOk = false := refuses
    rw [hstatus] at this
    cases this
  | configured config settled free => exact ⟨settled, free⟩

/-- Once configured, always configured; and only the owner releases. -/
theorem released_move (hm : Move s op reply s') :
    (s.state ≠ .unconfigured → s'.state ≠ .unconfigured) ∧
      (s'.ownerReleased = true → s.ownerReleased = true ∨ op = .release) := by
  cases hm with
  | refused => exact ⟨id, .inl⟩
  | configured => exact ⟨fun _ => by simp, fun h => nomatch h⟩
  | issued => exact ⟨id, .inl⟩
  | settled action status count ticket ended =>
    refine ⟨fun hu => ?_, .inl⟩
    simp only
    split
    · simp
    · exact hu
  | advanced action status count ticket live ok moved =>
    unfold advance
    split
    all_goals first
      | exact ⟨fun _ => by simp, .inl⟩
      | split <;> exact ⟨fun hu => by first | exact hu | simp [latch], .inl⟩
  | cancelled =>
    refine ⟨fun _ => ?_, .inl⟩
    simp only [latch]
    split <;> simp
  | released => exact ⟨id, fun _ => .inr rfl⟩
  | started => exact ⟨fun _ => by simp, .inl⟩
  | consumed => exact ⟨id, .inl⟩
  | failedAction | underrun | failed => exact ⟨fun _ => by simp [latch], .inl⟩

/-- A refused operation leaves the whole scheduler as it was. -/
theorem eq_of_refuses {op : Op} (h : s.refuses op) : (s.step op).2 = s := by
  have hm := s.step_move op
  generalize hreply : (s.step op).1 = reply at hm
  generalize (s.step op).2 = s' at hm
  cases hm with
  | refused => rfl
  | configured config =>
    have h : (s.configure config).1.isOk = false := h
    rw [Reply.status.inj hreply] at h
    cases h
  | issued op action begins =>
    cases op with
    | nextAction | beginProduce | beginWrite | beginVisibilityBarrier | beginRead
    | beginFinalize =>
      simp only [step, Reply.ofResult] at hreply
      simp only [refuses] at h
      split at hreply <;> rename_i hr
      · rw [hr] at h; cases h
      · cases hreply
    | _ => cases begins
  | settled action status count ticket | failedAction action status count _ ticket
  | advanced action status count ticket =>
    have h : s.actionMatches action = false := h
    simp [ticket] at h
  | started =>
    have h : s.start.1.isOk = false := h
    rw [Reply.status.inj hreply] at h
    cases h
  | consumed frames started running pos block | underrun frames _ started running pos block =>
    rcases h with h | h | h | h
    · simp [started] at h
    · exact absurd running h
    · exact absurd h pos
    · exact absurd block (UInt32.not_le.mpr h)
  | failed given reason configured open_ | cancelled reason configured open_ =>
    rcases h with h | h
    · simp [open_] at h
    · exact absurd h configured
  | released =>
    have h : s.release.1.isOk = false := h
    rw [Reply.status.inj hreply] at h
    cases h

/-- An operation that is not refused is carried out, or ends the run as a failure. -/
theorem outcome_of_not_refuses (hs : s.PhaseInv) {op : Op} (h : ¬ s.refuses op) :
    (∃ action, (s.step op).1 = .issued action) ∨ (s.step op).1 = .status .success ∨
      (s.step op).2.firstStatus.isOk = false := by
  have hm := s.step_move op
  generalize (s.step op).1 = reply at hm
  generalize (s.step op).2 = s' at hm
  cases hm with
  | refused op status refuses => exact absurd refuses h
  | issued op action => exact .inl ⟨action, rfl⟩
  | settled action status count ticket ended =>
    refine .inr (.inr ?_)
    rw [Bool.eq_false_iff]
    intro hok
    obtain ⟨hf, hc, -⟩ := hs.ok_iff.mp hok
    exact ended.elim hc hf
  | failedAction | underrun | failed | cancelled => exact .inr (.inr (latch_status_isOk _))
  | _ => exact .inr (.inl rfl)

/-! ## The discipline of a run -/

/-- Until its completion comes, the pending action stays. -/
theorem pendingAction_move (hm : Move s op reply s') (pending : s.actionPending = true)
    (open_ : s.settledBy op = []) :
    s'.actionPending = true ∧ s'.pendingAction = s.pendingAction := by
  cases hm with
  | configured config settled => simp [pending] at settled
  | issued op action begins settled => simp [pending] at settled
  | settled action status count ticket | failedAction action status count _ ticket
  | advanced action status count ticket => simp [settledBy, ticket] at open_
  | released terminal settled => simp [pending] at settled
  | _ => exact ⟨pending, rfl⟩

theorem pendingAction_run (pending : s.actionPending = true) {ops : List Op}
    (open_ : s.settledTokens ops = []) :
    (s.run ops).actionPending = true ∧ (s.run ops).pendingAction = s.pendingAction := by
  induction ops generalizing s with
  | nil => exact ⟨pending, rfl⟩
  | cons op ops ih =>
    obtain ⟨hop, hops⟩ := List.append_eq_nil_iff.mp open_
    obtain ⟨hp, hsame⟩ := pendingAction_move (s.step_move op) pending hop
    obtain ⟨hp', hsame'⟩ := ih hp hops
    exact ⟨hp', hsame'.trans hsame⟩

/-- The ticket outstanding was issued: the next one is past it. -/
theorem nextToken_pending (hs : s.Inv) (hm : Move s op reply s')
    (h : ∀ token ∈ s.outstanding, token < s.nextToken) :
    ∀ token ∈ s'.outstanding, token < s'.nextToken := by
  intro token ht
  have hmem : token ∈ s.outstanding ++ issuedBy reply :=
    outstanding_move hs hm ▸ List.mem_append_right _ ht
  rw [UInt64.lt_iff_toNat_lt]
  rcases nextToken_move hm with ⟨hi, hn⟩ | ⟨hi, hn⟩ <;> rw [hi] at hmem
  · rw [List.append_nil] at hmem
    rw [hn]
    exact UInt64.lt_iff_toNat_lt.mp (h token hmem)
  · rw [hn]
    rcases List.mem_append.mp hmem with hmem | hmem
    · have := UInt64.lt_iff_toNat_lt.mp (h token hmem)
      omega
    · rw [List.mem_singleton.mp hmem]
      omega

/-- A pending action is settled by one completion, or is still pending. -/
theorem settledTokens_count (hs : s.Inv) (fresh : ∀ token ∈ s.outstanding, token < s.nextToken)
    (pending : s.actionPending = true) (ops : List Op) :
    (s.settledTokens ops = [] ∧ (s.run ops).actionPending = true ∧
      (s.run ops).pendingAction = s.pendingAction) ∨
      (s.settledTokens ops).count s.pendingAction.token = 1 := by
  have hledger := issuedTokens_eq hs ops
  have hout : s.outstanding = [s.pendingAction.token] := by rw [outstanding, if_pos pending]
  rw [hout] at hledger fresh
  cases hsettled : s.settledTokens ops with
  | nil => exact .inl ⟨rfl, pendingAction_run pending hsettled⟩
  | cons token later =>
    refine .inr ?_
    simp only [hsettled, List.cons_append, List.nil_append] at hledger
    obtain ⟨hhead, hlater⟩ := List.cons.inj hledger
    have hnone : later.count s.pendingAction.token = 0 := by
      rw [List.count_eq_zero]
      intro hm
      have hissued := nextToken_le_of_mem ops (hlater ▸ List.mem_append_left _ hm)
      have := fresh _ (List.mem_singleton.mpr rfl)
      exact absurd hissued (UInt64.not_le.mpr this)
    rw [← hhead, List.count_cons_self, hnone]

/-- The failure discipline of the scheduler a run reaches. -/
structure Disciplined (ops : List Op) (s : Scheduler) : Prop where
  /-- Tokens of issued actions are never reused. -/
  tokens : (({} : Scheduler).issuedTokens ops).Nodup
  /-- Every action issued is settled once, or outstanding. -/
  ledger : ({} : Scheduler).issuedTokens ops =
    ({} : Scheduler).settledTokens ops ++ s.outstanding
  mismatch : ∀ action status count, ¬ (s.actionPending = true ∧ action = s.pendingAction) →
    s.step (.complete action status count) =
      (.status (invalidArgument "finite playback action ticket mismatch"), s)
  /-- The first failure is latched as it was given. -/
  first : s.firstStatus.isOk = true →
    (∀ reason, reason.isOk = false → s.state ≠ .unconfigured → s.isTerminal = false →
      (s.step (.fail reason)).2.firstStatus = reason) ∧
    (s.state ≠ .unconfigured → s.isTerminal = false →
      (s.step .cancel).2.firstStatus = unavailable "finite playback cancelled") ∧
    ∀ status count, s.actionPending = true → status.isOk = false →
      (s.step (.complete s.pendingAction status count)).2.firstStatus = status
  /-- It stays until a reconfiguration. -/
  latched : s.firstStatus.isOk = false → ∀ more, ¬ s.reconfigures more →
    (s.run more).firstStatus = s.firstStatus
  /-- Cancellation and failure leave a pending action outstanding, for one completion. -/
  outstanding : s.actionPending = true → ∀ op, (op = .cancel ∨ ∃ reason, op = .fail reason) →
    (s.step op).2.actionPending = true ∧ (s.step op).2.pendingAction = s.pendingAction ∧
    ∀ more,
      ((s.step op).2.settledTokens more = [] ∧ ((s.step op).2.run more).actionPending = true ∧
        ((s.step op).2.run more).pendingAction = s.pendingAction) ∨
      ((s.step op).2.settledTokens more).count s.pendingAction.token = 1
  /-- That completion changes nothing else. -/
  settled : s.actionPending = true → s.state = .cancelling ∨ s.state = .failed →
    ∀ status count, s.step (.complete s.pendingAction status count) =
      (.status s.firstStatus,
        { s with
          actionPending := false
          pendingAction := {}
          state := if s.state = .cancelling then .cancelled else .failed })
  configured : ∀ config, (s.step (.configure config)).1 = .status .success →
    s.actionPending = false ∧
      (s.state = .unconfigured ∨ s.isTerminal = true ∧ s.ownerReleased = true)
  /-- Only a scheduler never configured is unconfigured, and only its owner releases it. -/
  again : s.state ≠ .unconfigured → ∀ more, (s.run more).state ≠ .unconfigured
  released : ∀ op, (s.step op).2.ownerReleased = true → s.ownerReleased = true ∨ op = .release
  refused : ∀ op, s.refuses op → (s.step op).2 = s
  carriedOut : ∀ op, ¬ s.refuses op → (∃ action, (s.step op).1 = .issued action) ∨
    (s.step op).1 = .status .success ∨ (s.step op).2.firstStatus.isOk = false

/-- **Failure discipline.** It holds of the scheduler after any operations. -/
theorem run_disciplined (ops : List Op) : Disciplined ops (({} : Scheduler).run ops) := by
  obtain ⟨hinv, hphase⟩ := run_inv ops
  have hfresh : ∀ token ∈ (({} : Scheduler).run ops).outstanding,
      token < (({} : Scheduler).run ops).nextToken :=
    (run_induct (P := fun s => s.Inv ∧ ∀ token ∈ s.outstanding, token < s.nextToken)
      ⟨.initial, fun _ h => nomatch h⟩
      (fun hm h => ⟨h.1.move hm, nextToken_pending h.1 hm h.2⟩) ops).2
  exact
    { tokens := issuedTokens_nodup _ ops
      ledger := issuedTokens_eq .initial ops
      mismatch := fun _ status count h => complete_mismatch h status count
      first := firstStatus_of_failure hphase
      latched := fun hf _ => firstStatus_run hinv hf
      outstanding := fun hp op hop => by
        have hm := step_move (({} : Scheduler).run ops) op
        obtain ⟨hpending, hsame⟩ := pending_move hm hop
        have hp' := hpending.trans hp
        refine ⟨hp', hsame, fun more => ?_⟩
        rw [← hsame]
        exact settledTokens_count (hinv.move hm) (nextToken_pending hinv hm hfresh) hp' more
      settled := fun hp ho => settle_after_failure hp ho
      configured := fun _ => configure_accepted
      again := fun hu =>
        run_induct (P := fun s => s.state ≠ .unconfigured) hu fun hm => (released_move hm).1
      released := fun op => (released_move (step_move _ op)).2
      refused := fun _ => eq_of_refuses
      carriedOut := fun _ => outcome_of_not_refuses hphase }

end Scheduler

end WaveformGenerator.FinitePlayback
