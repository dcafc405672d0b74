import WaveformGenerator.FinitePlayback.Scheduler

/-!
# What an operation can do

`Move` lists everything an operation of the scheduler can make of it, with the guard each outcome
needs; `Scheduler.step_move` is the one place where the operations are taken apart. What holds
over runs follows from the list.
-/

namespace WaveformGenerator.FinitePlayback

namespace Scheduler

/-- The phases in which actions are issued and their completions counted. -/
def isLive (s : Scheduler) : Prop := s.state = .ready ∨ s.state = .running

instance (s : Scheduler) : Decidable s.isLive := inferInstanceAs (Decidable (_ ∨ _))

/-- The guard of each kind of action on its range. -/
def CanBegin (s : Scheduler) (kind : ActionKind) (first : UInt64) (frames : UInt32) : Prop :=
  match kind with
  | .produce =>
    first = s.producedFrames ∧ frames ≠ 0 ∧ frames ≤ s.config.maxBlockFrames ∧
      frames.toUInt64 ≤ s.config.totalFrames - s.producedFrames ∧
      frames.toUInt64 ≤ s.config.maxBlockFrames.toUInt64 - (s.producedFrames - s.writtenFrames)
  | .write =>
    first = s.writtenFrames ∧ s.writtenFrames = s.committedFrames ∧ frames ≠ 0 ∧
      frames ≤ s.config.maxBlockFrames ∧ frames.toUInt64 ≤ s.producedFrames - s.writtenFrames
  | .visibilityBarrier =>
    first = s.committedFrames ∧ s.writtenFrames ≠ s.committedFrames ∧
      s.writtenFrames - s.committedFrames ≤ s.config.maxBlockFrames.toUInt64 ∧
      frames = (s.writtenFrames - s.committedFrames).toUInt32
  | .read =>
    first = s.readFrames ∧ frames ≠ 0 ∧ frames ≤ s.config.maxBlockFrames ∧
      frames.toUInt64 ≤ s.committedFrames - s.readFrames ∧
      frames.toUInt64 ≤
        s.config.queueCapacityFrames.toUInt64 - (s.readFrames - s.consumedFrames)
  | .finalize =>
    first = s.config.totalFrames ∧ frames = 0 ∧ s.state = .running ∧
      s.producedFrames = s.config.totalFrames ∧ s.writtenFrames = s.config.totalFrames ∧
      s.committedFrames = s.config.totalFrames ∧ s.readFrames = s.config.totalFrames ∧
      s.consumedFrames = s.config.totalFrames ∧ s.artifactFinalized = false

def issue (s : Scheduler) (action : Action) : Scheduler :=
  { s with nextToken := s.nextToken + 1, pendingAction := action, actionPending := true }

/-- Whether the operation's guard refuses it. -/
def refuses (s : Scheduler) : Op → Prop
  | .configure config => (s.configure config).1.isOk = false
  | .beginProduce frames => (s.beginProduce frames).1.isOk = false
  | .beginWrite frames => (s.beginWrite frames).1.isOk = false
  | .beginVisibilityBarrier => s.beginVisibilityBarrier.1.isOk = false
  | .beginRead frames => (s.beginRead frames).1.isOk = false
  | .beginFinalize => s.beginFinalize.1.isOk = false
  | .nextAction => s.nextAction.1.isOk = false
  | .complete action _ _ => s.actionMatches action = false
  | .start => s.start.1.isOk = false
  | .consume frames =>
    s.started = false ∨ s.state ≠ .running ∨ frames = 0 ∨ frames > s.config.maxBlockFrames
  | .fail _ | .cancel => s.isTerminal = true ∨ s.state = .unconfigured
  | .release => s.release.1.isOk = false

end Scheduler

open Scheduler

/-- The operations that may issue an action. -/
def Op.begins : Op → Bool
  | .beginProduce _ | .beginWrite _ | .beginVisibilityBarrier | .beginRead _ | .beginFinalize
  | .nextAction => true
  | _ => false

/-- What an operation makes of a scheduler. -/
inductive Move (s : Scheduler) : Op → Reply → Scheduler → Prop
  | refused (op : Op) (reply : Status) (refuses : s.refuses op) : Move s op (.status reply) s
  | configured (config : Config) (settled : s.actionPending = false)
      (free : s.state = .unconfigured ∨ s.isTerminal = true ∧ s.ownerReleased = true)
      (total : config.totalFrames ≠ 0) (capacity : config.queueCapacityFrames ≠ 0)
      (block : config.maxBlockFrames ≠ 0)
      (fits : config.maxBlockFrames ≤ config.queueCapacityFrames) :
    Move s (.configure config) (.status .success)
      { s.resetRun config (requiredLead config) with state := .ready }
  | issued (op : Op) (action : Action) (begins : op.begins = true)
      (settled : s.actionPending = false) (live : s.isLive)
      (tickets : s.nextToken ≠ 0xFFFFFFFFFFFFFFFF) (token : action.token = s.nextToken)
      (range : s.CanBegin action.kind action.firstFrame action.frames) :
    Move s op (.issued action) (s.issue action)
  /-- A completion after cancellation or failure: it only settles the action. -/
  | settled (action : Action) (status : Status) (count : UInt32)
      (ticket : s.actionMatches action = true)
      (ended : s.state = .cancelling ∨ s.state = .failed) :
    Move s (.complete action status count) (.status s.firstStatus)
      { s.settle with state := if s.state = .cancelling then .cancelled else s.state }
  /-- A completion that ends the run: its own failure, a short count, or a cursor that moved. -/
  | failedAction (action : Action) (status : Status) (count : UInt32) (reason : Status)
      (ticket : s.actionMatches action = true) (live : s.state ≠ .cancelling ∧ s.state ≠ .failed)
      (notOk : reason.isOk = false) (own : status.isOk = false → reason = status) :
    Move s (.complete action status count) (.status (s.settle.latch reason .failed).1)
      (s.settle.latch reason .failed).2
  | advanced (action : Action) (status : Status) (count : UInt32)
      (ticket : s.actionMatches action = true) (live : s.state ≠ .cancelling ∧ s.state ≠ .failed)
      (ok : status.isOk = true) (moved : (s.settle.advance action).1 = .success) :
    Move s (.complete action status count) (.status .success) (s.settle.advance action).2
  | started (ready : s.state = .ready)
      (lead : s.requiredLeadFrames ≤ s.committedFrames)
      (queue : s.prefill ≤ s.readFrames - s.consumedFrames) :
    Move s .start (.status .success) { s with started := true, state := .running }
  | consumed (frames : UInt32) (started : s.started = true) (running : s.state = .running)
      (pos : frames ≠ 0) (block : frames ≤ s.config.maxBlockFrames)
      (queued : frames.toUInt64 ≤ s.readFrames - s.consumedFrames) :
    Move s (.consume frames) (.status .success)
      { s with consumedFrames := s.consumedFrames + frames.toUInt64 }
  | underrun (frames : UInt32) (reason : Status) (started : s.started = true)
      (running : s.state = .running) (pos : frames ≠ 0)
      (block : frames ≤ s.config.maxBlockFrames)
      (queued : s.readFrames - s.consumedFrames < frames.toUInt64)
      (notOk : reason.isOk = false) :
    Move s (.consume frames) (.status (s.latch reason .failed).1) (s.latch reason .failed).2
  | failed (given reason : Status) (configured : s.state ≠ .unconfigured)
      (open_ : s.isTerminal = false) (notOk : reason.isOk = false)
      (own : given.isOk = false → reason = given) :
    Move s (.fail given) (.status (s.latch reason .failed).1) (s.latch reason .failed).2
  | cancelled (reason : Status) (configured : s.state ≠ .unconfigured)
      (open_ : s.isTerminal = false) (notOk : reason.isOk = false) :
    Move s .cancel
      (.status (s.latch reason (if s.actionPending then .cancelling else .cancelled)).1)
      (s.latch reason (if s.actionPending then .cancelling else .cancelled)).2
  | released (terminal : s.isTerminal = true) (settled : s.actionPending = false) :
    Move s .release (.status .success) { s with ownerReleased := true }

namespace Scheduler

variable {s : Scheduler}

/-! ## The operations, taken apart -/

theorem begin_cases (kind : ActionKind) (first : UInt64) (frames : UInt32) :
    (∃ refusal, s.begin kind first frames = (.error refusal, s)) ∨
      ∃ action, s.begin kind first frames = (.ok action, s.issue action) ∧
        s.actionPending = false ∧ s.nextToken ≠ 0xFFFFFFFFFFFFFFFF ∧
        action = ⟨s.nextToken, first, frames, kind⟩ := by
  unfold begin
  split
  · exact .inl ⟨_, rfl⟩
  · rename_i hp
    split
    · exact .inl ⟨_, rfl⟩
    · rename_i ht
      exact .inr ⟨_, rfl, by simpa using hp, ht, rfl⟩

/-- An operation that may issue an action: refused and nothing changed, or the next ticket. -/
structure Issues (s : Scheduler) (result : Result Action × Scheduler) (action : Action) : Prop where
  result : result = (.ok action, s.issue action)
  settled : s.actionPending = false
  live : s.isLive
  tickets : s.nextToken ≠ 0xFFFFFFFFFFFFFFFF
  token : action.token = s.nextToken
  range : s.CanBegin action.kind action.firstFrame action.frames

/-- The two outcomes of an operation that may issue an action. -/
def Offers (s : Scheduler) (result : Result Action × Scheduler) : Prop :=
  (∃ refusal, result = (.error refusal, s)) ∨ ∃ action, s.Issues result action

theorem Offers.refused (s : Scheduler) (refusal : Status) : s.Offers (.error refusal, s) :=
  .inl ⟨refusal, rfl⟩

theorem Offers.begin {kind : ActionKind} {first : UInt64} {frames : UInt32} (live : s.isLive)
    (range : s.CanBegin kind first frames) : s.Offers (s.begin kind first frames) := by
  rcases s.begin_cases kind first frames with ⟨refusal, h⟩ | ⟨action, h, hp, ht, rfl⟩
  · exact .inl ⟨refusal, h⟩
  · exact .inr ⟨_, h, hp, live, ht, rfl, range⟩

theorem isLive_of_not (h : ¬ (s.state ≠ .ready ∧ s.state ≠ .running)) : s.isLive := by
  unfold isLive
  by_contra hn
  exact h (not_or.mp hn)

theorem beginProduce_offers (frames : UInt32) : s.Offers (s.beginProduce frames) := by
  unfold beginProduce
  split
  · exact .refused ..
  · rename_i hl
    split
    · exact .refused ..
    · rename_i hr
      simp only [not_or, UInt32.not_lt, UInt64.not_lt, gt_iff_lt] at hr
      dsimp only
      split
      · exact .refused ..
      · rename_i hs
        exact .begin (isLive_of_not hl) ⟨rfl, hr.1, hr.2.1, hr.2.2, UInt64.not_lt.mp hs⟩

theorem beginWrite_offers (frames : UInt32) : s.Offers (s.beginWrite frames) := by
  unfold beginWrite
  split
  · exact .refused ..
  · rename_i hl
    split
    · exact .refused ..
    · rename_i hr
      simp only [not_or, ne_eq, not_not, UInt32.not_lt, UInt64.not_lt, gt_iff_lt] at hr
      exact .begin (isLive_of_not hl) ⟨rfl, hr⟩

theorem beginVisibilityBarrier_offers : s.Offers s.beginVisibilityBarrier := by
  unfold beginVisibilityBarrier
  split
  · exact .refused ..
  · rename_i hl
    rw [not_or] at hl
    dsimp only
    split
    · exact .refused ..
    · rename_i hs
      exact .begin (isLive_of_not hl.1) ⟨rfl, hl.2, UInt64.not_lt.mp hs, rfl⟩

theorem beginRead_offers (frames : UInt32) : s.Offers (s.beginRead frames) := by
  unfold beginRead
  split
  · exact .refused ..
  · rename_i hl
    split
    · exact .refused ..
    · rename_i hr
      simp only [not_or, UInt32.not_lt, UInt64.not_lt, gt_iff_lt] at hr
      dsimp only
      split
      · exact .refused ..
      · rename_i hs
        exact .begin (isLive_of_not hl) ⟨rfl, hr.1, hr.2.1, hr.2.2, UInt64.not_lt.mp hs⟩

theorem beginFinalize_offers : s.Offers s.beginFinalize := by
  unfold beginFinalize
  dsimp only
  split
  · exact .refused ..
  · rename_i h
    simp only [not_or, ne_eq, not_not, Bool.not_eq_true] at h
    exact .begin (.inr h.1) ⟨rfl, rfl, h.1, h.2⟩

theorem nextAction_offers : s.Offers s.nextAction := by
  unfold nextAction nextReady nextRunning
  dsimp only
  repeat' split
  all_goals first
    | exact .refused ..
    | exact beginVisibilityBarrier_offers
    | exact beginWrite_offers _
    | exact beginProduce_offers _
    | exact beginRead_offers _
    | exact beginFinalize_offers

/-- The operations that may issue an action, as moves. -/
theorem Offers.move {result : Result Action × Scheduler} (h : s.Offers result) (op : Op)
    (begins : op.begins = true) (refuses : result.1.isOk = false → s.refuses op) :
    Move s op (.ofResult result.1) result.2 := by
  rcases h with ⟨refusal, rfl⟩ | ⟨action, ⟨rfl, hp, hl, ht, htok, hr⟩⟩
  · exact .refused op refusal (refuses rfl)
  · exact .issued op action begins hp hl ht htok hr

theorem configure_move (config : Config) :
    Move s (.configure config) (.status (s.configure config).1) (s.configure config).2 := by
  have href : (s.configure config).1.isOk = false → s.refuses (.configure config) := id
  revert href
  unfold configure
  dsimp only
  split
  · exact fun href => .refused _ _ (href rfl)
  · rename_i hfree
    split
    · exact fun href => .refused _ _ (href rfl)
    · rename_i hvalid
      intro _
      simp only [not_or, Bool.not_eq_true, not_and, Bool.not_eq_eq_eq_not, UInt32.not_lt,
        gt_iff_lt] at hfree hvalid
      refine .configured config hfree.1 ?_ hvalid.1 hvalid.2.2.1 hvalid.2.2.2.1 hvalid.2.2.2.2
      by_cases hu : s.state = .unconfigured
      · exact .inl hu
      · exact .inr (by simpa using hfree.2 hu)

theorem isOk_latch (reason : Status) (state : State) :
    (s.latch reason state).1.isOk = false := by
  unfold latch
  dsimp only
  split
  · split
    · rfl
    · simp_all
  · simp_all

/-- An action that finds its cursor moved fails the run; else it has all it was issued for. -/
theorem advance_cases (action : Action) :
    (s.advance action).1 = .success ∨
      ∃ reason, s.advance action = s.latch reason .failed ∧ reason.isOk = false := by
  unfold advance
  cases action.kind with
  | finalize => exact .inl rfl
  | _ =>
    dsimp only
    split
    · exact .inr ⟨_, rfl, rfl⟩
    · exact .inl rfl

theorem complete_move (action : Action) (status : Status) (count : UInt32) :
    Move s (.complete action status count) (.status (s.complete action status count).1)
      (s.complete action status count).2 := by
  unfold complete
  split
  · rename_i hm
    exact .refused _ _ (by simpa [refuses] using hm)
  · rename_i hm
    have hm : s.actionMatches action = true := by simpa using hm
    dsimp only
    split
    · rename_i hended
      exact .settled action status count hm hended
    · rename_i hlive
      have hlive : s.state ≠ .cancelling ∧ s.state ≠ .failed := not_or.mp hlive
      split
      · rename_i hok
        exact .failedAction action status count status hm hlive (by simpa using hok) fun _ => rfl
      · rename_i hok
        have hok : status.isOk = true := by simpa using hok
        have hown : ∀ reason : Status, status.isOk = false → reason = status := fun _ h => by
          simp [hok] at h
        split
        · rename_i reason hcount
          refine .failedAction action status count reason hm hlive ?_ (hown reason)
          unfold wrongCount at hcount
          repeat' split at hcount
          all_goals cases hcount <;> rfl
        · rcases s.settle.advance_cases action with hmoved | ⟨reason, hfail, hnot⟩
          · have := Move.advanced action status count hm hlive hok hmoved
            rwa [← hmoved] at this
          · rw [hfail]
            exact .failedAction action status count reason hm hlive hnot (hown reason)

theorem start_move : Move s .start (.status s.start.1) s.start.2 := by
  have href : s.start.1.isOk = false → s.refuses .start := id
  revert href
  unfold start
  split
  · exact fun href => .refused _ _ (href rfl)
  · rename_i hr
    split
    · exact fun href => .refused _ _ (href rfl)
    · rename_i h
      simp only [not_or, UInt64.not_lt] at h
      exact fun _ => .started (by simpa using hr) h.1 h.2

theorem consume_move (frames : UInt32) :
    Move s (.consume frames) (.status (s.consume frames).1) (s.consume frames).2 := by
  unfold consume
  split
  · rename_i h
    exact .refused _ _ (by simpa [refuses] using h)
  · rename_i h
    simp only [not_or, ne_eq, not_not, gt_iff_lt, UInt32.not_lt] at h
    have hs : s.started = true := by simpa using h.1
    split
    · rename_i hq
      exact .underrun frames _ hs h.2.1 h.2.2.1 h.2.2.2 hq rfl
    · rename_i hq
      exact .consumed frames hs h.2.1 h.2.2.1 h.2.2.2 (UInt64.not_lt.mp hq)

theorem fail_move (reason : Status) :
    Move s (.fail reason) (.status (s.fail reason).1) (s.fail reason).2 := by
  unfold fail
  split
  · rename_i h
    exact .refused _ _ (.inl h)
  · rename_i ht
    have ht : s.isTerminal = false := by simpa using ht
    split
    · rename_i h
      exact .refused _ _ (.inr h)
    · rename_i hu
      split
      · rename_i hok
        exact .failed reason _ hu ht rfl fun h => by simp [hok] at h
      · rename_i hok
        exact .failed reason reason hu ht (by simpa using hok) fun _ => rfl

theorem cancel_move : Move s .cancel (.status s.cancel.1) s.cancel.2 := by
  unfold cancel
  split
  · rename_i h
    exact .refused _ _ (.inl h)
  · rename_i ht
    split
    · rename_i h
      exact .refused _ _ (.inr h)
    · rename_i hu
      exact .cancelled _ hu (by simpa using ht) rfl

theorem release_move : Move s .release (.status s.release.1) s.release.2 := by
  have href : s.release.1.isOk = false → s.refuses .release := id
  revert href
  unfold release
  split
  · exact fun href => .refused _ _ (href rfl)
  · rename_i h
    simp only [not_or, Bool.not_eq_true, Bool.not_eq_eq_eq_not] at h
    exact fun _ => .released (by simpa using h.1) h.2

/-- Every operation makes one of the moves listed. -/
theorem step_move (s : Scheduler) (op : Op) : Move s op (s.step op).1 (s.step op).2 := by
  cases op with
  | configure config => exact configure_move config
  | beginProduce frames => exact (beginProduce_offers frames).move _ rfl id
  | beginWrite frames => exact (beginWrite_offers frames).move _ rfl id
  | beginVisibilityBarrier => exact beginVisibilityBarrier_offers.move _ rfl id
  | beginRead frames => exact (beginRead_offers frames).move _ rfl id
  | beginFinalize => exact beginFinalize_offers.move _ rfl id
  | nextAction => exact nextAction_offers.move _ rfl id
  | complete action status count => exact complete_move action status count
  | start => exact start_move
  | consume frames => exact consume_move frames
  | fail reason => exact fail_move reason
  | cancel => exact cancel_move
  | release => exact release_move

end Scheduler

end WaveformGenerator.FinitePlayback
