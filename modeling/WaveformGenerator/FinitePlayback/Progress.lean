import WaveformGenerator.FinitePlayback.Discipline

/-!
# The scheduler never stalls

With no action pending and a ticket left, a live scheduler issues an action, or waits for the one
thing that can go on: `start`, or the audio clock. A measure that every operation carried out
lowers then brings every playback to its end.
-/

namespace WaveformGenerator.FinitePlayback

namespace Scheduler

variable {s s' : Scheduler}

/-! ## Guards that let an action through -/

/-- An action may be issued: none is pending, and a ticket is left. -/
structure Open (s : Scheduler) : Prop where
  settled : s.actionPending = false
  live : s.isLive
  tickets : s.nextToken ≠ 0xFFFFFFFFFFFFFFFF

theorem Open.begin (h : s.Open) (kind : ActionKind) (first : UInt64) (frames : UInt32) :
    ∃ action, s.begin kind first frames = (.ok action, s.issue action) := by
  rw [Scheduler.begin, if_neg (by simp [h.settled]), if_neg h.tickets]
  exact ⟨_, rfl⟩

theorem Open.not_dead (h : s.Open) : ¬ (s.state ≠ .ready ∧ s.state ≠ .running) := by
  rcases h.live with hl | hl <;> simp [hl]

theorem toNat_sub64 {a b : UInt64} (h : b.toNat ≤ a.toNat) : (a - b).toNat = a.toNat - b.toNat :=
  UInt64.toNat_sub_of_le _ _ (UInt64.le_iff_toNat_le.mpr h)

/-- A block's worth of frames at most fits the 32 bits of an action. -/
structure Frames (s : Scheduler) (n : UInt64) : Prop where
  pos : 0 < n.toNat
  le : n.toNat ≤ s.config.maxBlockFrames.toNat

theorem Frames.toUInt32 {n : UInt64} (h : s.Frames n) :
    n.toUInt32.toNat = n.toNat ∧ n.toUInt32 ≠ 0 ∧ n.toUInt32 ≤ s.config.maxBlockFrames ∧
      n.toUInt32.toUInt64 = n := by
  have hb := s.config.maxBlockFrames.toNat_lt
  have hp := h.pos
  have hle := h.le
  have heq : n.toUInt32.toNat = n.toNat := toUInt32_toNat (by omega)
  refine ⟨heq, ?_, ?_, ?_⟩
  · rw [Ne, ← UInt32.toNat_inj, heq]
    exact Nat.pos_iff_ne_zero.mp hp
  · rw [UInt32.le_iff_toNat_le, heq]
    exact hle
  · rw [← UInt64.toNat_inj, UInt32.toNat_toUInt64, heq]

theorem Open.produce (h : s.Open) (hs : s.Inv) {n : UInt64} (hn : s.Frames n)
    (staged : s.producedFrames.toNat = s.writtenFrames.toNat)
    (left : n.toNat ≤ s.config.totalFrames.toNat - s.producedFrames.toNat) :
    ∃ action, s.beginProduce n.toUInt32 = (.ok action, s.issue action) := by
  obtain ⟨-, hne, hle, heq⟩ := hn.toUInt32
  have hfits := hn.le
  have hstaged : (s.producedFrames - s.writtenFrames).toNat = 0 := by
    rw [toNat_sub64 hs.written_le]; omega
  have hrange : ¬ (n.toUInt32 = 0 ∨ n.toUInt32 > s.config.maxBlockFrames ∨
      n.toUInt32.toUInt64 > s.config.totalFrames - s.producedFrames) := by
    rw [heq, gt_iff_lt, gt_iff_lt, UInt64.lt_iff_toNat_lt, toNat_sub64 hs.produced_le]
    rintro (hc | hc | hc)
    · exact hne hc
    · exact UInt32.not_lt.mpr hle hc
    · omega
  have hroom : ¬ (n.toUInt32.toUInt64 >
      s.config.maxBlockFrames.toUInt64 - (s.producedFrames - s.writtenFrames)) := by
    rw [heq, gt_iff_lt, UInt64.lt_iff_toNat_lt, toNat_sub64 (by rw [hstaged]; omega), hstaged,
      UInt32.toNat_toUInt64]
    omega
  rw [beginProduce, if_neg h.not_dead, if_neg hrange]
  dsimp only
  rw [if_neg hroom]
  exact h.begin ..

theorem Open.write (h : s.Open) (hs : s.Inv) {n : UInt64} (hn : s.Frames n)
    (visible : s.writtenFrames.toNat = s.committedFrames.toNat)
    (staged : n.toNat ≤ s.producedFrames.toNat - s.writtenFrames.toNat) :
    ∃ action, s.beginWrite n.toUInt32 = (.ok action, s.issue action) := by
  obtain ⟨-, hne, hle, heq⟩ := hn.toUInt32
  have hrange : ¬ (s.writtenFrames ≠ s.committedFrames ∨ n.toUInt32 = 0 ∨
      n.toUInt32 > s.config.maxBlockFrames ∨
      n.toUInt32.toUInt64 > s.producedFrames - s.writtenFrames) := by
    rw [heq, gt_iff_lt, gt_iff_lt, UInt64.lt_iff_toNat_lt, toNat_sub64 hs.written_le]
    rintro (hc | hc | hc | hc)
    · exact hc (UInt64.toNat_inj.mp visible)
    · exact hne hc
    · exact UInt32.not_lt.mpr hle hc
    · omega
  rw [beginWrite, if_neg h.not_dead, if_neg hrange]
  exact h.begin ..

theorem Open.barrier (h : s.Open) (hs : s.Inv)
    (hidden : s.committedFrames.toNat < s.writtenFrames.toNat) :
    ∃ action, s.beginVisibilityBarrier = (.ok action, s.issue action) := by
  have hblock := hs.hidden
  have hne : ¬ ((s.state ≠ .ready ∧ s.state ≠ .running) ∨
      s.writtenFrames = s.committedFrames) := by
    rw [← UInt64.toNat_inj]
    rintro (hc | hc)
    · exact h.not_dead hc
    · omega
  have hle : ¬ (s.writtenFrames - s.committedFrames > s.config.maxBlockFrames.toUInt64) := by
    rw [gt_iff_lt, UInt64.lt_iff_toNat_lt, toNat_sub64 hs.committed_le, UInt32.toNat_toUInt64]
    omega
  rw [beginVisibilityBarrier, if_neg hne]
  dsimp only
  rw [if_neg hle]
  exact h.begin ..

theorem Open.read (h : s.Open) (hs : s.Inv) {n : UInt64} (hn : s.Frames n)
    (unread : n.toNat ≤ s.committedFrames.toNat - s.readFrames.toNat)
    (room : n.toNat ≤
      s.config.queueCapacityFrames.toNat - (s.readFrames.toNat - s.consumedFrames.toNat)) :
    ∃ action, s.beginRead n.toUInt32 = (.ok action, s.issue action) := by
  obtain ⟨-, hne, hle, heq⟩ := hn.toUInt32
  have hqueued := hs.queued
  have hpos := hn.pos
  have hrange : ¬ (n.toUInt32 = 0 ∨ n.toUInt32 > s.config.maxBlockFrames ∨
      n.toUInt32.toUInt64 > s.committedFrames - s.readFrames) := by
    rw [heq, gt_iff_lt, gt_iff_lt, UInt64.lt_iff_toNat_lt, toNat_sub64 hs.read_le]
    rintro (hc | hc | hc)
    · exact hne hc
    · exact UInt32.not_lt.mpr hle hc
    · omega
  have hqueue := toNat_sub64 hs.consumed_le
  have hroom : ¬ (n.toUInt32.toUInt64 >
      s.config.queueCapacityFrames.toUInt64 - (s.readFrames - s.consumedFrames)) := by
    rw [heq, gt_iff_lt, UInt64.lt_iff_toNat_lt,
      toNat_sub64 (by rw [hqueue, UInt32.toNat_toUInt64]; omega), hqueue, UInt32.toNat_toUInt64]
    omega
  rw [beginRead, if_neg h.not_dead, if_neg hrange]
  dsimp only
  rw [if_neg hroom]
  exact h.begin ..

theorem Open.finalize (h : s.Open) (hs : s.Inv) (hp : s.PhaseInv) (running : s.state = .running)
    (done : s.consumedFrames.toNat = s.config.totalFrames.toNat) :
    ∃ action, s.beginFinalize = (.ok action, s.issue action) := by
  have h1 := hs.consumed_le
  have h2 := hs.read_le
  have h3 := hs.committed_le
  have h4 := hs.written_le
  have h5 := hs.produced_le
  have hfinal : s.artifactFinalized = false := by
    by_contra hc
    have := hp.finalized (by simpa using hc)
    simp [running] at this
  have hguard : ¬ (s.state ≠ .running ∨ s.producedFrames ≠ s.config.totalFrames ∨
      s.writtenFrames ≠ s.config.totalFrames ∨ s.committedFrames ≠ s.config.totalFrames ∨
      s.readFrames ≠ s.config.totalFrames ∨ s.consumedFrames ≠ s.config.totalFrames ∨
      s.artifactFinalized = true) := by
    simp only [running, hfinal, Ne, ← UInt64.toNat_inj]
    simp
    omega
  rw [beginFinalize, if_neg hguard]
  exact h.begin ..

/-! ## What a live scheduler asks for next -/

/-- While running, nothing is left to produce, write or commit, and the next read has to wait for
the audio clock: the queue holds frames and no room for a read batch. -/
structure Starved (s : Scheduler) : Prop where
  running : s.state = .running
  queued : s.consumedFrames < s.readFrames
  produced : s.producedFrames = s.config.totalFrames
  written : s.writtenFrames = s.config.totalFrames
  committed : s.committedFrames = s.config.totalFrames
  full : s.readFrames = s.config.totalFrames ∨
    s.config.queueCapacityFrames.toNat - (s.readFrames.toNat - s.consumedFrames.toNat) <
      min s.config.maxBlockFrames.toNat (s.committedFrames.toNat - s.readFrames.toNat)

theorem prefill_toNat (s : Scheduler) :
    s.prefill.toNat = min s.config.queueCapacityFrames.toNat s.config.totalFrames.toNat := by
  rw [prefill, toNat_min64, UInt32.toNat_toUInt64]

theorem Open.nextReady (h : s.Open) (hs : s.Inv) (hp : s.PhaseInv) (ready : s.state = .ready) :
    (∃ action, s.nextReady = (.ok action, s.issue action)) ∨
      s.nextReady = (.error (busyStatus "finite playback is ready to start"), s) ∧
        s.start.1 = .success := by
  have h1 := hs.consumed_le
  have h2 := hs.read_le
  have h3 := hs.committed_le
  have h4 := hs.written_le
  have h5 := hs.produced_le
  have h8 := hs.queued
  have hblock := hp.block_pos (by simp [ready])
  have hlead := hp.lead_le
  have hzero := hp.ready ready
  have hfits := hs.fits
  have hprefill := s.prefill_toNat
  have hqueue := toNat_sub64 hs.consumed_le
  unfold Scheduler.nextReady
  dsimp only
  split
  · rename_i htarget
    rw [UInt64.lt_iff_toNat_lt, toNat_max64] at htarget
    split
    · rename_i hw
      exact .inl (h.barrier hs (UInt64.lt_iff_toNat_lt.mp hw))
    · rename_i hw
      rw [gt_iff_lt, UInt64.lt_iff_toNat_lt] at hw
      split
      · rename_i hpw
        rw [gt_iff_lt, UInt64.lt_iff_toNat_lt] at hpw
        have hmin : (min s.config.maxBlockFrames.toUInt64
            (s.producedFrames - s.writtenFrames)).toNat =
              min s.config.maxBlockFrames.toNat
                (s.producedFrames.toNat - s.writtenFrames.toNat) := by
          rw [toNat_min64, UInt32.toNat_toUInt64, toNat_sub64 hs.written_le]
        refine .inl (h.write hs ⟨?_, ?_⟩ ?_ ?_) <;> omega
      · rename_i hpw
        rw [gt_iff_lt, UInt64.lt_iff_toNat_lt] at hpw
        have hmin : (min s.config.maxBlockFrames.toUInt64
            (s.config.totalFrames - s.producedFrames)).toNat =
              min s.config.maxBlockFrames.toNat
                (s.config.totalFrames.toNat - s.producedFrames.toNat) := by
          rw [toNat_min64, UInt32.toNat_toUInt64, toNat_sub64 hs.produced_le]
        refine .inl (h.produce hs ⟨?_, ?_⟩ ?_ ?_) <;> omega
  · rename_i htarget
    rw [UInt64.lt_iff_toNat_lt, toNat_max64] at htarget
    have hcount : (min (min s.config.maxBlockFrames.toUInt64
        (s.config.queueCapacityFrames.toUInt64 - (s.readFrames - s.consumedFrames)))
          (s.committedFrames - s.readFrames)).toNat =
        min (min s.config.maxBlockFrames.toNat (s.config.queueCapacityFrames.toNat -
          (s.readFrames.toNat - s.consumedFrames.toNat)))
            (s.committedFrames.toNat - s.readFrames.toNat) := by
      rw [toNat_min64, toNat_min64, UInt32.toNat_toUInt64,
        toNat_sub64 (by rw [hqueue, UInt32.toNat_toUInt64]; omega), hqueue,
        UInt32.toNat_toUInt64, toNat_sub64 hs.read_le]
    split
    · rename_i hread
      obtain ⟨hshort, hpos⟩ := hread
      rw [gt_iff_lt, UInt64.lt_iff_toNat_lt] at hpos
      refine .inl (h.read hs ⟨hpos, ?_⟩ ?_ ?_) <;> omega
    · rename_i hread
      refine .inr ⟨rfl, ?_⟩
      -- A queue short of its prefill would have had frames to read.
      have hlong : ¬ s.readFrames - s.consumedFrames < s.prefill := by
        intro hshort
        refine hread ⟨hshort, ?_⟩
        rw [UInt64.lt_iff_toNat_lt, hqueue] at hshort
        rw [gt_iff_lt, UInt64.lt_iff_toNat_lt, hcount]
        simp
        omega
      have hdone : ¬ (s.committedFrames < s.requiredLeadFrames ∨
          s.readFrames - s.consumedFrames < s.prefill) := by
        rintro (hc | hc)
        · rw [UInt64.lt_iff_toNat_lt] at hc
          omega
        · exact hlong hc
      rw [start, if_neg (by simp [ready]), if_neg hdone]

theorem Open.nextRunning (h : s.Open) (hs : s.Inv) (hp : s.PhaseInv)
    (running : s.state = .running) :
    (∃ action, s.nextRunning = (.ok action, s.issue action)) ∨
      s.nextRunning =
        (.error (busyStatus "finite playback is waiting for queue consumption"), s) ∧
        s.Starved := by
  have h1 := hs.consumed_le
  have h2 := hs.read_le
  have h3 := hs.committed_le
  have h4 := hs.written_le
  have h5 := hs.produced_le
  have h8 := hs.queued
  have hblock := hp.block_pos (by simp [running])
  have hfits := hs.fits
  have hqueue := toNat_sub64 hs.consumed_le
  have hroom : (s.config.queueCapacityFrames.toUInt64 -
      (s.readFrames - s.consumedFrames)).toNat =
        s.config.queueCapacityFrames.toNat - (s.readFrames.toNat - s.consumedFrames.toNat) := by
    rw [toNat_sub64 (by rw [hqueue, UInt32.toNat_toUInt64]; omega), hqueue,
      UInt32.toNat_toUInt64]
  have hrefill : (min s.config.maxBlockFrames.toUInt64
      (s.committedFrames - s.readFrames)).toNat =
        min s.config.maxBlockFrames.toNat (s.committedFrames.toNat - s.readFrames.toNat) := by
    rw [toNat_min64, UInt32.toNat_toUInt64, toNat_sub64 hs.read_le]
  unfold Scheduler.nextRunning
  dsimp only
  split
  · rename_i hread
    obtain ⟨hpos, hge⟩ := hread
    rw [gt_iff_lt, UInt64.lt_iff_toNat_lt] at hpos
    rw [ge_iff_le, UInt64.le_iff_toNat_le, hroom, hrefill] at hge
    refine .inl (h.read hs ⟨hpos, ?_⟩ ?_ ?_) <;> omega
  rename_i hread
  split
  · rename_i hw
    exact .inl (h.barrier hs (UInt64.lt_iff_toNat_lt.mp hw))
  rename_i hw
  rw [gt_iff_lt, UInt64.lt_iff_toNat_lt] at hw
  split
  · rename_i hpw
    rw [gt_iff_lt, UInt64.lt_iff_toNat_lt] at hpw
    have hmin : (min s.config.maxBlockFrames.toUInt64
        (s.producedFrames - s.writtenFrames)).toNat =
          min s.config.maxBlockFrames.toNat
            (s.producedFrames.toNat - s.writtenFrames.toNat) := by
      rw [toNat_min64, UInt32.toNat_toUInt64, toNat_sub64 hs.written_le]
    refine .inl (h.write hs ⟨?_, ?_⟩ ?_ ?_) <;> omega
  rename_i hpw
  rw [gt_iff_lt, UInt64.lt_iff_toNat_lt] at hpw
  split
  · rename_i hpt
    rw [UInt64.lt_iff_toNat_lt] at hpt
    have hmin : (min s.config.maxBlockFrames.toUInt64
        (s.config.totalFrames - s.producedFrames)).toNat =
          min s.config.maxBlockFrames.toNat
            (s.config.totalFrames.toNat - s.producedFrames.toNat) := by
      rw [toNat_min64, UInt32.toNat_toUInt64, toNat_sub64 hs.produced_le]
    refine .inl (h.produce hs ⟨?_, ?_⟩ ?_ ?_) <;> omega
  rename_i hpt
  rw [UInt64.lt_iff_toNat_lt] at hpt
  split
  · rename_i hct
    exact .inl (h.finalize hs hp running (by rw [hct]))
  rename_i hct
  rw [← UInt64.toNat_inj] at hct
  rw [gt_iff_lt, UInt64.lt_iff_toNat_lt, ge_iff_le, UInt64.le_iff_toNat_le, hroom, hrefill]
    at hread
  have hzero : (0 : UInt64).toNat = 0 := rfl
  refine .inr ⟨rfl, running, ?_, ?_, ?_, ?_, ?_⟩
  · rw [UInt64.lt_iff_toNat_lt]; omega
  · rw [← UInt64.toNat_inj]; omega
  · rw [← UInt64.toNat_inj]; omega
  · rw [← UInt64.toNat_inj]; omega
  · rw [← UInt64.toNat_inj]; omega

/-- With no action pending and a ticket left, a live scheduler issues an action, or `start` would
succeed, or it waits for the audio clock. -/
theorem Open.nextAction (h : s.Open) (hs : s.Inv) (hp : s.PhaseInv) :
    (∃ action, s.nextAction = (.ok action, s.issue action)) ∨
      (s.state = .ready ∧
        s.nextAction = (.error (busyStatus "finite playback is ready to start"), s) ∧
        s.start.1 = .success) ∨
      (s.nextAction =
        (.error (busyStatus "finite playback is waiting for queue consumption"), s) ∧
        s.Starved) := by
  rw [Scheduler.nextAction, if_neg (by simp [h.settled]), if_neg h.not_dead]
  rcases h.live with ready | running
  · rw [if_pos ready]
    rcases h.nextReady hs hp ready with hissued | ⟨hbusy, hstart⟩
    · exact .inl hissued
    · exact .inr (.inl ⟨ready, hbusy, hstart⟩)
  · rw [if_neg (by simp [running])]
    rcases h.nextRunning hs hp running with hissued | hbusy
    · exact .inl hissued
    · exact .inr (.inr hbusy)

/-! ## Every playback can be brought to its end -/

/-- The actions a live playback needs at most: each moves a frame at least, and one finalizes. -/
def actionsLeft (s : Scheduler) : Nat :=
  (s.config.totalFrames.toNat - s.producedFrames.toNat) +
    (s.config.totalFrames.toNat - s.writtenFrames.toNat) +
    (s.config.totalFrames.toNat - s.committedFrames.toNat) +
    (s.config.totalFrames.toNat - s.readFrames.toNat) + if s.state = .completed then 0 else 1

/-- What an owner who plays on has still to do. -/
def stepsLeft (s : Scheduler) : Nat :=
  2 * s.actionsLeft + (s.config.totalFrames.toNat - s.consumedFrames.toNat) +
    (if s.state = .ready then 1 else 0) + if s.actionPending then 0 else 1

/-- The tickets left suffice: the pending action has its own. -/
def Ticketed (s : Scheduler) : Prop :=
  s.actionsLeft + s.nextToken.toNat ≤ 2 ^ 64 - 1 + if s.actionPending then 1 else 0

/-- What an action reports when it did all it was issued for. -/
def fullCount (action : Action) : UInt32 :=
  if action.kind = .visibilityBarrier ∨ action.kind = .finalize then 0 else action.frames

/-- An operation of an owner who plays on, carried out in full: an action is issued, the pending
action has done all it was issued for, the playback starts, or a block of its queue is consumed. -/
def CarriesOut (s : Scheduler) (op : Op) : Prop :=
  match op with
  | .beginProduce _ | .beginWrite _ | .beginVisibilityBarrier | .beginRead _ | .beginFinalize
  | .nextAction => ∃ action, (s.step op).1 = .issued action
  | .complete action status count =>
    s.actionPending = true ∧ action = s.pendingAction ∧ status = .success ∧
      count = fullCount action ∧ (s.step op).1 = .status .success
  | .start | .consume _ => (s.step op).1 = .status .success
  | .configure _ | .fail _ | .cancel | .release => False

/-- Each operation of a row is carried out where its turn comes. -/
def PlaysOn (s : Scheduler) : List Op → Prop
  | [] => True
  | op :: ops => s.CarriesOut op ∧ (s.step op).2.PlaysOn ops

theorem wrongCount_fullCount (action : Action) : wrongCount action (fullCount action) = none := by
  unfold wrongCount fullCount
  split <;> simp

theorem complete_eq (hs : s.Inv) (pending : s.actionPending = true) (live : s.isLive) :
    s.step (.complete s.pendingAction .success (fullCount s.pendingAction)) =
      (.status .success, s.settle.moved s.pendingAction) := by
  have hm : s.actionMatches s.pendingAction = true := actionMatches_iff.mpr ⟨pending, rfl⟩
  have hlive : ¬ (s.settle.state = .cancelling ∨ s.settle.state = .failed) := by
    rcases live with hl | hl <;> simp [settle, hl]
  simp only [step, complete, hm, Bool.not_true, Bool.false_eq_true, if_false, if_neg hlive,
    Status.isOk_success, wrongCount_fullCount, hs.advance_eq pending]

/-- A completed action is one fewer to go. -/
theorem actionsLeft_moved (hs : s.Inv) (pending : s.actionPending = true) (live : s.isLive) :
    (s.settle.moved s.pendingAction).actionsLeft < s.actionsLeft ∧
      (s.settle.moved s.pendingAction).consumedFrames = s.consumedFrames ∧
      (s.settle.moved s.pendingAction).config = s.config ∧
      (s.settle.moved s.pendingAction).nextToken = s.nextToken ∧
      ((s.settle.moved s.pendingAction).state = .completed ∨
        (s.settle.moved s.pendingAction).state = s.state) := by
  have hr := hs.pending pending
  have h3 := hs.committed_le
  have h4 := hs.written_le
  have h5 := hs.produced_le
  have hstate : s.state ≠ .completed := by rcases live with hl | hl <;> simp [hl]
  unfold InRange at hr
  unfold moved actionsLeft
  cases hk : s.pendingAction.kind with
  | produce =>
    simp only [hk] at hr ⊢
    have hadd := add_toNat hr.2.2.1
    refine ⟨?_, rfl, rfl, rfl, .inr rfl⟩
    simp only [settle, hadd, hstate, if_false]
    omega
  | write =>
    simp only [hk] at hr ⊢
    have hadd := add_toNat hr.2.2.2.2
    refine ⟨?_, rfl, rfl, rfl, .inr rfl⟩
    simp only [settle, hadd, hstate, if_false]
    omega
  | visibilityBarrier =>
    simp only [hk] at hr ⊢
    refine ⟨?_, rfl, rfl, rfl, .inr rfl⟩
    simp only [settle, hstate, if_false]
    omega
  | read =>
    simp only [hk] at hr ⊢
    have hadd := add_toNat hr.2.2.2.1
    refine ⟨?_, rfl, rfl, rfl, .inr rfl⟩
    simp only [settle, hadd, hstate, if_false]
    omega
  | finalize =>
    simp only [hk] at hr ⊢
    refine ⟨?_, rfl, rfl, rfl, .inl trivial⟩
    simp only [settle, hstate, if_false, if_true]
    omega

/-- An operation that issues an action only issues it. -/
theorem step_issued {op : Op} {action : Action} (h : (s.step op).1 = .issued action) :
    s.actionPending = false ∧ s.isLive ∧ s.nextToken ≠ 0xFFFFFFFFFFFFFFFF ∧
      (s.step op).2 = s.issue action := by
  have hm := s.step_move op
  rw [h] at hm
  generalize (s.step op).2 = next at hm
  cases hm with
  | issued _ _ begins settled live tickets token range => exact ⟨settled, live, tickets, rfl⟩

/-- `start` that succeeds starts. -/
theorem step_started (h : (s.step .start).1 = .status .success) :
    s.state = .ready ∧ (s.step .start).2 = { s with started := true, state := .running } := by
  simp only [step, start] at h ⊢
  split at h
  · simp [invalidConfig, Status.success] at h
  rename_i hready
  split at h
  · simp [busyStatus, Status.success] at h
  rename_i hdone
  rw [if_neg hready, if_neg hdone]
  exact ⟨by simpa using hready, rfl⟩

/-- `consume` that succeeds takes frames that were queued. -/
theorem step_consumed {frames : UInt32} (h : (s.step (.consume frames)).1 = .status .success) :
    s.state = .running ∧ frames ≠ 0 ∧ frames.toUInt64 ≤ s.readFrames - s.consumedFrames ∧
      (s.step (.consume frames)).2 =
        { s with consumedFrames := s.consumedFrames + frames.toUInt64 } := by
  simp only [step, consume] at h ⊢
  split at h
  · simp [invalidArgument, Status.success] at h
  rename_i hguard
  split at h
  · rename_i hunder
    have hlatched : (s.latch ⟨.timeout, "finite playback queue underrun"⟩ .failed).1.isOk =
        false := by
      simp only [latch]
      split
      · rfl
      · rename_i hfirst
        simpa using hfirst
    rw [Reply.status.inj h] at hlatched
    cases hlatched
  rename_i hqueued
  rw [if_neg hguard, if_neg hqueued]
  simp only [not_or] at hguard
  exact ⟨by simpa using hguard.2.1, hguard.2.2.1, UInt64.not_lt.mp hqueued, rfl⟩

/-- One step nearer the end of the same playback, and no ticket short. -/
structure Nearer (s s' : Scheduler) : Prop where
  less : s'.stepsLeft < s.stepsLeft
  tickets : s.Ticketed → s'.Ticketed
  phase : s'.state = .completed ∨ s'.isLive
  config : s'.config = s.config

theorem nearer_issue (settled : s.actionPending = false) (live : s.isLive)
    (tickets : s.nextToken ≠ 0xFFFFFFFFFFFFFFFF) (action : Action) :
    Nearer s (s.issue action) where
  less := by
    simp only [stepsLeft, issue, actionsLeft, settled]
    exact Nat.lt_succ_self _
  tickets := fun h => by
    have htoken : (s.nextToken + 1).toNat = s.nextToken.toNat + 1 := by
      have := s.nextToken.toNat_lt
      rw [Ne, ← UInt64.toNat_inj] at tickets
      rw [UInt64.toNat_add]
      simp at tickets ⊢
      omega
    rw [Ticketed, settled, if_neg Bool.false_ne_true] at h
    simp only [Ticketed, issue, htoken]
    simp only [actionsLeft, if_true] at h ⊢
    omega
  phase := .inr live
  config := rfl

theorem nearer_complete (hs : s.Inv) (pending : s.actionPending = true) (live : s.isLive) :
    Nearer s (s.settle.moved s.pendingAction) := by
  obtain ⟨hless, hconsumed, hconfig, htoken, hphase⟩ := actionsLeft_moved hs pending live
  have hsettled : (s.settle.moved s.pendingAction).actionPending = false :=
    moved_actionPending ..
  refine ⟨?_, fun h => ?_, hphase.imp_right fun h => by rwa [isLive, h], hconfig⟩
  · have hready : (if (s.settle.moved s.pendingAction).state = .ready then 1 else 0) ≤
        if s.state = .ready then 1 else 0 := by
      rcases hphase with h | h <;> rw [h]
      simp
    simp only [stepsLeft, hsettled, pending, hconsumed, hconfig]
    simp only [if_true, Bool.false_eq_true, if_false]
    omega
  · rw [Ticketed, pending, if_pos rfl] at h
    simp only [Ticketed, hsettled, htoken]
    simp only [Bool.false_eq_true, if_false]
    omega

theorem nearer_start (ready : s.state = .ready) :
    Nearer s { s with started := true, state := .running } where
  less := by simp [stepsLeft, actionsLeft, ready]
  tickets := fun h => by
    simp only [Ticketed, actionsLeft, ready] at h ⊢
    simpa using h
  phase := .inr (.inr rfl)
  config := rfl

theorem nearer_consume (hs : s.Inv) (running : s.state = .running) {frames : UInt32}
    (pos : frames ≠ 0) (queued : frames.toUInt64 ≤ s.readFrames - s.consumedFrames) :
    Nearer s { s with consumedFrames := s.consumedFrames + frames.toUInt64 } where
  less := by
    have h1 := hs.consumed_le
    have h2 := hs.read_le
    have h3 := hs.committed_le
    have h4 := hs.written_le
    have h5 := hs.produced_le
    rw [UInt64.le_iff_toNat_le, toNat_sub64 h1, UInt32.toNat_toUInt64] at queued
    rw [Ne, ← UInt32.toNat_inj] at pos
    have hzero : (0 : UInt32).toNat = 0 := rfl
    have hadd : (s.consumedFrames + frames.toUInt64).toNat =
        s.consumedFrames.toNat + frames.toNat := by
      have := s.readFrames.toNat_lt
      rw [UInt64.toNat_add, UInt32.toNat_toUInt64]
      omega
    simp only [stepsLeft, actionsLeft, hadd]
    omega
  tickets := id
  phase := .inr (.inr running)
  config := rfl

/-- Whatever is carried out brings the end nearer. -/
theorem CarriesOut.nearer {op : Op} (h : s.CarriesOut op) (hs : s.Inv) (live : s.isLive) :
    Nearer s (s.step op).2 := by
  have hissues (hi : ∃ action, (s.step op).1 = .issued action) : Nearer s (s.step op).2 := by
    obtain ⟨action, hi⟩ := hi
    obtain ⟨hsettled, hlive, htickets, hstep⟩ := step_issued hi
    rw [hstep]
    exact nearer_issue hsettled hlive htickets action
  cases op with
  | complete action status count =>
    obtain ⟨hpending, rfl, rfl, rfl, -⟩ := h
    rw [complete_eq hs hpending live]
    exact nearer_complete hs hpending live
  | start =>
    obtain ⟨hready, hstep⟩ := step_started h
    rw [hstep]
    exact nearer_start hready
  | consume frames =>
    obtain ⟨hrunning, hpos, hqueued, hstep⟩ := step_consumed h
    rw [hstep]
    exact nearer_consume hs hrunning hpos hqueued
  | configure | fail | cancel | release => exact h.elim
  | beginProduce | beginWrite | beginVisibilityBarrier | beginRead | beginFinalize | nextAction =>
    exact hissues h

/-- A completed playback asks for nothing more. -/
theorem not_carriesOut (hp : s.PhaseInv) (done : s.state = .completed) (op : Op) :
    ¬ s.CarriesOut op := by
  have hdead : ¬ s.isLive := by simp [isLive, done]
  intro h
  have hissues (hi : ∃ action, (s.step op).1 = .issued action) : False := by
    obtain ⟨action, hi⟩ := hi
    exact hdead (step_issued hi).2.1
  cases op with
  | complete action status count =>
    have hsettled := hp.settled (.inr (.inl done))
    exact Bool.false_ne_true (hsettled.symm.trans h.1)
  | start => exact hdead (.inl (step_started h).1)
  | consume frames => exact hdead (.inr (step_consumed h).1)
  | configure | fail | cancel | release => exact h
  | beginProduce | beginWrite | beginVisibilityBarrier | beginRead | beginFinalize | nextAction =>
    exact hissues h

/-- A live playback whose tickets last always has a step that can be carried out. -/
theorem exists_carriesOut (hs : s.Inv) (hp : s.PhaseInv) (live : s.isLive)
    (tickets : s.Ticketed) : ∃ op : Op, s.CarriesOut op := by
  cases hpending : s.actionPending with
  | true =>
    exact ⟨.complete s.pendingAction .success (fullCount s.pendingAction),
      hpending, rfl, rfl, rfl, congrArg Prod.fst (complete_eq hs hpending live)⟩
  | false =>
    have hstate : s.state ≠ .completed := by rcases live with hl | hl <;> simp [hl]
    rw [Ticketed, hpending, if_neg Bool.false_ne_true, actionsLeft, if_neg hstate] at tickets
    have hopen : s.Open := ⟨hpending, live, by
      rw [Ne, ← UInt64.toNat_inj]
      simp
      omega⟩
    rcases hopen.nextAction hs hp with ⟨action, hissued⟩ | ⟨-, -, hstart⟩ | ⟨-, hstarved⟩
    · exact ⟨.nextAction, action, by simp [step, hissued, Reply.ofResult]⟩
    · exact ⟨.start, congrArg Reply.status hstart⟩
    · refine ⟨.consume 1, ?_⟩
      have hblock := hp.block_pos (by simp [hstarved.running])
      have hqueued := UInt64.lt_iff_toNat_lt.mp hstarved.queued
      have hguard : ¬ ((!s.started) = true ∨ s.state ≠ .running ∨ (1 : UInt32) = 0 ∨
          1 > s.config.maxBlockFrames) := by
        simp only [hp.running hstarved.running, hstarved.running, gt_iff_lt, UInt32.lt_iff_toNat_lt]
        simp
        omega
      have henough : ¬ ((1 : UInt32).toUInt64 > s.readFrames - s.consumedFrames) := by
        rw [gt_iff_lt, UInt64.lt_iff_toNat_lt, toNat_sub64 hs.consumed_le]
        simp
        omega
      simp only [CarriesOut, step, consume, if_neg hguard, if_neg henough]

/-- A playback on its way to its end: however its owner has gone on so far, it is completed or
something more can be carried out, and there is only so much of it. -/
theorem PlaysOn.goes_on (hs : s.Inv) (hp : s.PhaseInv) (live : s.isLive) (tickets : s.Ticketed)
    {ops : List Op} (h : s.PlaysOn ops) :
    ops.length ≤ s.stepsLeft ∧ (s.run ops).config = s.config ∧
      ((s.run ops).state = .completed ∨ ∃ op, (s.run ops).CarriesOut op) := by
  induction ops generalizing s with
  | nil => exact ⟨Nat.zero_le _, rfl, .inr (exists_carriesOut hs hp live tickets)⟩
  | cons op ops ih =>
    obtain ⟨hop, hrest⟩ := h
    have hnear := hop.nearer hs live
    have hm := s.step_move op
    have hless := hnear.less
    rcases hnear.phase with hend | hlive
    · cases ops with
      | nil =>
        refine ⟨?_, hnear.config, .inl hend⟩
        rw [List.length_singleton]
        omega
      | cons next ops => exact absurd hrest.1 (not_carriesOut (hp.move hs hm) hend next)
    · obtain ⟨hlength, hconfig, hgoes⟩ :=
        ih (hs.move hm) (hp.move hs hm) hlive (hnear.tickets tickets) hrest
      refine ⟨?_, hconfig.trans hnear.config, hgoes⟩
      rw [List.length_cons]
      omega

/-- A live playback whose tickets last is played to its end. -/
theorem exists_completed (hs : s.Inv) (hp : s.PhaseInv) (live : s.isLive)
    (tickets : s.Ticketed) : ∃ ops, s.PlaysOn ops ∧ (s.run ops).state = .completed := by
  induction hn : s.stepsLeft using Nat.strong_induction_on generalizing s with
  | _ n ih =>
    obtain ⟨op, hop⟩ := exists_carriesOut hs hp live tickets
    have hnear := hop.nearer hs live
    have hm := s.step_move op
    rcases hnear.phase with hend | hlive
    · exact ⟨[op], ⟨hop, trivial⟩, hend⟩
    · obtain ⟨ops, hops, hdone⟩ := ih _ (hn ▸ hnear.less) (hs.move hm) (hp.move hs hm) hlive
        (hnear.tickets tickets) rfl
      exact ⟨op :: ops, ⟨hop, hops⟩, hdone⟩

/-- The owner can play to the end: some row of operations, each carried out in full, completes this
playback with all its frames played; and no row of such operations gets stuck before. -/
def PlaysToEnd (s : Scheduler) : Prop :=
  (∃ ops, s.PlaysOn ops ∧ (s.run ops).state = .completed ∧ (s.run ops).config = s.config ∧
    (s.run ops).consumedFrames = s.config.totalFrames) ∧
  ∀ ops, s.PlaysOn ops → ops.length ≤ s.stepsLeft ∧
    ((s.run ops).state = .completed ∨ ∃ op, (s.run ops).CarriesOut op)

theorem playsToEnd (hs : s.Inv) (hp : s.PhaseInv) (live : s.isLive) (tickets : s.Ticketed) :
    s.PlaysToEnd := by
  refine ⟨?_, fun ops h => ?_⟩
  · obtain ⟨ops, hops, hdone⟩ := exists_completed hs hp live tickets
    have hconfig := (hops.goes_on hs hp live tickets).2.1
    have hinv := run_induct (P := fun s => s.Inv ∧ s.PhaseInv) ⟨hs, hp⟩
      (fun hm h => ⟨h.1.move hm, h.2.move h.1 hm⟩) ops
    refine ⟨ops, hops, hdone, hconfig, ?_⟩
    rw [← hconfig]
    exact UInt64.toNat_inj.mp (hinv.1.completed hdone)
  · obtain ⟨hlength, -, hgoes⟩ := h.goes_on hs hp live tickets
    exact ⟨hlength, hgoes⟩

/-! ## A scheduler that is not live starts again -/

theorem run_cons (op : Op) (ops : List Op) : s.run (op :: ops) = (s.step op).2.run ops := rfl

theorem run_append (ops more : List Op) : s.run (ops ++ more) = (s.run ops).run more :=
  List.foldl_append

/-- What `configure` accepts. -/
def Accepts (config : Config) : Prop :=
  config.totalFrames ≠ 0 ∧ config.measuredRateFramesPerSecond ≠ 0 ∧
    config.queueCapacityFrames ≠ 0 ∧ config.maxBlockFrames ≠ 0 ∧
    config.maxBlockFrames ≤ config.queueCapacityFrames

instance (config : Config) : Decidable (Accepts config) := inferInstanceAs (Decidable (_ ∧ _))

/-- The way from a scheduler that is not live to a new playback: its pending action completes, its
owner releases it, and it is configured. -/
def restart (s : Scheduler) (config : Config) : List Op :=
  (if s.actionPending then
    [.complete s.pendingAction .success (fullCount s.pendingAction)] else []) ++
  (if s.state = .unconfigured then [] else [.release]) ++ [.configure config]

/-- A playback just configured. -/
def configured (config : Config) (token : UInt64) : Scheduler :=
  { ({} : Scheduler).resetRun config (requiredLead config) with
    state := .ready, nextToken := token }

theorem step_configure {config : Config} (valid : Accepts config)
    (settled : s.actionPending = false)
    (free : s.state = .unconfigured ∨ s.isTerminal = true ∧ s.ownerReleased = true) :
    (s.step (.configure config)).2 = configured config s.nextToken := by
  have hfree : ¬ (s.actionPending = true ∨ (s.state ≠ .unconfigured ∧
      (!(s.isTerminal && s.ownerReleased)) = true)) := by
    rcases free with hu | ⟨ht, hr⟩
    · simp [settled, hu]
    · simp [settled, ht, hr]
  obtain ⟨htotal, hrate, hqueue, hblock, hfits⟩ := valid
  have hvalid : ¬ (config.totalFrames = 0 ∨ config.measuredRateFramesPerSecond = 0 ∨
      config.queueCapacityFrames = 0 ∨ config.maxBlockFrames = 0 ∨
      config.maxBlockFrames > config.queueCapacityFrames) := by
    rintro (h | h | h | h | h)
    · exact htotal h
    · exact hrate h
    · exact hqueue h
    · exact hblock h
    · exact UInt32.not_lt.mpr hfits h
  simp only [step, configure, if_neg hfree, if_neg hvalid]
  rfl

/-- A scheduler that is over, and settled, is released and configured again. -/
theorem run_release_configure {config : Config} (valid : Accepts config)
    (settled : s.actionPending = false) (terminal : s.isTerminal = true) :
    s.run [.release, .configure config] = configured config s.nextToken := by
  have hrelease : (s.step .release).2 = { s with ownerReleased := true } := by
    simp [step, release, terminal, settled]
  rw [run_cons, hrelease]
  exact step_configure valid settled (.inr ⟨terminal, rfl⟩)

/-- A scheduler that is not live is brought to any playback. -/
theorem run_restart {config : Config} (valid : Accepts config) (hp : s.PhaseInv)
    (dead : ¬ s.isLive) : s.run (s.restart config) = configured config s.nextToken := by
  by_cases hu : s.state = .unconfigured
  · have hsettled := hp.settled (.inl hu)
    rw [restart, if_neg (by simp [hsettled]), if_pos hu]
    exact step_configure valid hsettled (.inl hu)
  rw [restart, if_neg hu]
  cases hpending : s.actionPending with
  | false =>
    refine run_release_configure valid hpending ?_
    have hcancelling : s.state ≠ .cancelling := fun hc => by
      simp [hp.cancelling hc] at hpending
    unfold isLive at dead
    cases hs : s.state <;> simp_all [isTerminal]
  | true =>
    have hover : s.state = .cancelling ∨ s.state = .failed := by
      have hsettled := fun hst => Bool.false_ne_true ((hp.settled hst).symm.trans hpending)
      unfold isLive at dead
      cases hs : s.state <;> simp_all
    have hrun := run_cons (s := s)
      (.complete s.pendingAction .success (fullCount s.pendingAction))
      [.release, .configure config]
    rw [settle_after_failure hpending hover] at hrun
    refine hrun.trans (run_release_configure valid rfl ?_)
    rw [isTerminal_iff]
    simp only
    split <;> simp

theorem nextToken_run (ops : List Op) :
    (s.run ops).nextToken.toNat = s.nextToken.toNat + (s.issuedTokens ops).length := by
  induction ops generalizing s with
  | nil => rfl
  | cons op ops ih =>
    rw [run_cons, ih, issuedTokens, List.length_append]
    rcases nextToken_move (s.step_move op) with ⟨hi, hn⟩ | ⟨hi, hn⟩ <;> rw [hi, hn]
    · simp
    · simp
      omega

/-- **Progress.** In every live state a run reaches with no action pending and a ticket left,
`nextAction` issues an action or waits for `start` or the audio clock. A live playback with tickets
enough, one for each frame still to be produced, written, committed and read and one to finalize,
can be played to its end; one that is over leaves a scheduler on which any other can. -/
theorem run_progress (ops : List Op) :
    let s := ({} : Scheduler).run ops
    let issued := (({} : Scheduler).issuedTokens ops).length
    (s.state ≠ .unconfigured → s.isTerminal = false → s.actionPending = false →
      issued < 2 ^ 64 - 2 →
      (∃ action, s.nextAction = (.ok action, s.issue action)) ∨
      (s.state = .ready ∧
        s.nextAction = (.error (busyStatus "finite playback is ready to start"), s) ∧
        s.start.1 = .success) ∨
      (s.nextAction =
        (.error (busyStatus "finite playback is waiting for queue consumption"), s) ∧
        s.Starved)) ∧
    (s.isLive → issued + s.actionsLeft ≤ 2 ^ 64 - 2 + (if s.actionPending then 1 else 0) →
      s.PlaysToEnd) ∧
    (¬ s.isLive → ∀ config, Accepts config →
      issued + (4 * config.totalFrames.toNat + 1) ≤ 2 ^ 64 - 2 →
      (s.run (s.restart config)).state = .ready ∧ (s.run (s.restart config)).config = config ∧
        (s.run (s.restart config)).PlaysToEnd) := by
  intro s issued
  have hs : s.Inv := (run_inv ops).1
  have hp : s.PhaseInv := (run_inv ops).2
  have htoken : s.nextToken.toNat = 1 + issued := nextToken_run ops
  refine ⟨fun hu ht hpending hissued => ?_, fun hlive htickets => ?_,
    fun hdead config hvalid htickets => ?_⟩
  · have hlive : s.isLive := by
      have hcancelling : s.state ≠ .cancelling := fun hc => by
        simp [hp.cancelling hc] at hpending
      unfold isLive
      cases hstate : s.state <;> simp_all [isTerminal]
    have hopen : s.Open := ⟨hpending, hlive, by
      rw [Ne, ← UInt64.toNat_inj, htoken]
      simp
      omega⟩
    exact hopen.nextAction hs hp
  · refine playsToEnd hs hp hlive ?_
    rw [Ticketed, htoken]
    omega
  · have hrun := run_restart hvalid hp hdead
    have hinv := run_induct (P := fun s => s.Inv ∧ s.PhaseInv) ⟨hs, hp⟩
      (fun hm h => ⟨h.1.move hm, h.2.move h.1 hm⟩) (s.restart config)
    rw [hrun] at hinv ⊢
    have hleft : (configured config s.nextToken).actionsLeft =
        4 * config.totalFrames.toNat + 1 := by
      simp only [actionsLeft, configured, resetRun]
      simp
      omega
    have htickets' : (configured config s.nextToken).Ticketed := by
      rw [Ticketed, hleft]
      show _ + s.nextToken.toNat ≤ _
      omega
    exact ⟨rfl, rfl, playsToEnd hinv.1 hinv.2 (.inl rfl) htickets'⟩

theorem run_progress_prefill :
    let s := ({} : Scheduler).run [.configure ⟨6, 48000, 6, 3, 2⟩]
    let idle := ({} : Scheduler).run []
    (∃ action, s.nextAction.1 = .ok action) ∧ s.PlaysToEnd ∧
      (idle.run (idle.restart ⟨6, 48000, 6, 3, 2⟩)).PlaysToEnd :=
  ⟨⟨_, rfl⟩, (run_progress [.configure ⟨6, 48000, 6, 3, 2⟩]).2.1 (by decide) (by decide),
    ((run_progress []).2.2 (by decide) ⟨6, 48000, 6, 3, 2⟩ (by decide) (by decide)).2.2⟩

/-! ## The last ticket, and a queue with a little room -/

/-- The shortest playback. -/
def oneFrame : Config := ⟨1, 48000, 0, 1, 1⟩

/-- A playback of one frame, just configured, with `token` the next ticket. -/
def idle (token : UInt64) : Scheduler := configured oneFrame token

/-- An action is issued, cancelled and settled, and the playback configured again. -/
def cycle (token : UInt64) : List Op :=
  [.beginProduce 1, .cancel, .complete ⟨token, 0, 1, .produce⟩ .success 0, .release,
    .configure oneFrame]

def cycles : Nat → List Op
  | 0 => [.configure oneFrame]
  | n + 1 => cycles n ++ cycle (.ofNat (n + 1))

theorem beginProduce_idle {token : UInt64} (h : token ≠ 0xFFFFFFFFFFFFFFFF) :
    ((idle token).step (.beginProduce 1)).2 = (idle token).issue ⟨token, 0, 1, .produce⟩ := by
  have hrange : ¬ ((1 : UInt32) = 0 ∨ 1 > (idle token).config.maxBlockFrames ∨
      (1 : UInt32).toUInt64 > (idle token).config.totalFrames - (idle token).producedFrames) :=
    show ¬ ((1 : UInt32) = 0 ∨ (1 : UInt32) > 1 ∨ (1 : UInt32).toUInt64 > 1 - 0) by decide
  have hroom : ¬ ((1 : UInt32).toUInt64 > (idle token).config.maxBlockFrames.toUInt64 -
      ((idle token).producedFrames - (idle token).writtenFrames)) :=
    show ¬ ((1 : UInt32).toUInt64 > (1 : UInt32).toUInt64 - (0 - 0)) by decide
  have htoken : ¬ (idle token).nextToken = 0xFFFFFFFFFFFFFFFF := h
  have hready : ¬ ((idle token).state ≠ .ready ∧ (idle token).state ≠ .running) := by simp [idle, configured]
  have hsettled : ¬ (idle token).actionPending = true := by simp [idle, configured, resetRun]
  simp only [step, beginProduce, begin, if_neg hready, if_neg hrange, if_neg hroom,
    if_neg hsettled, if_neg htoken]
  rfl

theorem run_cycle {token : UInt64} (h : token ≠ 0xFFFFFFFFFFFFFFFF) :
    (idle token).run (cycle token) = idle (token + 1) := by
  have hsettled := settle_after_failure
    (s := (((idle token).issue ⟨token, 0, 1, .produce⟩).step .cancel).2)
    rfl (.inl rfl) .success 0
  rw [cycle, run_cons, beginProduce_idle h, run_cons, run_cons]
  exact congrArg (fun r : Reply × Scheduler => r.2.run [.release, .configure oneFrame]) hsettled

theorem run_cycles {n : Nat} (h : n < 2 ^ 64 - 1) :
    ({} : Scheduler).run (cycles n) = idle (.ofNat (n + 1)) := by
  induction n with
  | zero => rfl
  | succ n ih =>
    have htoken : (UInt64.ofNat (n + 1)) ≠ 0xFFFFFFFFFFFFFFFF := by
      rw [Ne, ← UInt64.toNat_inj, UInt64.toNat_ofNat_of_lt' (by simp [UInt64.size]; omega)]
      simp
      omega
    rw [cycles, run_append, ih (by omega), run_cycle htoken]
    congr 1
    exact (UInt64.ofNat_add (n + 1) 1).symm

/-- One block carried to the card: produced, written and committed, from `token`. -/
def batch (token first : UInt64) (frames : UInt32) : List Op :=
  [.nextAction, .complete ⟨token, first, frames, .produce⟩ .success frames,
    .nextAction, .complete ⟨token + 1, first, frames, .write⟩ .success frames,
    .nextAction, .complete ⟨token + 2, first, frames, .visibilityBarrier⟩ .success 0]

/-- Six frames in blocks of two through a queue of three, played up to the first frame. -/
def squeezed : List Op :=
  .configure ⟨6, 48000, 6, 3, 2⟩ :: (batch 1 0 2 ++ batch 4 2 2 ++ batch 7 4 2) ++
    [.nextAction, .complete ⟨10, 0, 2, .read⟩ .success 2,
      .nextAction, .complete ⟨11, 2, 1, .read⟩ .success 1, .start, .consume 1]

/-- One ticket is never issued: with 2^64 - 2 actions issued a scheduler ready to go on is refused.
And the queue may have room for a frame while `nextAction` waits for a batch. -/
theorem busy_otherwise :
    (∃ ops, (({} : Scheduler).issuedTokens ops).length < 2 ^ 64 - 1 ∧
      (({} : Scheduler).run ops).state = .ready ∧
      (({} : Scheduler).run ops).actionPending = false ∧
      (({} : Scheduler).run ops).nextAction.1 =
        .error (ioError "finite playback action ticket space exhausted")) ∧
    ∃ ops, (({} : Scheduler).run ops).state = .running ∧
      (({} : Scheduler).run ops).nextAction.1 =
        .error (busyStatus "finite playback is waiting for queue consumption") ∧
      (({} : Scheduler).run ops).beginRead 1 =
        (.ok ⟨12, 3, 1, .read⟩, (({} : Scheduler).run ops).issue ⟨12, 3, 1, .read⟩) := by
  constructor
  · have hrun := run_cycles (n := 2 ^ 64 - 2) (by decide)
    have htoken := nextToken_run (s := {}) (cycles (2 ^ 64 - 2))
    rw [hrun] at htoken
    refine ⟨cycles (2 ^ 64 - 2), ?_, ?_, ?_, ?_⟩
    · have : (idle (.ofNat (2 ^ 64 - 2 + 1))).nextToken.toNat = 2 ^ 64 - 1 := rfl
      rw [this] at htoken
      have : ({} : Scheduler).nextToken.toNat = 1 := rfl
      omega
    · rw [hrun]; rfl
    · rw [hrun]; rfl
    · rw [hrun]; rfl
  · have hrun : ({} : Scheduler).run squeezed =
        { config := ⟨6, 48000, 6, 3, 2⟩, requiredLeadFrames := 6, producedFrames := 6,
          writtenFrames := 6, committedFrames := 6, readFrames := 3, consumedFrames := 1,
          nextToken := 12, state := .running, started := true, ownerReleased := false } := by
      decide +kernel
    refine ⟨squeezed, ?_⟩
    rw [hrun]
    exact ⟨rfl, rfl, rfl⟩

end Scheduler

end WaveformGenerator.FinitePlayback
