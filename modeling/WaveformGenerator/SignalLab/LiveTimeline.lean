import WaveformGenerator.Lib.UInt
import WaveformGenerator.SignalLab.LiveControl

/-!
# Live events are applied once, at their frame

The audio of the controller does not reach its queue, so what is applied when is a matter of the
`Queue` alone. A queue in order at a frame (`InOrder`) holds the places of the captured events that
are still to come, by frame and then by acceptance; one pass of the loop applies those of its frame.
-/

namespace WaveformGenerator.SignalLab

variable {R : Type}

/-- The part of a controller that decides which event is applied when. -/
structure Queue (R : Type) where
  configured : Bool
  frames : UInt64
  capture : List (ControlEvent R)
  pending : List Nat
  controlsAccepted : UInt32
  controlsApplied : UInt32

def LiveController.queue [Det R] (c : LiveController R) : Queue R where
  configured := c.configured
  frames := c.stats.frames
  capture := c.capture
  pending := c.pending
  controlsAccepted := c.stats.controlsAccepted
  controlsApplied := c.stats.controlsApplied

/-! ## The audio leaves the queue alone -/

namespace LiveController

variable [Det R]

@[simp] theorem queue_state (c : LiveController R) (state : LiveState R) :
    ({ c with state } : LiveController R).queue = c.queue := rfl

@[simp] theorem queue_scheduleStatic (c : LiveController R) (frame : UInt64) :
    (c.scheduleStatic frame).queue = c.queue := by
  simp only [scheduleStatic, queue]

theorem queue_applyKind (c : LiveController R) (event : ControlEvent R) :
    (c.applyKind event).queue = c.queue := by
  unfold applyKind
  split
  · rfl
  · rfl
  · rfl
  · dsimp only
    split <;> split <;> simp only [queue, scheduleStatic]
  · dsimp only
    split
    · rw [queue_scheduleStatic, queue_state]
    · rfl
  · rfl
  · rfl

@[simp] theorem queue_apply (c : LiveController R) (event : ControlEvent R) :
    (c.apply event).queue = { c.queue with controlsApplied := c.queue.controlsApplied + 1 } := by
  have h := queue_applyKind c event
  simp only [queue, Queue.mk.injEq] at h
  simp only [queue, apply, h]

@[simp] theorem queue_fadeGain (c : LiveController R) (frame : UInt64) :
    (c.fadeGain frame).2.queue = c.queue := by
  unfold fadeGain
  split
  · rfl
  · dsimp only
    split <;> rfl

@[simp] theorem queue_placeCrash (c : LiveController R) (frame : UInt64) (phase : R)
    (rng : Pcg32) : (c.placeCrash frame phase rng).queue = c.queue := by
  unfold placeCrash
  split <;> rfl

@[simp] theorem queue_startCrash (c : LiveController R) (frame : UInt64) :
    (c.startCrash frame).queue = c.queue := by
  simp only [startCrash, queue_scheduleStatic, queue_placeCrash]

@[simp] theorem queue_staticSample (c : LiveController R) (frame : UInt64) :
    (c.staticSample frame).2.queue = c.queue := by
  unfold staticSample
  split
  · rfl
  · dsimp only
    split
    · exact queue_startCrash ..
    · rfl

@[simp] theorem queue_mix {X : Type} (path : SamplePath R X) (c : LiveController R)
    (absolute : UInt64) (x : X) : (c.mix path absolute x).1.queue = c.queue := by
  unfold mix
  exact (queue_staticSample ..).trans (queue_fadeGain ..)

end LiveController

/-! ## A queue in order -/

theorem countP_frame_succ (events : List (ControlEvent R)) (clock : Nat) :
    events.countP (·.frame.toNat < clock + 1) =
      events.countP (·.frame.toNat < clock) + events.countP (·.frame.toNat = clock) := by
  induction events with
  | nil => rfl
  | cons event events ih =>
    simp only [List.countP_cons, ih, decide_eq_true_eq]
    split <;> split <;> split <;> omega

namespace Queue

variable [Det R]

def captured (q : Queue R) (place : Nat) : ControlEvent R :=
  q.capture.getD place { value := 0.0 }

def frameAt (q : Queue R) (place : Nat) : Nat := (q.captured place).frame.toNat

/-- By frame, and in the order of acceptance at one frame. -/
def Earlier (q : Queue R) (i j : Nat) : Prop :=
  q.frameAt i < q.frameAt j ∨ q.frameAt i = q.frameAt j ∧ i < j

structure InOrder (q : Queue R) (clock : Nat) : Prop where
  sorted : q.pending.Pairwise q.Earlier
  waits : ∀ place, place ∈ q.pending ↔ place < q.capture.length ∧ clock ≤ q.frameAt place
  accepted : q.controlsAccepted.toNat = q.capture.length
  applied : q.controlsApplied.toNat = q.capture.countP (·.frame.toNat < clock)
  pendingRoom : q.pending.length ≤ livePendingCapacity
  captureRoom : q.capture.length ≤ liveCaptureCapacity

def isDue (q : Queue R) (clock place : Nat) : Bool := q.frameAt place = clock

/-- The pending events of a frame are taken out and counted. -/
def applyDue (q : Queue R) (clock : Nat) : Queue R :=
  { q with
    pending := q.pending.dropWhile (q.isDue clock)
    controlsApplied := q.controlsApplied + .ofNat (q.pending.takeWhile (q.isDue clock)).length }

theorem isDue_iff {q : Queue R} {clock place : Nat} :
    q.isDue clock place = true ↔ q.frameAt place = clock := decide_eq_true_iff

theorem map_captured_range (q : Queue R) :
    (List.range q.capture.length).map q.captured = q.capture := by
  apply List.ext_getElem
  · rw [List.length_map, List.length_range]
  · intro i _ hi
    simp only [List.getElem_map, List.getElem_range, captured, List.getD_eq_getElem?_getD,
      List.getElem?_eq_getElem hi, Option.getD_some]

namespace InOrder

variable {q : Queue R} {clock : Nat}

/-- Nothing pending comes before an event of the clock's frame but events of that frame. -/
theorem due_first (h : q.InOrder clock) : ∀ i ∈ q.pending, ∀ j, q.Earlier i j →
    q.isDue clock j = true → q.isDue clock i = true := by
  intro i hi j hearlier hj
  have hwaits := ((h.waits i).mp hi).2
  rw [isDue_iff] at hj ⊢
  rcases hearlier with hlt | ⟨heq, -⟩ <;> omega

/-- The pending events of the clock's frame are the captured ones of that frame, in order. -/
theorem due_places (h : q.InOrder clock) : q.pending.takeWhile (q.isDue clock) =
    (List.range q.capture.length).filter (q.isDue clock) := by
  rw [Insertion.takeWhile_eq_filter h.sorted h.due_first]
  refine List.Pairwise.eq_of_mem_iff (r := (· < ·)) ?_ ?_ fun place => ?_
  · refine (h.sorted.filter _).imp_of_mem fun {i j} hi hj hearlier => ?_
    have hi := isDue_iff.mp (List.mem_filter.mp hi).2
    have hj := isDue_iff.mp (List.mem_filter.mp hj).2
    rcases hearlier with hlt | ⟨-, hlt⟩
    · omega
    · exact hlt
  · exact List.pairwise_lt_range.filter _
  · rw [List.mem_filter, List.mem_filter, List.mem_range, h.waits, isDue_iff]
    constructor
    · rintro ⟨⟨hplace, -⟩, hframe⟩
      exact ⟨hplace, hframe⟩
    · rintro ⟨hplace, hframe⟩
      exact ⟨⟨hplace, hframe.ge⟩, hframe⟩

theorem due_events (h : q.InOrder clock) :
    (q.pending.takeWhile (q.isDue clock)).map q.captured =
      q.capture.filter fun event => decide (event.frame.toNat = clock) := by
  rw [h.due_places]
  conv_rhs => rw [← map_captured_range q, List.filter_map]
  rfl

theorem applyDue (h : q.InOrder clock) : (q.applyDue clock).InOrder (clock + 1) := by
  have hsublist := List.dropWhile_sublist (l := q.pending) (q.isDue clock)
  refine ⟨h.sorted.sublist hsublist, fun place => ?_, h.accepted, ?_,
    hsublist.length_le.trans h.pendingRoom, h.captureRoom⟩
  · show place ∈ q.pending.dropWhile _ ↔
      place < q.capture.length ∧ clock + 1 ≤ q.frameAt place
    rw [Insertion.dropWhile_eq_filter h.sorted h.due_first, List.mem_filter, h.waits,
      Bool.not_eq_true', ← Bool.not_eq_true, isDue_iff]
    omega
  · have hdue := congrArg List.length h.due_events
    rw [List.length_map, ← List.countP_eq_length_filter] at hdue
    have hsplit := countP_frame_succ q.capture clock
    have hle : q.capture.countP (·.frame.toNat < clock + 1) ≤ q.capture.length :=
      List.countP_le_length
    have hroom : q.capture.length ≤ 128 := h.captureRoom
    have happlied := h.applied
    have hcount := toNat_ofNat32 (n := q.capture.countP (·.frame.toNat = clock)) (by omega)
    show (q.controlsApplied + UInt32.ofNat _).toNat = _
    rw [hdue, toNat_add32 (by omega), hcount, happlied]
    exact hsplit.symm

end InOrder

end Queue

/-! ## The loop of `process` -/

/-- The acts of the frames from `first` on: at each frame the accepted events that name it, in the
order of acceptance, and then its sample. -/
def timeline (accepted : List (ControlEvent R)) (first count : Nat) : List (Act R) :=
  (List.range' first count).flatMap fun frame =>
    (accepted.filter fun event => decide (event.frame.toNat = frame)).map
      (.apply (.ofNat frame)) ++ [.emit (.ofNat frame)]

theorem timeline_succ (accepted : List (ControlEvent R)) (first count : Nat) :
    timeline accepted first (count + 1) =
      (accepted.filter fun event => decide (event.frame.toNat = first)).map
        (.apply (.ofNat first)) ++ .emit (.ofNat first) :: timeline accepted (first + 1) count := by
  rw [timeline, List.range'_succ, List.flatMap_cons, List.append_assoc]
  rfl

theorem timeline_append (accepted : List (ControlEvent R)) (first m n : Nat) :
    timeline accepted first (m + n) =
      timeline accepted first m ++ timeline accepted (first + m) n := by
  rw [timeline, ← List.range'_append_1, List.flatMap_append]
  rfl

/-- Events for later frames leave the acts of the frames before alone. -/
theorem timeline_later {late : List (ControlEvent R)} {n : Nat} (accepted : List (ControlEvent R))
    (hlate : ∀ event ∈ late, n ≤ event.frame.toNat) :
    timeline (accepted ++ late) 0 n = timeline accepted 0 n := by
  refine List.flatMap_congr fun frame hframe => ?_
  have hnone : late.filter (fun event => decide (event.frame.toNat = frame)) = [] := by
    refine List.filter_eq_nil_iff.mpr fun event hevent => ?_
    have := hlate event hevent
    have := List.mem_range'_1.mp hframe
    rw [decide_eq_true_eq]
    omega
  rw [List.filter_append, hnone, List.append_nil]

/-- The frame and the event of an application. -/
def Act.applied : Act R → Option (UInt64 × ControlEvent R)
  | .apply frame event => some (frame, event)
  | .emit _ => none

namespace LiveController

variable [Det R] {X : Type} (path : SamplePath R X)

theorem queue_setPending (c : LiveController R) (pending : List Nat) :
    (c.setPending pending).queue = { c.queue with pending } := rfl

theorem applyDue_spec (absolute : UInt64) (pending : List Nat) (c : LiveController R)
    (hpending : c.pending = pending) :
    (applyDue absolute pending c).1.queue = c.queue.applyDue absolute.toNat ∧
      (applyDue absolute pending c).2 =
        (pending.takeWhile (c.queue.isDue absolute.toNat)).map c.queue.captured := by
  induction pending generalizing c with
  | nil =>
    refine ⟨?_, rfl⟩
    have hqueue : c.queue.pending = [] := hpending
    rw [Queue.applyDue, hqueue]
    simp only [applyDue, queue, hpending, List.dropWhile_nil, List.takeWhile_nil, List.length_nil]
    rw [show UInt32.ofNat 0 = 0 from rfl, UInt32.add_zero]
  | cons place pending ih =>
    have hqueue : c.queue.pending = place :: pending := hpending
    have hframe : c.queue.isDue absolute.toNat place =
        decide ((c.captured place).frame = absolute) :=
      decide_eq_decide.mpr UInt64.toNat_inj
    by_cases hdue : (c.captured place).frame = absolute
    · obtain ⟨happlied, hevents⟩ := ih ((c.apply (c.captured place)).setPending pending) rfl
      rw [queue_setPending, queue_apply] at happlied hevents
      rw [decide_eq_true hdue] at hframe
      rw [applyDue, if_pos hdue, List.takeWhile_cons_of_pos hframe]
      refine ⟨happlied.trans ?_, congrArg (c.captured place :: ·) hevents⟩
      simp only [Queue.applyDue, hqueue, List.dropWhile_cons_of_pos hframe,
        List.takeWhile_cons_of_pos hframe, List.length_cons, UInt32.ofNat_add, UInt32.add_assoc]
      rw [UInt32.add_comm 1]
      rfl
    · rw [decide_eq_false hdue] at hframe
      rw [applyDue, if_neg hdue, List.takeWhile_cons_of_neg (by rw [hframe]; decide)]
      refine ⟨?_, rfl⟩
      rw [Queue.applyDue, hqueue, List.dropWhile_cons_of_neg (by rw [hframe]; decide),
        List.takeWhile_cons_of_neg (by rw [hframe]; decide), ← hqueue, List.length_nil,
        show UInt32.ofNat 0 = 0 from rfl, UInt32.add_zero]

/-- A pass of the loop over the rest of a block, from the frame `clock` on. -/
theorem processLoop_spec (index : UInt64) (pcm : List X) (c : LiveController R) (clock : Nat)
    (h : c.queue.InOrder clock) (hclock : (c.stats.frames + index).toNat = clock)
    (hroom : clock + pcm.length < 2 ^ 64) :
    let looped := processLoop path index pcm c
    looped.1.queue.InOrder (clock + pcm.length) ∧ looped.1.queue.frames = c.queue.frames ∧
      looped.1.queue.capture = c.queue.capture ∧ looped.2.1.length = pcm.length ∧
      looped.2.2 = timeline c.queue.capture clock pcm.length := by
  induction pcm generalizing index c clock with
  | nil => exact ⟨h, rfl, rfl, rfl, rfl⟩
  | cons x pcm ih =>
    rw [List.length_cons] at hroom
    obtain ⟨happlied, hevents⟩ := applyDue_spec (c.stats.frames + index) c.pending c rfl
    rw [hclock] at happlied hevents
    have hmixed := queue_mix path (applyDue (c.stats.frames + index) c.pending c).1
      (c.stats.frames + index) x
    rw [happlied] at hmixed
    have hstart : ((applyDue (c.stats.frames + index) c.pending c).1.mix path
        (c.stats.frames + index) x).1.stats.frames = c.stats.frames :=
      congrArg Queue.frames hmixed
    have hnext : (c.stats.frames + (index + 1)).toNat = clock + 1 := by
      rw [← UInt64.add_assoc, UInt64.toNat_add, hclock]
      exact Nat.mod_eq_of_lt (by show clock + 1 < _; omega)
    obtain ⟨hin, hframes, hcapture, hlength, hacts⟩ := ih (index + 1) _ (clock + 1)
      (hmixed ▸ h.applyDue) (by rw [hstart]; exact hnext) (by omega)
    rw [hmixed] at hframes hcapture hacts
    have hsum : clock + (pcm.length + 1) = clock + 1 + pcm.length := by omega
    have habsolute : UInt64.ofNat clock = c.stats.frames + index := by
      rw [← hclock, UInt64.ofNat_toNat]
    refine ⟨?_, hframes, hcapture, congrArg (· + 1) hlength, ?_⟩
    · rw [List.length_cons, hsum]
      exact hin
    · rw [List.length_cons, timeline_succ, habsolute, ← hevents.trans h.due_events]
      exact congrArg (_ ++ Act.emit _ :: ·) hacts

@[simp] theorem queue_closeBlock (c : LiveController R) (pcm : List X) :
    (c.closeBlock path pcm).queue =
      { c.queue with frames := c.queue.frames + .ofNat pcm.length } := by
  unfold closeBlock
  dsimp only
  split <;> rfl

/-- A block that is let in goes through the acts of its frames. -/
theorem processBlock_spec (c : LiveController R) (pcm : List X)
    (h : c.queue.InOrder c.queue.frames.toNat)
    (hroom : c.queue.frames.toNat + pcm.length < 2 ^ 64) :
    let processed := c.processBlock path pcm
    processed.1.queue.InOrder processed.1.queue.frames.toNat ∧
      processed.1.queue.capture = c.queue.capture ∧
      processed.1.queue.frames.toNat = c.queue.frames.toNat + pcm.length ∧
      processed.2.2 = timeline c.queue.capture c.queue.frames.toNat pcm.length := by
  obtain ⟨hin, hframes, hcapture, hlength, hacts⟩ := processLoop_spec path 0 pcm c
    c.queue.frames.toNat h (by rw [UInt64.add_zero]; rfl) hroom
  have hclock : (c.queue.frames + .ofNat pcm.length).toNat =
      c.queue.frames.toNat + pcm.length := by
    rw [UInt64.toNat_add, UInt64.toNat_ofNat', Nat.mod_eq_of_lt (by omega : pcm.length < _),
      Nat.mod_eq_of_lt hroom]
  simp only [processBlock, queue_closeBlock, hframes, hlength, hclock]
  exact ⟨⟨hin.sorted, hin.waits, hin.accepted, hin.applied, hin.pendingRoom, hin.captureRoom⟩,
    hcapture, trivial, hacts⟩

/-! ## Queueing -/

theorem validate_isOk {c : LiveController R} {event : ControlEvent R}
    (h : (c.validate event).isOk = true) : c.queue.frames.toNat ≤ event.frame.toNat := by
  unfold validate at h
  split at h
  · cases h
  · split at h
    · cases h
    · rename_i hlate
      exact UInt64.le_iff_toNat_le.mp (UInt64.not_lt.mp hlate)

theorem validateAll_isOk {c : LiveController R} {events : List (ControlEvent R)}
    (h : (c.validateAll events).isOk = true) :
    ∀ event ∈ events, c.queue.frames.toNat ≤ event.frame.toNat := by
  induction events with
  | nil => exact fun event hevent => absurd hevent List.not_mem_nil
  | cons event events ih =>
    rw [validateAll] at h
    split at h
    · rename_i hbad
      rw [h] at hbad
      cases hbad
    · rename_i hok
      rw [Bool.not_eq_true', Bool.not_eq_false] at hok
      rintro e (_ | ⟨_, he⟩)
      · exact validate_isOk hok
      · exact ih h e he

theorem frameAt_insert_old {c : LiveController R} {event : ControlEvent R} {place : Nat}
    (hplace : place < c.capture.length) :
    (c.insert event).queue.frameAt place = c.queue.frameAt place := by
  show ((c.capture ++ [event]).getD place _).frame.toNat = (c.capture.getD place _).frame.toNat
  rw [List.getD_eq_getElem?_getD, List.getElem?_append_left hplace, List.getD_eq_getElem?_getD]

theorem frameAt_insert_new {c : LiveController R} {event : ControlEvent R} :
    (c.insert event).queue.frameAt c.capture.length = event.frame.toNat := by
  show ((c.capture ++ [event]).getD c.capture.length _).frame.toNat = event.frame.toNat
  rw [List.getD_eq_getElem?_getD, List.getElem?_concat_length]
  rfl

theorem pending_insert (c : LiveController R) (event : ControlEvent R) :
    (c.insert event).queue.pending =
      Insertion.insertBack
        (fun place => decide (event.frame.toNat < (c.insert event).queue.frameAt place))
        c.capture.length c.pending := by
  have hlater : (fun place => decide (event.frame < ((c.insert event).captured place).frame)) =
      fun place => decide (event.frame.toNat < (c.insert event).queue.frameAt place) :=
    funext fun place => decide_eq_decide.mpr UInt64.lt_iff_toNat_lt
  exact congrArg (Insertion.insertBack · _ _) hlater

/-- An event that is not late takes its place among the pending ones. -/
theorem insert_spec {c : LiveController R} {clock : Nat} (h : c.queue.InOrder clock)
    {event : ControlEvent R} (hframe : clock ≤ event.frame.toNat)
    (hpending : c.pending.length < livePendingCapacity)
    (hcapture : c.capture.length < liveCaptureCapacity) :
    (c.insert event).queue.InOrder clock := by
  have hplaces : ∀ place ∈ c.pending, place < c.capture.length :=
    fun place hmem => ((h.waits place).mp hmem).1
  have hold : ∀ place ∈ c.pending,
      (c.insert event).queue.frameAt place = c.queue.frameAt place :=
    fun place hmem => frameAt_insert_old (hplaces place hmem)
  have hnew : (c.insert event).queue.frameAt c.capture.length = event.frame.toNat :=
    frameAt_insert_new
  have hlength : (c.insert event).queue.capture.length = c.capture.length + 1 :=
    List.length_append
  refine ⟨?_, fun place => ?_, ?_, ?_, ?_, ?_⟩
  · rw [pending_insert]
    refine Insertion.pairwise_insertBack ?_ (fun a b hearlier ha => ?_) (fun a ha hearly => ?_)
      fun a ha hlate => ?_
    · refine h.sorted.imp_of_mem fun {a b} ha hb hearlier => ?_
      rw [Queue.Earlier, hold a ha, hold b hb]
      exact hearlier
    · rw [decide_eq_true_eq] at ha ⊢
      rcases hearlier with hlt | ⟨heq, -⟩ <;> omega
    · rw [decide_eq_false_iff_not, hold a ha] at hearly
      rw [Queue.Earlier, hold a ha, hnew]
      have := hplaces a ha
      omega
    · rw [decide_eq_true_eq] at hlate
      exact .inl (hnew ▸ hlate)
  · rw [hlength, pending_insert, (Insertion.insertBack_perm _ _ _).mem_iff, List.mem_cons]
    constructor
    · rintro (rfl | hmem)
      · exact ⟨Nat.lt_succ_self _, hnew ▸ hframe⟩
      · exact ⟨Nat.lt_succ_of_lt (hplaces place hmem),
          hold place hmem ▸ ((h.waits place).mp hmem).2⟩
    · rintro ⟨hplace, hwaits⟩
      rcases Nat.lt_succ_iff_lt_or_eq.mp hplace with hlt | heq
      · rw [frameAt_insert_old hlt] at hwaits
        exact .inr ((h.waits place).mpr ⟨hlt, hwaits⟩)
      · exact .inl heq
  · have haccepted : c.stats.controlsAccepted.toNat = c.capture.length := h.accepted
    have hroom : c.capture.length < 128 := hcapture
    rw [hlength, ← haccepted]
    exact toNat_add32 (by rw [haccepted]; show _ + 1 < _; omega)
  · refine h.applied.trans ?_
    show _ = (c.capture ++ [event]).countP _
    rw [List.countP_append, List.countP_singleton,
      if_neg (by rw [decide_eq_true_eq]; exact Nat.not_lt.mpr hframe)]
    rfl
  · rw [pending_insert, (Insertion.insertBack_perm _ _ _).length_eq]
    exact hpending
  · exact hlength.trans_le hcapture

theorem insertAll_spec {clock : Nat} (events : List (ControlEvent R)) {c : LiveController R}
    (h : c.queue.InOrder clock) (hframes : ∀ event ∈ events, clock ≤ event.frame.toNat)
    (hpending : c.pending.length + events.length ≤ livePendingCapacity)
    (hcapture : c.capture.length + events.length ≤ liveCaptureCapacity) :
    (c.insertAll events).queue.InOrder clock ∧
      (c.insertAll events).queue.capture = c.capture ++ events ∧
      (c.insertAll events).queue.frames = c.queue.frames := by
  induction events generalizing c with
  | nil => exact ⟨h, (List.append_nil _).symm, rfl⟩
  | cons event events ih =>
    rw [List.length_cons] at hpending hcapture
    have hinsert := insert_spec h (hframes event List.mem_cons_self) (by omega) (by omega)
    have hpend : (c.insert event).pending.length = c.pending.length + 1 :=
      (Insertion.insertBack_perm _ _ _).length_eq
    have hcapt : (c.insert event).capture.length = c.capture.length + 1 := List.length_append
    obtain ⟨hin, hcap, hfr⟩ := ih hinsert (fun e he => hframes e (List.mem_cons_of_mem _ he))
      (by omega) (by omega)
    refine ⟨hin, hcap.trans ?_, hfr⟩
    show c.capture ++ [event] ++ events = _
    rw [List.append_assoc, List.singleton_append]

/-! ## What a call can do -/

theorem enqueue_cases (c : LiveController R) (event : ControlEvent R) :
    (∃ status, c.enqueue event = (c, status) ∧ status.isOk = false) ∨
      c.enqueue event = (c.insert event, .success) ∧
        c.queue.frames.toNat ≤ event.frame.toNat ∧ c.pending.length ≠ livePendingCapacity ∧
        c.capture.length ≠ liveCaptureCapacity := by
  unfold enqueue
  dsimp only
  split
  · rename_i hbad
    exact .inl ⟨_, rfl, Bool.not_eq_true' _ ▸ hbad⟩
  · rename_i hok
    rw [Bool.not_eq_true', Bool.not_eq_false] at hok
    split
    · exact .inl ⟨_, rfl, rfl⟩
    · rename_i hpending
      split
      · exact .inl ⟨_, rfl, rfl⟩
      · rename_i hcapture
        exact .inr ⟨rfl, validate_isOk hok, hpending, hcapture⟩

theorem enqueueSweep_cases (c : LiveController R) (sweep : ControlSweep R) :
    let events := (List.range sweep.count).map sweep.event
    (∃ status, c.enqueueSweep sweep = (c, status) ∧ status.isOk = false) ∨
      c.enqueueSweep sweep = (c.insertAll events, .success) ∧
        (∀ event ∈ events, c.queue.frames.toNat ≤ event.frame.toNat) ∧
        sweep.count ≤ livePendingCapacity - c.pending.length ∧
        sweep.count ≤ liveCaptureCapacity - c.capture.length := by
  intro events
  unfold enqueueSweep
  split
  · exact .inl ⟨_, rfl, rfl⟩
  · split
    · exact .inl ⟨_, rfl, rfl⟩
    · dsimp only
      split
      · rename_i hbad
        exact .inl ⟨_, rfl, Bool.not_eq_true' _ ▸ hbad⟩
      · rename_i hok
        rw [Bool.not_eq_true', Bool.not_eq_false] at hok
        split
        · exact .inl ⟨_, rfl, rfl⟩
        · rename_i hpending
          split
          · exact .inl ⟨_, rfl, rfl⟩
          · rename_i hcapture
            exact .inr ⟨rfl, validateAll_isOk hok, Nat.not_lt.mp hpending,
              Nat.not_lt.mp hcapture⟩

theorem admits_isOk {c : LiveController R} {block : Block X} {message : String}
    (h : (c.admits block message).isOk = true) :
    c.queue.frames.toNat + block.pcm.length < 2 ^ 64 := by
  unfold admits at h
  split at h
  · cases h
  · split at h
    · cases h
    · rename_i hin
      rw [not_or, not_or] at hin
      obtain ⟨-, hsize, hroom⟩ := hin
      have hlength : block.pcm.length ≤ block.frames := by
        cases block with
        | null frames => exact Nat.zero_le _
        | samples pcm => exact Nat.le_refl _
      have hframes : block.frames ≤ 2304 := Nat.not_lt.mp hsize
      have hword := c.stats.frames.toNat_lt
      rw [UInt64.not_lt, UInt64.le_iff_toNat_le, UInt64.toNat_ofNat', UInt64.toNat_sub_of_le,
        Nat.mod_eq_of_lt (by omega : block.frames < 2 ^ 64)] at hroom
      · have hall : unboundedFrames.toNat = 2 ^ 64 - 1 := rfl
        show c.stats.frames.toNat + _ < _
        omega
      · rw [UInt64.le_iff_toNat_le]
        show _ ≤ 2 ^ 64 - 1
        omega

theorem processPcm16_cases (c : LiveController R) (block : Block Int16) :
    (∃ status, c.processPcm16 block = ⟨c, block.pcm, status, []⟩) ∨
      c.processPcm16 block = ⟨(c.processBlock pcm16Path block.pcm).1,
          (c.processBlock pcm16Path block.pcm).2.1, .success,
          (c.processBlock pcm16Path block.pcm).2.2⟩ ∧
        c.queue.frames.toNat + block.pcm.length < 2 ^ 64 := by
  unfold processPcm16
  dsimp only
  split
  · exact .inl ⟨_, rfl⟩
  · rename_i hok
    rw [Bool.not_eq_true', Bool.not_eq_false] at hok
    exact .inr ⟨rfl, admits_isOk hok⟩

theorem processFloat_cases (c : LiveController R) (block : Block R) :
    (∃ status, c.processFloat block = ⟨c, block.pcm, status, []⟩) ∨
      c.processFloat block = ⟨(c.processBlock floatPath block.pcm).1,
          (c.processBlock floatPath block.pcm).2.1, .success,
          (c.processBlock floatPath block.pcm).2.2⟩ ∧
        c.queue.frames.toNat + block.pcm.length < 2 ^ 64 := by
  unfold processFloat
  dsimp only
  split
  · exact .inl ⟨_, rfl⟩
  · rename_i hok
    rw [Bool.not_eq_true', Bool.not_eq_false] at hok
    split
    · exact .inl ⟨_, rfl⟩
    · exact .inr ⟨rfl, admits_isOk hok⟩

theorem reset_cases (c : LiveController R) (seed : UInt64) (referenceRms : R) :
    (c.reset seed referenceRms).1 = c ∧ (c.reset seed referenceRms).2.isOk = false ∨
      (c.reset seed referenceRms).1.queue = ⟨true, 0, [], [], 0, 0⟩ ∧
        (c.reset seed referenceRms).2.isOk = true := by
  unfold reset
  split
  · exact .inl ⟨rfl, rfl⟩
  · exact .inr ⟨rfl, rfl⟩

end LiveController

/-! ## Every run -/

/-- A call of the controller's owner. -/
inductive LiveCall (R : Type)
  | reset (seed : UInt64) (referenceRms : R)
  | enqueue (event : ControlEvent R)
  | enqueueSweep (sweep : ControlSweep R)
  | processPcm16 (block : LiveController.Block Int16)
  | processFloat (block : LiveController.Block R)

/-- A controller with the events it accepted and what it did with them since its last reset. -/
structure LiveRun (R : Type) [Det R] where
  controller : LiveController R := {}
  accepted : List (ControlEvent R) := []
  acts : List (Act R) := []

namespace LiveRun

variable [Det R]

def call (run : LiveRun R) : LiveCall R → LiveRun R
  | .reset seed referenceRms =>
    let result := run.controller.reset seed referenceRms
    if result.2.isOk then { controller := result.1 } else { run with controller := result.1 }
  | .enqueue event =>
    let result := run.controller.enqueue event
    { run with
      controller := result.1
      accepted := run.accepted ++ if result.2.isOk then [event] else [] }
  | .enqueueSweep sweep =>
    let result := run.controller.enqueueSweep sweep
    { run with
      controller := result.1
      accepted := run.accepted ++
        if result.2.isOk then (List.range sweep.count).map sweep.event else [] }
  | .processPcm16 block =>
    let result := run.controller.processPcm16 block
    { run with controller := result.controller, acts := run.acts ++ result.acts }
  | .processFloat block =>
    let result := run.controller.processFloat block
    { run with controller := result.controller, acts := run.acts ++ result.acts }

/-- The calls in order, from a controller that was just built. -/
def calls (calls : List (LiveCall R)) : LiveRun R := calls.foldl call {}

/-- The frames produced since the last reset. -/
def frames (run : LiveRun R) : Nat := run.controller.stats.frames.toNat

structure Live (run : LiveRun R) : Prop where
  order : run.controller.queue.InOrder run.frames
  capture : run.controller.capture = run.accepted
  acts : run.acts = timeline run.accepted 0 run.frames

theorem Live.process {run : LiveRun R} (h : run.Live) {X : Type}
    (path : LiveController.SamplePath R X) (pcm : List X)
    (hroom : run.frames + pcm.length < 2 ^ 64) :
    ({ run with
       controller := (run.controller.processBlock path pcm).1
       acts := run.acts ++ (run.controller.processBlock path pcm).2.2 } : LiveRun R).Live := by
  obtain ⟨horder, hcapture, hframes, hacts⟩ :=
    LiveController.processBlock_spec path run.controller pcm h.order hroom
  refine ⟨horder, hcapture.trans h.capture, ?_⟩
  have hnow : run.controller.queue.capture = run.accepted := h.capture
  have hsplit := timeline_append run.accepted 0 run.frames pcm.length
  rw [Nat.zero_add] at hsplit
  rw [hnow] at hacts
  show run.acts ++ _ = timeline run.accepted 0 (UInt64.toNat _)
  rw [h.acts, hacts]
  exact hsplit.symm.trans (congrArg (timeline run.accepted 0) hframes.symm)

/-- Accepted events join the run at the end of the accepted ones. -/
theorem Live.accept {run : LiveRun R} (h : run.Live) {c : LiveController R}
    {events : List (ControlEvent R)} (horder : c.queue.InOrder run.frames)
    (hcapture : c.queue.capture = run.controller.capture ++ events)
    (hframes : c.queue.frames = run.controller.queue.frames)
    (hlate : ∀ event ∈ events, run.frames ≤ event.frame.toNat) :
    ({ run with controller := c, accepted := run.accepted ++ events } : LiveRun R).Live := by
  have hclock : c.stats.frames.toNat = run.frames := congrArg UInt64.toNat hframes
  refine ⟨?_, ?_, ?_⟩
  · show c.queue.InOrder c.stats.frames.toNat
    rwa [hclock]
  · exact hcapture.trans (congrArg (· ++ events) h.capture)
  · show run.acts = timeline _ 0 c.stats.frames.toNat
    rw [hclock, timeline_later run.accepted hlate, h.acts]

theorem inOrder_empty (configured : Bool) :
    (⟨configured, 0, [], [], 0, 0⟩ : Queue R).InOrder 0 := by
  refine ⟨.nil, fun place => ?_, rfl, rfl, Nat.zero_le _, Nat.zero_le _⟩
  exact ⟨fun h => absurd h List.not_mem_nil, fun h => absurd h.1 (Nat.not_lt_zero _)⟩

theorem Live.initial : ({} : LiveRun R).Live := ⟨inOrder_empty false, rfl, rfl⟩

theorem Live.call {run : LiveRun R} (h : run.Live) (call : LiveCall R) :
    (run.call call).Live := by
  cases call with
  | reset seed referenceRms =>
    obtain ⟨hsame, hbad⟩ | ⟨hqueue, hok⟩ := run.controller.reset_cases seed referenceRms
    · rw [LiveRun.call]
      simp only [hbad, hsame, Bool.false_eq_true, if_false]
      exact h
    · rw [LiveRun.call]
      simp only [hok, if_true]
      have hcapture := congrArg Queue.capture hqueue
      have hclock : (run.controller.reset seed referenceRms).1.stats.frames.toNat = 0 :=
        congrArg (·.frames.toNat) hqueue
      refine ⟨?_, hcapture, ?_⟩
      · show (run.controller.reset seed referenceRms).1.queue.InOrder
          (run.controller.reset seed referenceRms).1.stats.frames.toNat
        rw [hclock, hqueue]
        exact inOrder_empty true
      · show [] = timeline [] 0 (run.controller.reset seed referenceRms).1.stats.frames.toNat
        rw [hclock]
        rfl
  | enqueue event =>
    obtain ⟨status, hcall, hbad⟩ | ⟨hcall, hframe, hpending, hcapture⟩ :=
      run.controller.enqueue_cases event
    · rw [LiveRun.call, hcall]
      simp only [hbad, Bool.false_eq_true, if_false, List.append_nil]
      exact h
    · rw [LiveRun.call, hcall]
      have hinsert := LiveController.insert_spec h.order hframe
        (h.order.pendingRoom.lt_of_ne hpending) (h.order.captureRoom.lt_of_ne hcapture)
      exact h.accept hinsert rfl rfl fun e he => List.mem_singleton.mp he ▸ hframe
  | enqueueSweep sweep =>
    obtain ⟨status, hcall, hbad⟩ | ⟨hcall, hframes, hpending, hcapture⟩ :=
      run.controller.enqueueSweep_cases sweep
    · rw [LiveRun.call, hcall]
      simp only [hbad, Bool.false_eq_true, if_false, List.append_nil]
      exact h
    · rw [LiveRun.call, hcall]
      have hlength : ((List.range sweep.count).map sweep.event).length = sweep.count := by
        rw [List.length_map, List.length_range]
      have hpendingRoom : run.controller.pending.length ≤ livePendingCapacity :=
        h.order.pendingRoom
      have hcaptureRoom : run.controller.capture.length ≤ liveCaptureCapacity :=
        h.order.captureRoom
      obtain ⟨hin, hcapt, hfr⟩ := LiveController.insertAll_spec _ h.order hframes
        (by rw [hlength]; omega) (by rw [hlength]; omega)
      exact h.accept hin hcapt hfr hframes
  | processPcm16 block =>
    obtain ⟨status, hcall⟩ | ⟨hcall, hroom⟩ := run.controller.processPcm16_cases block
    · rw [LiveRun.call, hcall]
      simp only [List.append_nil]
      exact h
    · rw [LiveRun.call, hcall]
      exact h.process _ block.pcm hroom
  | processFloat block =>
    obtain ⟨status, hcall⟩ | ⟨hcall, hroom⟩ := run.controller.processFloat_cases block
    · rw [LiveRun.call, hcall]
      simp only [List.append_nil]
      exact h
    · rw [LiveRun.call, hcall]
      exact h.process _ block.pcm hroom

theorem live_calls (history : List (LiveCall R)) : (calls history).Live := by
  have hfold : ∀ (history : List (LiveCall R)) (run : LiveRun R), run.Live →
      (history.foldl call run).Live := by
    intro history
    induction history with
    | nil => exact fun run h => h
    | cons call history ih => exact fun run h => ih _ (h.call call)
  exact hfold history {} .initial

/-- What a run has done with the events it accepted. -/
structure Applied (run : LiveRun R) : Prop where
  captured : run.controller.capture = run.accepted
  sorted : run.controller.pending.Pairwise run.controller.queue.Earlier
  waiting : ∀ place, place ∈ run.controller.pending ↔
    place < run.accepted.length ∧ run.frames ≤ run.controller.queue.frameAt place
  inTime : run.acts = timeline run.accepted 0 run.frames
  once : (run.acts.filterMap Act.applied).Perm
    ((run.accepted.filter fun event => decide (event.frame.toNat < run.frames)).map
      fun event => (event.frame, event))
  accepted : run.controller.stats.controlsAccepted.toNat = run.accepted.length
  applied : run.controller.stats.controlsApplied.toNat =
    run.accepted.countP (·.frame.toNat < run.frames)

end LiveRun

end WaveformGenerator.SignalLab
