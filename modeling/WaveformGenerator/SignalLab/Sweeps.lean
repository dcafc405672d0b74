import WaveformGenerator.SignalLab.LiveTimeline

/-!
# Sweeps

`enqueue_sweep` either does what `enqueue` does with the events of the sweep one by one, all of them
accepted, or changes nothing.
-/

namespace WaveformGenerator.SignalLab

variable {R : Type} [Det R]

namespace LiveController

/-- `enqueue`, event after event: the controller behind them and their answers. -/
def enqueueEach (c : LiveController R) : List (ControlEvent R) → LiveController R × List Status
  | [] => (c, [])
  | event :: events =>
    let first := c.enqueue event
    let rest := first.1.enqueueEach events
    (rest.1, first.2 :: rest.2)

theorem validate_insert (c : LiveController R) (inserted event : ControlEvent R) :
    (c.insert inserted).validate event = c.validate event := rfl

theorem length_pending_insert (c : LiveController R) (event : ControlEvent R) :
    (c.insert event).pending.length = c.pending.length + 1 :=
  (Insertion.insertBack_perm _ c.capture.length c.pending).length_eq

theorem capture_insert (c : LiveController R) (event : ControlEvent R) :
    (c.insert event).capture = c.capture ++ [event] := rfl

theorem capture_insertAll (c : LiveController R) (events : List (ControlEvent R)) :
    (c.insertAll events).capture = c.capture ++ events := by
  induction events generalizing c with
  | nil => exact (List.append_nil _).symm
  | cons event events ih =>
    rw [insertAll, ih, capture_insert, List.append_assoc]
    rfl

theorem valid_of_validateAll {c : LiveController R} {events : List (ControlEvent R)}
    (h : (c.validateAll events).isOk = true) :
    ∀ event ∈ events, (c.validate event).isOk = true := by
  induction events with
  | nil => exact fun event hevent => absurd hevent List.not_mem_nil
  | cons event events ih =>
    rw [validateAll] at h
    cases hvalid : (c.validate event).isOk with
    | false => simp [hvalid] at h
    | true =>
      simp only [hvalid, Bool.not_true, Bool.false_eq_true, if_false] at h
      intro e he
      rcases List.mem_cons.mp he with rfl | he
      · exact hvalid
      · exact ih h e he

theorem enqueue_of_valid {c : LiveController R} {event : ControlEvent R}
    (hvalid : (c.validate event).isOk = true) (hpending : c.pending.length < livePendingCapacity)
    (hcapture : c.capture.length < liveCaptureCapacity) :
    c.enqueue event = (c.insert event, .success) := by
  simp [enqueue, hvalid, Nat.ne_of_lt hpending, Nat.ne_of_lt hcapture]

/-- Valid events that there is room for are accepted one by one. -/
theorem enqueueEach_of_valid {c : LiveController R} {events : List (ControlEvent R)}
    (hvalid : ∀ event ∈ events, (c.validate event).isOk = true)
    (hpending : c.pending.length + events.length ≤ livePendingCapacity)
    (hcapture : c.capture.length + events.length ≤ liveCaptureCapacity) :
    c.enqueueEach events = (c.insertAll events, events.map fun _ => Status.success) := by
  induction events generalizing c with
  | nil => rfl
  | cons event events ih =>
    rw [List.length_cons] at hpending hcapture
    have hfirst := enqueue_of_valid (hvalid event List.mem_cons_self) (by omega) (by omega)
    have hrest := ih (c := c.insert event)
      (fun e he => (validate_insert c event e).symm ▸ hvalid e (List.mem_cons_of_mem _ he))
      (by rw [length_pending_insert]; omega)
      (by rw [capture_insert, List.length_append, List.length_singleton]; omega)
    rw [enqueueEach, hfirst]
    dsimp only
    rw [hrest]
    rfl

end LiveController

namespace ControlSweep

variable {sweep : ControlSweep R}

/-- The first of the refusals of `enqueueSweep` did not fire: every step lies on the timeline. -/
theorem frame_event (hcount : sweep.count ≤ liveSweepCapacity)
    (hfits : ¬(unboundedFrames - sweep.firstFrame) / sweep.stepFrames <
      UInt64.ofNat (sweep.count - 1)) {index : Nat} (hindex : index < sweep.count) :
    sweep.firstFrame.toNat + index * sweep.stepFrames.toNat < 2 ^ 64 ∧
      (sweep.event index).frame.toNat =
        sweep.firstFrame.toNat + index * sweep.stepFrames.toNat := by
  have hcapacity : liveSweepCapacity = 16 := rfl
  have hfirst := sweep.firstFrame.toNat_lt
  have hall : unboundedFrames.toNat = 2 ^ 64 - 1 := rfl
  have hroom : (unboundedFrames - sweep.firstFrame).toNat = 2 ^ 64 - 1 - sweep.firstFrame.toNat := by
    rw [UInt64.toNat_sub_of_le, hall]
    rw [UInt64.le_iff_toNat_le, hall]
    omega
  have hword (n : Nat) (hn : n ≤ sweep.count) : (UInt64.ofNat n).toNat = n := by
    rw [UInt64.toNat_ofNat']
    exact Nat.mod_eq_of_lt (by omega)
  rw [UInt64.not_lt, UInt64.le_iff_toNat_le, UInt64.toNat_div, hroom,
    hword _ (Nat.sub_le _ _)] at hfits
  have hproduct : index * sweep.stepFrames.toNat ≤ 2 ^ 64 - 1 - sweep.firstFrame.toNat :=
    Nat.mul_le_of_le_div _ _ _ (by omega)
  have hlt : sweep.firstFrame.toNat + index * sweep.stepFrames.toNat < 2 ^ 64 := by omega
  refine ⟨hlt, ?_⟩
  show (sweep.firstFrame + UInt64.ofNat index * sweep.stepFrames).toNat = _
  rw [UInt64.toNat_add, UInt64.toNat_mul, hword _ hindex.le,
    Nat.mod_eq_of_lt (by omega : index * sweep.stepFrames.toNat < 2 ^ 64), Nat.mod_eq_of_lt hlt]

def events (sweep : ControlSweep R) : List (ControlEvent R) :=
  (List.range sweep.count).map sweep.event

/-- What an accepted sweep left behind: the controller after its events one by one, each accepted
for the frame it names. -/
structure Enqueued (c : LiveController R) (sweep : ControlSweep R) (after : LiveController R) :
    Prop where
  oneByOne : c.enqueueEach sweep.events = (after, sweep.events.map fun _ => .success)
  captured : after.capture = c.capture ++ sweep.events
  pending : after.pending.length = c.pending.length + sweep.count
  frames : ∀ index < sweep.count,
    sweep.firstFrame.toNat + index * sweep.stepFrames.toNat < 2 ^ 64 ∧
      (sweep.event index).frame.toNat = sweep.firstFrame.toNat + index * sweep.stepFrames.toNat

end ControlSweep

namespace LiveController

theorem length_pending_insertAll (c : LiveController R) (events : List (ControlEvent R)) :
    (c.insertAll events).pending.length = c.pending.length + events.length := by
  induction events generalizing c with
  | nil => rfl
  | cons event events ih =>
    rw [insertAll, ih, length_pending_insert, List.length_cons]
    omega

theorem enqueueSweep_spec (c : LiveController R) (sweep : ControlSweep R) :
    (∃ status, status.isOk = false ∧ c.enqueueSweep sweep = (c, status)) ∨
      ∃ after, c.enqueueSweep sweep = (after, .success) ∧ sweep.Enqueued c after := by
  rw [enqueueSweep]
  split
  · exact .inl ⟨_, rfl, rfl⟩
  split
  · exact .inl ⟨_, rfl, rfl⟩
  rename_i hwell
  simp only [not_or] at hwell
  obtain ⟨hsome, hcount, -, -, hfits⟩ := hwell
  dsimp only
  split
  · rename_i hbad
    exact .inl ⟨_, Bool.not_eq_true' _ ▸ hbad, rfl⟩
  rename_i hok
  rw [Bool.not_eq_true', Bool.not_eq_false] at hok
  split
  · exact .inl ⟨_, rfl, rfl⟩
  rename_i hpending
  split
  · exact .inl ⟨_, rfl, rfl⟩
  rename_i hcapture
  have hlength : sweep.events.length = sweep.count := by
    rw [ControlSweep.events, List.length_map, List.length_range]
  refine .inr ⟨_, rfl, ?_, ?_, ?_, fun index hindex => ?_⟩
  · exact enqueueEach_of_valid (valid_of_validateAll hok) (by omega) (by omega)
  · exact capture_insertAll c sweep.events
  · exact (length_pending_insertAll c sweep.events).trans (congrArg _ hlength)
  · exact ControlSweep.frame_event (Nat.not_lt.mp hcount) hfits hindex

end LiveController

/-- A sweep is enqueued whole, as its events one by one would be, or it changes nothing; and no run
of calls brings more events than the lists have room for. -/
theorem LiveRun.enqueueSweep_atomic :
    (∀ (c : LiveController R) (sweep : ControlSweep R),
      (∃ status, status.isOk = false ∧ c.enqueueSweep sweep = (c, status)) ∨
        ∃ after, c.enqueueSweep sweep = (after, .success) ∧ sweep.Enqueued c after) ∧
    ∀ history : List (LiveCall R),
      (calls history).controller.pending.length ≤ livePendingCapacity ∧
        (calls history).controller.capture.length ≤ liveCaptureCapacity := by
  refine ⟨fun c sweep => c.enqueueSweep_spec sweep, fun history => ?_⟩
  have hrun := live_calls history
  exact ⟨hrun.order.pendingRoom, hrun.order.captureRoom⟩

end WaveformGenerator.SignalLab
