import WaveformGenerator.Usb.Ep0Order

/-!
# SETUPs keep their order

`waiting` is what the hold is for: the SETUPs the filter owes TinyUSB, oldest first. `Routes` says
what one call in an interrupt can do to it, and `Follows` what a row of calls can.
-/

namespace WaveformGenerator.Usb

namespace Ep0Order

/-- The calls that will pass the held SETUPs on, oldest first. -/
def waiting (order : Ep0Order) : List DcdCall :=
  (Ring.segment order.held order.first order.count).map fun setup => ⟨.setupReceived setup, true⟩

@[simp] theorem length_waiting (order : Ep0Order) : order.waiting.length = order.count := by
  simp [waiting]

theorem waiting_eq_nil {order : Ep0Order} : order.waiting = [] ↔ order.count = 0 := by
  rw [← List.length_eq_zero_iff, length_waiting]

theorem isSetup_of_mem_waiting {order : Ep0Order} {call : DcdCall} (h : call ∈ order.waiting) :
    call.isSetup = true := by
  obtain ⟨setup, _, rfl⟩ := List.mem_map.mp h
  rfl

@[simp] theorem filter_waiting (order : Ep0Order) :
    order.waiting.filter DcdCall.isSetup = order.waiting :=
  List.filter_eq_self.mpr fun _ => isSetup_of_mem_waiting

@[simp] theorem filter_not_waiting (order : Ep0Order) :
    order.waiting.filter (fun call => !call.isSetup) = [] := by
  rw [List.filter_eq_nil_iff]
  intro call hcall
  simp [isSetup_of_mem_waiting hcall]

@[simp] theorem waiting_begin (order : Ep0Order) : order.begin.waiting = order.waiting := rfl

@[simp] theorem waiting_completion (order : Ep0Order) :
    order.completion.waiting = order.waiting := by
  unfold completion
  split <;> rfl

@[simp] theorem waiting_releasing (order : Ep0Order) (pending : Ep0Pending) :
    (order.releasing pending).waiting = order.waiting := by
  unfold releasing
  split <;> rfl

@[simp] theorem waiting_anotherPass (order : Ep0Order) (pending : Ep0Pending) :
    (order.anotherPass pending).2.waiting = order.waiting := by
  unfold anotherPass
  split
  · rfl
  · split <;> rfl

theorem hold_of_not_active {order : Ep0Order} (h : order.active = false) (setup : Setup) :
    order.hold setup = (notInInterrupt, order) := by
  unfold hold
  rw [h]
  rfl

/-- A hold with room keeps the SETUP behind those it has. -/
theorem hold_of_room {order : Ep0Order} (hactive : order.active = true)
    (hroom : order.count < holdCapacity) (setup : Setup) :
    (order.hold setup).1 = .success ∧
      (order.hold setup).2.waiting = order.waiting ++ [⟨.setupReceived setup, true⟩] := by
  unfold hold
  rw [hactive, dif_neg (Nat.ne_of_lt hroom)]
  refine ⟨rfl, ?_⟩
  have hstore := Ring.segment_store order.held order.first hroom setup
  exact (congrArg (List.map _) hstore).trans (by simp [waiting])

/-- The oldest SETUP leaves the hold. -/
theorem waiting_of_release {order after : Ep0Order} {setup : Setup}
    (h : order.release = (some setup, after)) :
    order.waiting = ⟨.setupReceived setup, true⟩ :: after.waiting := by
  unfold release at h
  split at h
  · cases h
  case isFalse hne =>
    cases h
    obtain ⟨n, hn⟩ := Nat.exists_eq_succ_of_ne_zero hne
    have holdest : Ring.item order.held order.first =
        order.held.get ⟨order.first, order.first_lt⟩ := by
      have hfirst : order.first % 3 = order.first := Nat.mod_eq_of_lt order.first_lt
      simp only [Ring.item, Fin.getElem_fin, Fin.val_ofNat, hfirst]
      rfl
    have hrest : Ring.segment order.held (order.first + 1) n =
        Ring.segment order.held ((order.first + 1) % holdCapacity) n :=
      Ring.segment_congr _ (Nat.mod_mod _ _).symm n
    simp only [waiting, hn, Nat.succ_eq_add_one, Nat.add_sub_cancel, Ring.segment_cons, holdest,
      hrest, List.map_cons]

theorem eq_of_release_none {order after : Ep0Order} (h : order.release = (none, after)) :
    order.waiting = [] ∧ after = order := by
  unfold release at h
  split at h
  case isTrue hcount =>
    cases h
    exact ⟨waiting_eq_nil.mpr hcount, rfl⟩
  · cases h

theorem active_release (order : Ep0Order) :
    order.release.2.active = order.active ∧ order.release.2.counters = order.counters := by
  unfold release
  split <;> exact ⟨rfl, rfl⟩

/-- The glue's release loop passes on everything held, and nothing else changes. -/
theorem releaseSetups_spec (order : Ep0Order) :
    order.releaseSetups.2 = order.waiting ∧ order.releaseSetups.1.waiting = [] ∧
      order.releaseSetups.1.active = order.active ∧
      order.releaseSetups.1.counters = order.counters := by
  fun_induction releaseSetups order with
  | case1 order after h =>
    obtain ⟨hnil, rfl⟩ := eq_of_release_none h
    exact ⟨hnil.symm, hnil, rfl, rfl⟩
  | case2 order setup after h last forwarded heq ih =>
    rw [heq] at ih
    obtain ⟨hforwarded, hnil, hactive, hcounters⟩ := ih
    have hkept := order.active_release
    rw [h] at hkept
    refine ⟨?_, hnil, hactive.trans hkept.1, hcounters.trans hkept.2⟩
    exact (congrArg (_ :: ·) hforwarded).trans (waiting_of_release h).symm

theorem active_completion (order : Ep0Order) : order.completion.active = order.active := by
  unfold completion
  split <;> rfl

theorem active_releasing (order : Ep0Order) (pending : Ep0Pending) :
    (order.releasing pending).active = order.active := by
  unfold releasing
  split <;> rfl

theorem active_hold (order : Ep0Order) (setup : Setup) :
    (order.hold setup).2.active = order.active := by
  unfold hold
  split
  · rfl
  · split <;> rfl

theorem active_anotherPass (order : Ep0Order) (pending : Ep0Pending) :
    (order.anotherPass pending).2.active = order.active := by
  unfold anotherPass
  split
  · rfl
  · split <;> rfl

/-- Everything held goes ahead of the event, whether or not anything is. -/
theorem releaseBeforeEvent_spec (order : Ep0Order) (pending : Ep0Pending) :
    (order.releaseBeforeEvent pending).2 = order.waiting ∧
      (order.releaseBeforeEvent pending).1.waiting = [] ∧
      (order.releaseBeforeEvent pending).1.active = order.active ∧
      (order.releaseBeforeEvent pending).1.counters =
        if order.holding then (order.releasing pending).counters else order.counters := by
  unfold releaseBeforeEvent
  cases hholding : order.holding with
  | false =>
    have hnil : order.waiting = [] := waiting_eq_nil.mpr (by simpa [holding] using hholding)
    exact ⟨hnil.symm, hnil, rfl, rfl⟩
  | true =>
    obtain ⟨hforwarded, hnil, hactive, hcounters⟩ := (order.releasing pending).releaseSetups_spec
    exact ⟨hforwarded.trans (order.waiting_releasing pending), hnil,
      hactive.trans (order.active_releasing pending), hcounters⟩

end Ep0Order

/-! ## One call -/

/-- The call's routing counted a release as unordered. -/
def Routed.Counted (step : Routed) : Prop :=
  step.after.counters.unordered = step.before.counters.unordered + 1

/-- What a call in an interrupt can do, its SETUP finding room. -/
inductive Routes (step : Routed) : Prop
  /-- A SETUP waits. -/
  | held : step.call.isSetup = true → (∃ setup, step.call.event = .setupReceived setup ∧
      (step.before.hold setup).1 = .success) → step.forwarded = [] →
      step.after.waiting = step.before.waiting ++ [step.call] → Routes step
  /-- An EP0 completion or a SOF goes on at once. -/
  | ahead : step.call.isSetup = false → step.call.event.isOther = false →
      step.forwarded = [step.call] → step.after.waiting = step.before.waiting → Routes step
  /-- Any other event goes on behind what is held. -/
  | behind : step.call.isSetup = false → step.call.event.isEp0Completion = false →
      step.forwarded = step.before.waiting ++ [step.call] → step.after.waiting = [] →
      (step.before.waiting ≠ [] → step.pending = .completion → step.Counted) → Routes step

namespace Ep0Order

theorem isSetup_eq_false {event : DcdEvent} (h : ∀ setup, event ≠ .setupReceived setup) :
    event.isSetup = false := by
  cases event with
  | setupReceived setup => exact absurd rfl (h setup)
  | _ => rfl

theorem routes {order : Ep0Order} (hactive : order.active = true) (event : DcdEvent)
    (hroom : event.isSetup = true → order.count < holdCapacity) (pending : Ep0Pending) :
    Routes (order.route ⟨event, true⟩ pending) ∧
      (order.route ⟨event, true⟩ pending).after.active = true := by
  unfold route routeEvent
  dsimp only
  rw [if_neg (by simp)]
  split
  case h_1 setup =>
    obtain ⟨hstatus, hwaiting⟩ := hold_of_room hactive (hroom rfl) setup
    rw [if_neg (by simp [hstatus])]
    exact ⟨.held rfl ⟨setup, rfl, hstatus⟩ rfl hwaiting, (active_hold ..).trans hactive⟩
  case h_2 hsetup =>
    have hevent := isSetup_eq_false hsetup
    cases hcompletion : event.isEp0Completion with
    | true =>
      exact ⟨.ahead hevent (by simp [DcdEvent.isOther, hcompletion]) rfl
        order.waiting_completion, order.active_completion.trans hactive⟩
    | false =>
      cases hsof : event.isSof with
      | true => exact ⟨.ahead hevent (by simp [DcdEvent.isOther, hsof]) rfl rfl, hactive⟩
      | false =>
        obtain ⟨hforwarded, hnil, hkept, hcounters⟩ := order.releaseBeforeEvent_spec pending
        refine ⟨.behind hevent hcompletion (congrArg (· ++ _) hforwarded) hnil ?_,
          hkept.trans hactive⟩
        intro hheld hpending
        have hcount : order.count ≠ 0 := mt waiting_eq_nil.mpr hheld
        subst hpending
        refine (congrArg Counters.unordered hcounters).trans ?_
        simp [holding, releasing, hactive, hcount, countUnordered]

end Ep0Order
end WaveformGenerator.Usb
