import WaveformGenerator.Usb.Ep0Ordering

/-!
# EP0 events through whole interrupts

Within an interrupt the calls change only what waits; the passes ask for at most as many SETUPs as
the hold has room for; the interrupt's end lets the rest go. A run is any row of interrupts and of
calls outside them.
-/

namespace WaveformGenerator.Usb

/-! ## Rows of calls -/

/-- A row of calls in an interrupt, from what waits before the first to what waits after the
last. -/
inductive Follows : List DcdCall → List Routed → List DcdCall → Prop
  | nil : Follows waiting [] waiting
  | cons : Routes step → Follows step.after.waiting steps waiting →
    Follows step.before.waiting (step :: steps) waiting

theorem Routes.setups {step : Routed} (h : Routes step) :
    step.forwarded.filter DcdCall.isSetup ++ step.after.waiting =
      step.before.waiting ++ [step.call].filter DcdCall.isSetup := by
  cases h with
  | held hsetup _ hforwarded hwaiting => simp [hforwarded, hwaiting, hsetup]
  | ahead hsetup _ hforwarded hwaiting => simp [hforwarded, hwaiting, hsetup]
  | behind hsetup _ hforwarded hwaiting => simp [hforwarded, hwaiting, hsetup]

theorem Routes.others {step : Routed} (h : Routes step) :
    step.forwarded.filter (fun call => !call.isSetup) =
      [step.call].filter (fun call => !call.isSetup) := by
  cases h with
  | held hsetup _ hforwarded _ => simp [hforwarded, hsetup]
  | ahead _ _ hforwarded _ => rw [hforwarded]
  | behind _ _ hforwarded _ => simp [hforwarded]

namespace Follows

theorem append {waiting middle last : List DcdCall} {steps steps' : List Routed}
    (h : Follows waiting steps middle) (h' : Follows middle steps' last) :
    Follows waiting (steps ++ steps') last := by
  induction h with
  | nil => exact h'
  | cons hstep _ ih => exact .cons hstep (ih h')

theorem split {waiting last : List DcdCall} {pre post : List Routed} {step : Routed}
    (h : Follows waiting (pre ++ step :: post) last) :
    Follows waiting pre step.before.waiting ∧ Routes step := by
  induction pre generalizing waiting with
  | nil =>
    cases h with
    | cons hstep _ => exact ⟨.nil, hstep⟩
  | cons first pre ih =>
    cases h with
    | cons hfirst hrest =>
      obtain ⟨hpre, hstep⟩ := ih hrest
      exact ⟨.cons hfirst hpre, hstep⟩

/-- SETUPs reported go on or wait, in the order they came. -/
theorem setups {waiting last : List DcdCall} {steps : List Routed}
    (h : Follows waiting steps last) :
    (steps.flatMap (·.forwarded)).filter DcdCall.isSetup ++ last =
      waiting ++ (steps.map (·.call)).filter DcdCall.isSetup := by
  induction h with
  | nil => simp
  | @cons step steps last hstep _ ih =>
    rw [List.flatMap_cons, List.filter_append, List.append_assoc, ih, ← List.append_assoc,
      hstep.setups, List.append_assoc, ← List.filter_append]
    rfl

theorem others {waiting last : List DcdCall} {steps : List Routed}
    (h : Follows waiting steps last) :
    (steps.flatMap (·.forwarded)).filter (fun call => !call.isSetup) =
      (steps.map (·.call)).filter (fun call => !call.isSetup) := by
  induction h with
  | nil => rfl
  | @cons step steps last hstep _ ih =>
    rw [List.flatMap_cons, List.filter_append, ih, hstep.others, ← List.filter_append]
    rfl

end Follows

theorem DcdEvent.not_isEp0Completion {event : DcdEvent} (h : event.isSetup = true) :
    event.isEp0Completion = false := by
  cases event with
  | setupReceived setup => rfl
  | _ => cases h

/-! ## Passes -/

def reportedSetups (reports : List (DcdEvent × Ep0Pending)) : Nat :=
  reports.countP fun report => report.1.isSetup

/-- The driver reads ENDPTSETUPSTAT once per pass. -/
def Pass.OneSetup (pass : Pass) : Prop := reportedSetups pass.reports ≤ 1

namespace Ep0Order

/-- Only a SETUP makes the hold longer. -/
theorem count_route {order : Ep0Order} (hactive : order.active = true) (event : DcdEvent)
    (hroom : event.isSetup = true → order.count < holdCapacity) (pending : Ep0Pending) :
    (order.route ⟨event, true⟩ pending).after.count ≤
      order.count + if event.isSetup then 1 else 0 := by
  have hbefore : (order.route ⟨event, true⟩ pending).before.waiting.length = order.count :=
    length_waiting _
  rw [← length_waiting, ← hbefore]
  cases (routes hactive event hroom pending).1 with
  | held hsetup _ _ hwaiting =>
    have hevent : event.isSetup = true := hsetup
    simp [hwaiting, hevent]
  | ahead _ _ _ hwaiting => simp [hwaiting]
  | behind _ _ _ hwaiting => simp [hwaiting]

theorem follows_runPass {order : Ep0Order} (hactive : order.active = true)
    (reports : List (DcdEvent × Ep0Pending))
    (hroom : order.count + reportedSetups reports ≤ holdCapacity) :
    Follows order.waiting (order.runPass reports).1 (order.runPass reports).2.waiting ∧
      (order.runPass reports).2.active = true ∧
      (order.runPass reports).2.count ≤ order.count + reportedSetups reports := by
  induction reports generalizing order with
  | nil => exact ⟨.nil, hactive, Nat.le_refl _⟩
  | cons report reports ih =>
    obtain ⟨event, pending⟩ := report
    have hsetups : reportedSetups ((event, pending) :: reports) =
        reportedSetups reports + if event.isSetup then 1 else 0 := List.countP_cons
    have hevent : event.isSetup = true → order.count < holdCapacity := by
      intro h
      rw [hsetups, if_pos h] at hroom
      omega
    obtain ⟨hroutes, hstill⟩ := routes hactive event hevent pending
    have hcount := count_route hactive event hevent pending
    obtain ⟨hrest, hlast, hsum⟩ := ih hstill (by omega)
    exact ⟨.cons hroutes hrest, hlast, by simp only [runPass]; omega⟩

/-- The passes leave room: pass `p` starts with at most `p` SETUPs held. -/
theorem follows_runPasses {order : Ep0Order} (env : Nat → Pass) (i : Nat)
    (hactive : order.active = true) (hcount : order.count ≤ order.passes)
    (hone : ∀ i, (env i).OneSetup) :
    Follows order.waiting (order.runPasses env i).1 (order.runPasses env i).2.waiting := by
  fun_induction runPasses order env i with
  | case1 order i last h =>
    have hpass := hone i
    have hbound := order.passes_le
    obtain ⟨hrow, -, -⟩ := follows_runPass hactive (env i).reports
      (by unfold Pass.OneSetup at hpass; unfold holdCapacity; unfold maxExtraPasses at hbound; omega)
    have hkept := ((order.runPass (env i).reports).2).waiting_anotherPass (env i).pendingAfter
    rw [h] at hkept
    exact hkept ▸ hrow
  | case2 order i next h rest last heq ih =>
    have hpass : reportedSetups (env i).reports ≤ 1 := hone i
    have hbound : order.passes ≤ 2 := order.passes_le
    obtain ⟨hrow, hstill, hsum⟩ := follows_runPass hactive (env i).reports
      (by unfold holdCapacity; omega)
    have hkept := ((order.runPass (env i).reports).2).waiting_anotherPass (env i).pendingAfter
    have hactive' := ((order.runPass (env i).reports).2).active_anotherPass (env i).pendingAfter
    have hpasses := (passes_of_again h).2
    rw [passes_runPass] at hpasses
    rw [h] at hkept hactive'
    have hlength : next.count = (order.runPass (env i).reports).2.count := by
      rw [← length_waiting, ← length_waiting]
      exact congrArg List.length hkept
    have hmore := ih (hactive'.trans hstill) (by omega)
    rw [heq] at hmore
    exact hrow.append (hkept ▸ hmore)

end Ep0Order

/-! ## Runs -/

/-- What the controller shows is true: with no EP0 completion shown, none is still to be reported in
the interrupt. -/
def Log.Truthful (log : Log) : Prop :=
  log.routed.Pairwise fun step later =>
    step.pending = .none → later.call.event.isEp0Completion = false

/-- What the filter keeps of an interrupt's calls, or of a call outside one. -/
structure Log.Ordered (log : Log) : Prop where
  /-- Every SETUP goes on once, in the order they came. -/
  setups : log.forwarded.filter DcdCall.isSetup = log.reported.filter DcdCall.isSetup
  /-- So does every other event. -/
  others : log.forwarded.filter (fun call => !call.isSetup) =
    log.reported.filter (fun call => !call.isSetup)
  /-- An EP0 completion follows a SETUP only where the SETUP's release was counted. -/
  counted : ∀ pre step post, log.routed = pre ++ step :: post →
    (∃ call ∈ step.forwarded, call.isSetup = true) →
    (∃ later ∈ step :: post, later.call.event.isEp0Completion = true) → step.Counted
  /-- Any other event but a SOF goes on behind the SETUPs that came before it. -/
  behind : ∀ pre step post, log.routed = pre ++ step :: post → step.call.event.isOther = true →
    ∃ released, step.forwarded = released ++ [step.call] ∧
      (pre.flatMap (·.forwarded) ++ released).filter DcdCall.isSetup =
        (pre.map (·.call)).filter DcdCall.isSetup
  /-- No SETUP finds the hold full. -/
  room : ∀ step ∈ log.routed, ∀ setup, step.call.event = .setupReceived setup →
    (step.before.hold setup).1 ≠ holdFull

/-- The rows of an interrupt, its end letting go what still waits, are in order. -/
theorem Follows.ordered {routed : List Routed} {waiting : List DcdCall}
    (h : Follows [] routed waiting) (htruthful : (Log.mk routed waiting).Truthful)
    (hwaiting : ∀ call ∈ waiting, call.isSetup = true) : (Log.mk routed waiting).Ordered where
  setups := by
    have hfilter : waiting.filter DcdCall.isSetup = waiting := List.filter_eq_self.mpr hwaiting
    have hsetups := h.setups
    rw [List.nil_append] at hsetups
    simp only [Log.forwarded, Log.reported, List.filter_append, hfilter, hsetups]
  others := by
    have hfilter : waiting.filter (fun call => !call.isSetup) = [] := by
      rw [List.filter_eq_nil_iff]
      intro call hcall
      simp [hwaiting call hcall]
    simp only [Log.forwarded, Log.reported, List.filter_append, hfilter, h.others, List.append_nil]
  counted := by
    rintro pre step post hrouted ⟨call, hcall, hsetup⟩ ⟨later, hlater, hcompletion⟩
    obtain rfl : routed = pre ++ step :: post := hrouted
    obtain ⟨-, hstep⟩ := h.split
    have hpairs := (List.pairwise_append.mp htruthful).2.1
    cases hstep with
    | held _ _ hforwarded _ => simp [hforwarded] at hcall
    | ahead hnot _ hforwarded _ =>
      rw [hforwarded, List.mem_singleton] at hcall
      simp [hcall, hnot] at hsetup
    | behind hnot hne hforwarded _ hcounts =>
      have hheld : step.before.waiting ≠ [] := by
        intro hnil
        rw [hforwarded, hnil, List.nil_append, List.mem_singleton] at hcall
        simp [hcall, hnot] at hsetup
      refine hcounts hheld ?_
      rcases List.mem_cons.mp hlater with rfl | hpost
      · simp [hne] at hcompletion
      · cases hpending : step.pending with
        | completion => rfl
        | none =>
          have hnone := (List.pairwise_cons.mp hpairs).1 later hpost hpending
          simp [hnone] at hcompletion
  behind := by
    intro pre step post hrouted hother
    obtain rfl : routed = pre ++ step :: post := hrouted
    obtain ⟨hpre, hstep⟩ := h.split
    cases hstep with
    | held hsetup _ _ _ =>
      have hevent : step.call.event.isSetup = true := hsetup
      simp [DcdEvent.isOther, hevent] at hother
    | ahead _ hnot _ _ => simp [hnot] at hother
    | behind _ _ hforwarded _ _ =>
      refine ⟨step.before.waiting, hforwarded, ?_⟩
      rw [List.filter_append, Ep0Order.filter_waiting]
      exact hpre.setups
  room := by
    intro step hmem setup hevent
    obtain ⟨pre, post, hrouted⟩ := List.append_of_mem hmem
    obtain rfl : routed = pre ++ step :: post := hrouted
    cases h.split.2 with
    | held _ hheld _ _ =>
      obtain ⟨setup', hevent', hstatus⟩ := hheld
      cases hevent.symm.trans hevent'
      rw [hstatus]
      decide
    | ahead hsetup => simp [DcdCall.isSetup, hevent, DcdEvent.isSetup] at hsetup
    | behind hsetup => simp [DcdCall.isSetup, hevent, DcdEvent.isSetup] at hsetup

namespace Ep0Order

/-- Between interrupts nothing is held. -/
structure Idle (order : Ep0Order) : Prop where
  inactive : order.active = false
  empty : order.waiting = []

theorem ordered_runTinyusbPasses {order : Ep0Order} (hidle : order.Idle) (env : Nat → Pass)
    (hone : ∀ i, (env i).OneSetup) (htruthful : (order.runTinyusbPasses env).1.Truthful) :
    (order.runTinyusbPasses env).1.Ordered ∧ (order.runTinyusbPasses env).2.Idle := by
  have hrow := follows_runPasses env 0 (rfl : order.begin.active = true)
    (Nat.le_of_eq (waiting_eq_nil.mp hidle.empty)) hone
  rw [waiting_begin, hidle.empty] at hrow
  obtain ⟨hreleased, hnil, -, -⟩ := (order.begin.runPasses env 0).2.releaseSetups_spec
  rw [← hreleased] at hrow
  refine ⟨hrow.ordered htruthful ?_, ⟨rfl, hnil⟩⟩
  intro call hcall
  rw [hreleased] at hcall
  exact isSetup_of_mem_waiting hcall

/-- Outside an interrupt every call goes straight on. -/
theorem route_of_idle {order : Ep0Order} (hidle : order.Idle) (call : DcdCall)
    (pending : Ep0Pending) :
    (order.route call pending).forwarded = [call] ∧
      (order.route call pending).after.Idle := by
  obtain ⟨hforwarded, hnil, hactive, -⟩ := order.releaseSetups_spec
  rw [hidle.empty] at hforwarded
  unfold route routeEvent
  dsimp only
  split
  · exact ⟨rfl, hidle⟩
  · split
    · rw [hold_of_not_active hidle.inactive]
      exact ⟨by simp [notInInterrupt, Status.isOk, hforwarded],
        hactive.trans hidle.inactive, hnil⟩
    · obtain ⟨hbefore, hnil, hactive, -⟩ := order.releaseBeforeEvent_spec pending
      split
      · exact ⟨rfl, order.active_completion.trans hidle.inactive,
          order.waiting_completion.trans hidle.empty⟩
      · split
        · exact ⟨by simp [hbefore, hidle.empty], hactive.trans hidle.inactive, hnil⟩
        · exact ⟨rfl, hidle⟩

theorem ordered_call {order : Ep0Order} (hidle : order.Idle) (call : DcdCall)
    (pending : Ep0Pending) : (order.perform (.call call pending)).1.Ordered where
  setups := by
    have hforwarded := (route_of_idle hidle call pending).1
    simp only [perform, Log.forwarded, Log.reported, List.flatMap_singleton, hforwarded]
    rfl
  others := by
    have hforwarded := (route_of_idle hidle call pending).1
    simp only [perform, Log.forwarded, Log.reported, List.flatMap_singleton, hforwarded]
    rfl
  counted := by
    rintro pre step post hrouted ⟨passed, hpassed, hsetup⟩ ⟨later, hlater, hcompletion⟩
    rcases List.singleton_eq_append_iff.mp hrouted with ⟨-, h⟩ | ⟨-, h⟩
    · cases h
      rw [(route_of_idle hidle call pending).1, List.mem_singleton] at hpassed
      rw [List.mem_singleton] at hlater
      subst hpassed hlater
      have hevent : passed.event.isEp0Completion = true := hcompletion
      simp [DcdEvent.not_isEp0Completion hsetup] at hevent
    · cases h
  behind := by
    intro pre step post hrouted _
    rcases List.singleton_eq_append_iff.mp hrouted with ⟨rfl, h⟩ | ⟨-, h⟩
    · cases h
      exact ⟨[], (route_of_idle hidle call pending).1, rfl⟩
    · cases h
  room := by
    intro step hmem setup _
    obtain rfl := List.mem_singleton.mp hmem
    have hstatus := congrArg Prod.fst (hold_of_not_active hidle.inactive setup)
    have hidle : notInInterrupt ≠ holdFull := by decide
    exact fun h => hidle (hstatus.symm.trans h)

theorem ordered_perform {order : Ep0Order} (hidle : order.Idle) (activity : Activity)
    (hone : ∀ env, activity = .interrupt env → ∀ i, (env i).OneSetup)
    (htruthful : (order.perform activity).1.Truthful) :
    (order.perform activity).1.Ordered ∧ (order.perform activity).2.Idle := by
  cases activity with
  | interrupt env => exact ordered_runTinyusbPasses hidle env (hone env rfl) htruthful
  | call call pending =>
    exact ⟨ordered_call hidle call pending, (route_of_idle hidle call pending).2⟩

theorem ordered_run {order : Ep0Order} (hidle : order.Idle) (activities : List Activity)
    (hone : ∀ env, .interrupt env ∈ activities → ∀ i, (env i).OneSetup)
    (htruthful : ∀ log ∈ (order.run activities).1, log.Truthful) :
    (∀ log ∈ (order.run activities).1, log.Ordered) ∧ (order.run activities).2.Idle := by
  induction activities generalizing order with
  | nil => exact ⟨by simp [run], hidle⟩
  | cons activity activities ih =>
    simp only [run, List.forall_mem_cons] at htruthful ⊢
    obtain ⟨hfirst, hrest⟩ := htruthful
    obtain ⟨hordered, hafter⟩ := ordered_perform hidle activity
      (fun env h => hone env (h ▸ List.mem_cons_self)) hfirst
    obtain ⟨hlogs, hlast⟩ := ih hafter (fun env h => hone env (List.mem_cons_of_mem _ h)) hrest
    exact ⟨⟨hordered, hlogs⟩, hlast⟩

/-- What holds of each log's calls holds of the run's. -/
theorem filter_flatMap_congr {logs : List Log} {f g : Log → List DcdCall} {p : DcdCall → Bool}
    (h : ∀ log ∈ logs, (f log).filter p = (g log).filter p) :
    (logs.flatMap f).filter p = (logs.flatMap g).filter p := by
  rw [List.filter_flatMap, List.filter_flatMap]
  exact List.flatMap_congr h

/-- From its reset, over any row of interrupts and outside calls, the filter keeps each one's calls
in order and holds nothing after it. -/
theorem run_ep0_ordered (activities : List Activity)
    (hone : ∀ env, .interrupt env ∈ activities → ∀ i, (env i).OneSetup)
    (htruthful : ∀ log ∈ (({} : Ep0Order).run activities).1, log.Truthful) :
    let (logs, order) := ({} : Ep0Order).run activities
    (logs.flatMap (·.forwarded)).filter DcdCall.isSetup =
        (logs.flatMap (·.reported)).filter DcdCall.isSetup ∧
      (logs.flatMap (·.forwarded)).filter (fun call => !call.isSetup) =
        (logs.flatMap (·.reported)).filter (fun call => !call.isSetup) ∧
      (∀ log ∈ logs, log.Ordered) ∧ order.count = 0 := by
  obtain ⟨hlogs, hlast⟩ := ordered_run ⟨rfl, rfl⟩ activities hone htruthful
  exact ⟨filter_flatMap_congr fun log hlog => (hlogs log hlog).setups,
    filter_flatMap_congr fun log hlog => (hlogs log hlog).others, hlogs,
    waiting_eq_nil.mp hlast.empty⟩

/-- A SETUP with a completion still to come, which an extra pass reports; a SETUP let go early by a
bus reset; a call outside. -/
def exampleRun : List Activity :=
  [.interrupt fun
      | 0 => ⟨[(.setupReceived ⟨0, 1⟩, .completion)], .completion⟩
      | _ => ⟨[(.xferComplete 0 0x80 0 0, .none), (.sof 0 7, .none)], .none⟩,
    .interrupt fun
      | 0 => ⟨[(.setupReceived ⟨0, 2⟩, .completion)], .completion⟩
      | _ => ⟨[(.other 0 1 0, .completion), (.xferComplete 0 0 0 0, .none)], .none⟩,
    .call ⟨.other 0 2 0, false⟩ .none]

theorem run_ep0_ordered_exampleRun :
    (∀ log ∈ (({} : Ep0Order).run exampleRun).1, log.Ordered) ∧
      (({} : Ep0Order).run exampleRun).2.counters = ⟨1, 1⟩ := by
  refine ⟨(run_ep0_ordered exampleRun ?_ ?_).2.2.1, by decide +kernel⟩
  · intro env henv i
    simp only [exampleRun, List.mem_cons, Activity.interrupt.injEq, reduceCtorEq, List.not_mem_nil,
      or_false] at henv
    rcases henv with rfl | rfl <;> cases i <;>
      simp [Pass.OneSetup, reportedSetups, DcdEvent.isSetup]
  · unfold Log.Truthful
    decide +kernel

end Ep0Order
end WaveformGenerator.Usb
