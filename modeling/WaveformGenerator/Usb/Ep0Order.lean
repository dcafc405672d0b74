import WaveformGenerator.Common.Status
import WaveformGenerator.Lib.Ring

/-!
# The order of EP0 events (`rt1170/usb_ep0_order.hpp`, `rt1170/usb/usb_ep0_order_glue.c`)

The ChipIdea driver reports what an interrupt found by calls of `dcd_event_handler`. The glue routes
each call through the one `Ep0Order` and calls TinyUSB's own handler in its place. The interrupt
(`rt1170/usb/usb_tinyusb_port.c`) runs the driver in passes.
-/

namespace WaveformGenerator.Usb

/-- Passes after the first in one interrupt. -/
def maxExtraPasses : Nat := 2

/-- SETUPs one interrupt can hold. -/
def holdCapacity : Nat := 3

def notInInterrupt : Status := { code := .unavailable, message := "EP0_ORDER_IDLE" }
def holdFull : Status := { code := .bufferTooSmall, message := "EP0_HOLD_FULL" }

/-- Whether the controller still shows an EP0 completion. -/
inductive Ep0Pending
  | none
  | completion
  deriving DecidableEq, Repr

inductive NextPass
  | done
  | again
  deriving DecidableEq, Repr

structure Setup where
  rhport : UInt8 := 0
  packet : UInt64 := 0
  deriving DecidableEq, Repr

structure Counters where
  reordered : UInt32 := 0
  unordered : UInt32 := 0
  deriving DecidableEq, Repr

/-- An event of the driver. `other` stands for each event the glue does not tell apart: a bus reset,
an unplug, a suspend, a resume. -/
inductive DcdEvent
  | setupReceived (setup : Setup)
  | xferComplete (rhport epAddr result : UInt8) (len : UInt32)
  | sof (rhport : UInt8) (frameCount : UInt32)
  | other (rhport eventId : UInt8) (detail : UInt32)
  deriving DecidableEq, Repr

namespace DcdEvent

/-- `tu_edpt_number`: an endpoint's address without its direction bit. -/
def edptNumber (addr : UInt8) : UInt8 := addr &&& 0x7F

def isSetup : DcdEvent → Bool
  | setupReceived _ => true
  | _ => false

def isEp0Completion : DcdEvent → Bool
  | xferComplete _ epAddr _ _ => edptNumber epAddr == 0
  | _ => false

def isSof : DcdEvent → Bool
  | sof .. => true
  | _ => false

/-- The events that keep their place behind the SETUPs. -/
def isOther (event : DcdEvent) : Bool :=
  !event.isSetup && !event.isEp0Completion && !event.isSof

end DcdEvent

/-- A call of `dcd_event_handler`. -/
structure DcdCall where
  event : DcdEvent
  inIsr : Bool
  deriving DecidableEq, Repr

def DcdCall.isSetup (call : DcdCall) : Bool := call.event.isSetup

structure Ep0Order where
  held : Vector Setup 3 := .replicate 3 {}
  first : Nat := 0
  count : Nat := 0
  passes : Nat := 0
  active : Bool := false
  counters : Counters := {}
  first_lt : first < holdCapacity := by decide
  count_le : count ≤ holdCapacity := by decide
  passes_le : passes ≤ maxExtraPasses := by decide
  deriving DecidableEq, Repr

namespace Ep0Order

def countReordered (order : Ep0Order) : Ep0Order :=
  { order with counters := { order.counters with reordered := order.counters.reordered + 1 } }

def countUnordered (order : Ep0Order) : Ep0Order :=
  { order with counters := { order.counters with unordered := order.counters.unordered + 1 } }

/-- The interrupt starts, before TinyUSB's first pass. -/
def begin (order : Ep0Order) : Ep0Order :=
  { order with active := true, passes := 0, passes_le := Nat.zero_le _ }

/-- A SETUP of a pass, held until the interrupt ends. -/
def hold (order : Ep0Order) (setup : Setup) : Status × Ep0Order :=
  if !order.active then
    (notInInterrupt, order)
  else if h : order.count = holdCapacity then
    (holdFull, order.countUnordered)
  else
    (.success,
      { order with
        held := order.held.setIfInBounds ((order.first + order.count) % holdCapacity) setup
        count := order.count + 1
        count_le := Nat.lt_of_le_of_ne order.count_le h })

/-- An EP0 completion of a pass, which goes ahead of the held SETUPs. -/
def completion (order : Ep0Order) : Ep0Order :=
  if order.active && order.count != 0 then order.countReordered else order

def holding (order : Ep0Order) : Bool := order.count != 0

/-- The held SETUPs are about to go ahead of another event. -/
def releasing (order : Ep0Order) (pending : Ep0Pending) : Ep0Order :=
  if order.active && order.count != 0 && pending == .completion then
    order.countUnordered
  else
    order

/-- The oldest held SETUP. -/
def release (order : Ep0Order) : Option Setup × Ep0Order :=
  if order.count = 0 then
    (none, order)
  else
    (some (order.held.get ⟨order.first, order.first_lt⟩),
      { order with
        first := (order.first + 1) % holdCapacity
        first_lt := Nat.mod_lt _ (by decide)
        count := order.count - 1
        count_le := Nat.le_trans (Nat.sub_le ..) order.count_le })

/-- What follows a pass. -/
def anotherPass (order : Ep0Order) (pending : Ep0Pending) : NextPass × Ep0Order :=
  if !order.active || order.count == 0 || pending == .none then
    (.done, order)
  else if h : order.passes = maxExtraPasses then
    (.done, order.countUnordered)
  else
    (.again,
      { order with
        passes := order.passes + 1
        passes_le := Nat.lt_of_le_of_ne order.passes_le h })

/-- The interrupt ends, once every held SETUP is released. -/
def «end» (order : Ep0Order) : Ep0Order :=
  { order with active := false, passes := 0, passes_le := Nat.zero_le _ }

/-! ## The glue -/

/-- The held SETUPs go on to TinyUSB's handler, oldest first. -/
def releaseSetups (order : Ep0Order) : Ep0Order × List DcdCall :=
  match _h : order.release with
  | (none, order) => (order, [])
  | (some setup, order) =>
    let (order, forwarded) := order.releaseSetups
    (order, ⟨.setupReceived setup, true⟩ :: forwarded)
termination_by order.count
decreasing_by
  unfold release at _h
  split at _h
  · cases _h
  · cases _h
    show order.count - 1 < order.count
    omega

def releaseBeforeEvent (order : Ep0Order) (pending : Ep0Pending) : Ep0Order × List DcdCall :=
  if !order.holding then (order, []) else (order.releasing pending).releaseSetups

/-- `wfg_usb_ep0_route_event`: the calls it makes of TinyUSB's handler, in order. -/
def routeEvent (order : Ep0Order) (call : DcdCall) (pending : Ep0Pending) :
    Ep0Order × List DcdCall :=
  if !call.inIsr then
    (order, [call])
  else
    match call.event with
    | .setupReceived setup =>
      let (status, order) := order.hold setup
      if !status.isOk then
        -- outside the passes, or past a full hold
        let (order, released) := order.releaseSetups
        (order, released ++ [call])
      else
        (order, [])
    | event =>
      if event.isEp0Completion then
        (order.completion, [call])
      else if !event.isSof then
        let (order, released) := order.releaseBeforeEvent pending
        (order, released ++ [call])
      else
        (order, [call])

end Ep0Order

/-! ## The interrupt -/

/-- A call as it was routed: the order about it, what the controller shows to one who asks, and the
calls it led to. -/
structure Routed where
  before : Ep0Order
  call : DcdCall
  pending : Ep0Pending
  after : Ep0Order
  forwarded : List DcdCall
  deriving DecidableEq, Repr

/-- One run of TinyUSB's interrupt handler: the events it reports, each with what the controller
shows then, and what it shows after the pass. -/
structure Pass where
  reports : List (DcdEvent × Ep0Pending)
  pendingAfter : Ep0Pending

namespace Ep0Order

def route (order : Ep0Order) (call : DcdCall) (pending : Ep0Pending) : Routed :=
  let (after, forwarded) := order.routeEvent call pending
  ⟨order, call, pending, after, forwarded⟩

/-- `tusb_int_handler`: the driver reports with its `in_isr` true. -/
def runPass (order : Ep0Order) : List (DcdEvent × Ep0Pending) → List Routed × Ep0Order
  | [] => ([], order)
  | (event, pending) :: reports =>
    let routed := order.route ⟨event, true⟩ pending
    let (rest, last) := routed.after.runPass reports
    (routed :: rest, last)

theorem passes_hold (order : Ep0Order) (setup : Setup) :
    (order.hold setup).2.passes = order.passes := by
  unfold hold
  split
  · rfl
  · split <;> rfl

theorem passes_completion (order : Ep0Order) : order.completion.passes = order.passes := by
  unfold completion
  split <;> rfl

theorem passes_releasing (order : Ep0Order) (pending : Ep0Pending) :
    (order.releasing pending).passes = order.passes := by
  unfold releasing
  split <;> rfl

theorem passes_release (order : Ep0Order) : order.release.2.passes = order.passes := by
  unfold release
  split <;> rfl

theorem passes_releaseSetups (order : Ep0Order) :
    order.releaseSetups.1.passes = order.passes := by
  fun_induction releaseSetups order with
  | case1 order after h =>
    have hpasses := order.passes_release
    rwa [h] at hpasses
  | case2 order setup after h last forwarded heq ih =>
    rw [heq] at ih
    have hpasses := order.passes_release
    rw [h] at hpasses
    exact ih.trans hpasses

theorem passes_route (order : Ep0Order) (call : DcdCall) (pending : Ep0Pending) :
    (order.route call pending).after.passes = order.passes := by
  unfold route routeEvent releaseBeforeEvent
  dsimp only
  repeat' split
  all_goals simp only [passes_releaseSetups, passes_hold, passes_completion, passes_releasing]

theorem passes_runPass (order : Ep0Order) (reports : List (DcdEvent × Ep0Pending)) :
    (order.runPass reports).2.passes = order.passes := by
  induction reports generalizing order with
  | nil => rfl
  | cons report reports ih => exact (ih _).trans (passes_route ..)

theorem passes_of_again {order next : Ep0Order} {pending : Ep0Pending}
    (h : order.anotherPass pending = (.again, next)) :
    order.passes < maxExtraPasses ∧ next.passes = order.passes + 1 := by
  unfold anotherPass at h
  split at h
  · cases h
  · split at h
    · cases h
    case isFalse hbound =>
      cases h
      exact ⟨Nat.lt_of_le_of_ne order.passes_le hbound, rfl⟩

/-- The passes of one interrupt from pass `i` on, `env` the controller's part in each. -/
def runPasses (order : Ep0Order) (env : Nat → Pass) (i : Nat) : List Routed × Ep0Order :=
  match _h : (order.runPass (env i).reports).2.anotherPass (env i).pendingAfter with
  | (.done, last) => ((order.runPass (env i).reports).1, last)
  | (.again, next) =>
    let (rest, last) := next.runPasses env (i + 1)
    ((order.runPass (env i).reports).1 ++ rest, last)
termination_by maxExtraPasses - order.passes
decreasing_by
  have hpasses := passes_of_again _h
  rw [passes_runPass] at hpasses
  omega

end Ep0Order

/-! ## Runs -/

/-- What the driver has TinyUSB do: an interrupt in passes, or a call of its own outside one. -/
inductive Activity
  | interrupt (env : Nat → Pass)
  | call (call : DcdCall) (pending : Ep0Pending)

/-- What an activity left: each call as it was routed, then the SETUPs the interrupt's end let go. -/
structure Log where
  routed : List Routed
  released : List DcdCall := []
  deriving DecidableEq, Repr

namespace Log

/-- The driver's calls. -/
def reported (log : Log) : List DcdCall := log.routed.map (·.call)

/-- The calls TinyUSB's own handler gets. -/
def forwarded (log : Log) : List DcdCall := log.routed.flatMap (·.forwarded) ++ log.released

end Log

namespace Ep0Order

/-- `run_tinyusb_passes`. -/
def runTinyusbPasses (order : Ep0Order) (env : Nat → Pass) : Log × Ep0Order :=
  let (routed, order) := order.begin.runPasses env 0
  let (order, released) := order.releaseSetups
  ({ routed, released }, order.end)

def perform (order : Ep0Order) : Activity → Log × Ep0Order
  | .interrupt env => order.runTinyusbPasses env
  | .call call pending =>
    let routed := order.route call pending
    ({ routed := [routed] }, routed.after)

def run (order : Ep0Order) : List Activity → List Log × Ep0Order
  | [] => ([], order)
  | activity :: activities =>
    let (log, order) := order.perform activity
    let (logs, order) := order.run activities
    (log :: logs, order)

end Ep0Order
end WaveformGenerator.Usb
