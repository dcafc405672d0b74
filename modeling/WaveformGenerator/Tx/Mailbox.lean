import WaveformGenerator.Lib.Monitor
import WaveformGenerator.Tx.Artifact

/-!
# The owner's mailbox (`rt1170/tx_artifact.cpp`, `rt1170/tx_usb.cpp`, `rt1170/usb_service.cpp`)

The USB task puts a request in one slot and takes its reply from another; the player task serves it
in a pass. Four flags say what the slots hold. A step is what one task does between two points
where the other may run: a critical section, or one access of a flag (a closed port's two stores of
`disconnected` are one).
-/

namespace WaveformGenerator.Tx

/-- Where the player task is in `service_tx_artifact`. -/
inductive Place
  /-- Before the pass reads `disconnected`. -/
  | ready
  /-- It has read `disconnected`; the flags are still to be cleared. -/
  | sawDisconnect
  /-- It has cleared the flags; the upload is still to be dropped. -/
  | cleared
  /-- Before it reads `request_pending`. -/
  | looking
  /-- It has read `request_pending`; the request is still to be taken. -/
  | sawRequest
  | serving (request : Request)
  /-- It has served the request; the reply is still to be put. -/
  | replying (served : Status)
  /-- Before the generation's next block. -/
  | finishing
  deriving DecidableEq, Repr

/-- What `tx_usb.cpp` keeps of its request. `requestPending` is a request received and not yet
answered, `requestSubmitted` that the mailbox has taken it. -/
structure TxUsb where
  active : Bool := false
  requestPending : Bool := false
  requestSubmitted : Bool := false
  pending : Request := {}
  hadLink : Bool := false
  deriving DecidableEq, Repr

/-- Both tasks and what they share. `replyWaiting` is the text line's `tx_reply_waiting`. -/
structure TxSystem (ε : Type) where
  owner : Owner ε
  requestPending : Bool := false
  responsePending : Bool := false
  disconnected : Bool := false
  processingRequest : Bool := false
  requestSlot : Request := {}
  responseSlot : Reply := {}
  place : Place := .ready
  usb : TxUsb := {}
  replyWaiting : Bool := false

inductive TxAction
  /-- The first byte of a DD-008 link. -/
  | activate
  /-- The link has a request: bytes to upload, or a command. -/
  | receive (request : Request)
  /-- `tx_usb_service` submits its request. -/
  | submit
  /-- `tx_usb_service` asks for its reply. -/
  | take
  /-- The session's link comes up or goes down. -/
  | linkState (established : Bool)
  /-- A text line's generation. -/
  | submitLine (request : Request)
  /-- `service_control` asks for the line's reply. -/
  | takeLine
  /-- The port has closed. -/
  | disconnect
  /-- The player task goes on in its pass. -/
  | player (around : Surroundings)
  /-- The player aborts between two passes. -/
  | abort
  deriving DecidableEq, Repr

/-- An action of the USB task. -/
def TxAction.isUsb : TxAction → Bool
  | .player _ | .abort => false
  | _ => true

/-- What a step did that the other side can tell. -/
inductive TxEvent
  | accepted (request : Request)
  | refused (request : Request)
  | served (request : Request) (reply : Reply)
  | took (reply : Reply)
  | dropped
  /-- The pass has cleared the flags for a drop. -/
  | cleared
  deriving DecidableEq, Repr

namespace TxSystem

variable {ε : Type} (build : Build ε)

/-! ## The USB task -/

/-- `submit_tx_request`: whether the request was put in the mailbox. -/
def submitTxRequest (s : TxSystem ε) (request : Request) : Bool × TxSystem ε :=
  if s.requestPending || s.responsePending || s.disconnected then
    (false, s)
  else
    (true, { s with requestSlot := request, requestPending := true })

/-- `take_tx_reply`. -/
def takeTxReply (s : TxSystem ε) : Option Reply × TxSystem ε :=
  if !s.responsePending then
    (none, s)
  else
    (some s.responseSlot, { s with responsePending := false })

def disconnectTxArtifact (s : TxSystem ε) : TxSystem ε := { s with disconnected := true }

def tell (request : Request) (accepted : Bool) : List TxEvent :=
  [if accepted then .accepted request else .refused request]

/-- What of `tx_usb_service` concerns the mailbox, first half: a request not yet submitted is. -/
def submitPending (s : TxSystem ε) : TxSystem ε × List TxEvent :=
  if s.usb.active && s.usb.requestPending && !s.usb.requestSubmitted then
    let (accepted, s) := s.submitTxRequest s.usb.pending
    ({ s with usb := { s.usb with requestSubmitted := accepted } }, tell s.usb.pending accepted)
  else
    (s, [])

/-- Second half: a submitted one's reply is taken, and finishes it. -/
def takeSubmitted (s : TxSystem ε) : TxSystem ε × List TxEvent :=
  if s.usb.active && s.usb.requestPending && s.usb.requestSubmitted then
    match s.takeTxReply with
    | (none, s) => (s, [])
    | (some reply, s) =>
      ({ s with usb := { s.usb with requestPending := false, requestSubmitted := false } },
        [.took reply])
  else
    (s, [])

/-- `link_state`. The session is not fed while a request is pending. -/
def linkState (s : TxSystem ε) (established : Bool) : TxSystem ε × List TxEvent :=
  if s.usb.active && !s.usb.requestPending then
    let dropped := s.usb.hadLink && !established
    let s := if dropped then s.disconnectTxArtifact else s
    ({ s with usb := { s.usb with hadLink := established } }, if dropped then [.dropped] else [])
  else
    (s, [])

/-- `tx_usb_disconnect`. Where the session's link was up, `session.reset` reports it down and
`link_state` stores `disconnected` once more: both stores are one step here. The USB task submits
nothing between them, so a pass that comes in between leaves the pass after the second store no
request, no reply and no upload to drop. -/
def txUsbDisconnect (s : TxSystem ε) : TxSystem ε :=
  { s.disconnectTxArtifact with usb := { pending := s.usb.pending } }

/-- `service_control` finds the port closed. -/
def portClosed (s : TxSystem ε) : TxSystem ε × List TxEvent :=
  if s.usb.active || s.replyWaiting then
    ({ s.txUsbDisconnect with replyWaiting := false }, [.dropped])
  else
    ({ s with replyWaiting := false }, [])

def submitLine (s : TxSystem ε) (request : Request) : TxSystem ε × List TxEvent :=
  if s.usb.active || s.replyWaiting then
    (s, [])
  else
    let (accepted, s) := s.submitTxRequest request
    ({ s with replyWaiting := accepted }, tell request accepted)

def takeLine (s : TxSystem ε) : TxSystem ε × List TxEvent :=
  if !s.usb.active && s.replyWaiting then
    match s.takeTxReply with
    | (none, s) => (s, [])
    | (some reply, s) => ({ s with replyWaiting := false }, [.took reply])
  else
    (s, [])

/-! ## The player task -/

/-- The next step of a pass. -/
def servicePass (s : TxSystem ε) (around : Surroundings) : TxSystem ε × List TxEvent :=
  match s.place with
  | .ready => ({ s with place := if s.disconnected then .sawDisconnect else .looking }, [])
  | .sawDisconnect =>
    ({ s with
        disconnected := false, requestPending := false, responsePending := false
        place := .cleared }, [.cleared])
  | .cleared => ({ s with owner := s.owner.dropUpload build, place := .looking }, [])
  | .looking => ({ s with place := if s.requestPending then .sawRequest else .finishing }, [])
  | .sawRequest =>
    ({ s with
        requestPending := false, processingRequest := true, place := .serving s.requestSlot }, [])
  | .serving request =>
    let (served, owner) := s.owner.serveRequest build around request
    ({ s with owner, place := .replying served }, [.served request (owner.replyOf served)])
  | .replying served =>
    ({ s with
        responseSlot := s.owner.replyOf served, responsePending := true
        processingRequest := false, place := .finishing }, [])
  | .finishing =>
    ({ s with
        owner :=
          if s.owner.snapshot.state = .generating then s.owner.continueGeneration build
          else s.owner
        place := .ready }, [])

def step (s : TxSystem ε) : TxAction → TxSystem ε × List TxEvent
  | .activate => (if s.replyWaiting then s else { s with usb := { s.usb with active := true } }, [])
  | .receive request =>
    (if s.usb.active && !s.usb.requestPending then
        { s with usb := { s.usb with pending := request, requestPending := true } }
      else s, [])
  | .submit => s.submitPending
  | .take => s.takeSubmitted
  | .linkState established => s.linkState established
  | .submitLine request => s.submitLine request
  | .takeLine => s.takeLine
  | .disconnect => s.portClosed
  | .player around => s.servicePass build around
  | .abort =>
    (if s.place = .ready then { s with owner := s.owner.abort build } else s, [])

/-- A run: the state it ends in, and what happened. -/
def run (s : TxSystem ε) (actions : List TxAction) : TxSystem ε × List TxEvent :=
  Monitor.run (step build) s actions

/-- `service_tx_artifact`, its steps one after another. -/
def serviceTxArtifact (s : TxSystem ε) (around : Surroundings) : TxSystem ε :=
  let s :=
    if s.disconnected then
      { s with
        disconnected := false, requestPending := false, responsePending := false
        owner := s.owner.dropUpload build }
    else
      s
  let s :=
    if s.requestPending then
      let (served, owner) := s.owner.serveRequest build around s.requestSlot
      { s with
        owner, requestPending := false, responseSlot := owner.replyOf served
        responsePending := true, processingRequest := false }
    else
      s
  { s with
    owner :=
      if s.owner.snapshot.state = .generating then s.owner.continueGeneration build else s.owner }

/-- The steps of a pass that nothing interrupts. -/
def passLength (s : TxSystem ε) : Nat :=
  (if s.disconnected then 2 else 0) +
    (if s.requestPending && !s.disconnected then 3 else 0) + 3

/-- A pass that nothing interrupts is the whole function. -/
theorem pass_eq_service {s : TxSystem ε} (hready : s.place = .ready) (around : Surroundings) :
    (s.run build (List.replicate (s.passLength) (.player around))).1 =
      { s.serviceTxArtifact build around with place := .ready } := by
  cases hd : s.disconnected with
  | true =>
    simp [passLength, hd, run, Monitor.run, step, servicePass, hready, serviceTxArtifact, List.replicate]
  | false =>
    cases hr : s.requestPending with
    | true =>
      simp [passLength, hd, hr, run, Monitor.run, step, servicePass, hready, serviceTxArtifact, List.replicate]
    | false =>
      simp [passLength, hd, hr, run, Monitor.run, step, servicePass, hready, serviceTxArtifact, List.replicate]

section
variable {build} {s : TxSystem ε}

theorem run_cons (action : TxAction) (actions : List TxAction) :
    s.run build (action :: actions) =
      (((s.step build action).1.run build actions).1,
        (s.step build action).2 ++ ((s.step build action).1.run build actions).2) :=
  Monitor.run_cons action actions

theorem run_append (actions later : List TxAction) :
    s.run build (actions ++ later) =
      (((s.run build actions).1.run build later).1,
        (s.run build actions).2 ++ ((s.run build actions).1.run build later).2) :=
  Monitor.run_append actions later

/-! ## The pass is the player's -/

theorem pass_submitTxRequest (request : Request) :
    (s.submitTxRequest request).2.owner = s.owner ∧
      (s.submitTxRequest request).2.place = s.place := by
  unfold submitTxRequest
  split <;> exact ⟨rfl, rfl⟩

theorem pass_takeTxReply :
    s.takeTxReply.2.owner = s.owner ∧ s.takeTxReply.2.place = s.place := by
  unfold takeTxReply
  split <;> exact ⟨rfl, rfl⟩

theorem pass_takeSubmitted :
    s.takeSubmitted.1.owner = s.owner ∧ s.takeSubmitted.1.place = s.place := by
  have htake := pass_takeTxReply (s := s)
  unfold takeSubmitted
  split
  · split
    case h_1 hnone =>
      rw [hnone] at htake
      exact htake
    case h_2 hsome =>
      rw [hsome] at htake
      exact htake
  · exact ⟨rfl, rfl⟩

theorem pass_takeLine : s.takeLine.1.owner = s.owner ∧ s.takeLine.1.place = s.place := by
  have htake := pass_takeTxReply (s := s)
  unfold takeLine
  split
  · split
    case h_1 hnone =>
      rw [hnone] at htake
      exact htake
    case h_2 hsome =>
      rw [hsome] at htake
      exact htake
  · exact ⟨rfl, rfl⟩

/-- Only the player task's steps touch the owner and go on in the pass. -/
theorem pass_step {action : TxAction} (husb : action.isUsb = true) :
    (s.step build action).1.owner = s.owner ∧ (s.step build action).1.place = s.place := by
  cases action with
  | player around => cases husb
  | abort => cases husb
  | submit =>
    show s.submitPending.1.owner = s.owner ∧ s.submitPending.1.place = s.place
    unfold submitPending
    split
    · exact pass_submitTxRequest _
    · exact ⟨rfl, rfl⟩
  | submitLine request =>
    show (s.submitLine request).1.owner = s.owner ∧ (s.submitLine request).1.place = s.place
    unfold submitLine
    split
    · exact ⟨rfl, rfl⟩
    · exact pass_submitTxRequest _
  | take => exact pass_takeSubmitted
  | takeLine => exact pass_takeLine
  | activate =>
    unfold step
    dsimp only
    split <;> exact ⟨rfl, rfl⟩
  | receive request =>
    unfold step
    dsimp only
    split <;> exact ⟨rfl, rfl⟩
  | linkState established =>
    unfold step linkState
    dsimp only
    split
    · split <;> exact ⟨rfl, rfl⟩
    · exact ⟨rfl, rfl⟩
  | disconnect =>
    unfold step portClosed
    dsimp only
    split <;> exact ⟨rfl, rfl⟩

/-- A step is one event at most, and only the player task serves. -/
theorem events_step (action : TxAction) :
    (s.step build action).2.length ≤ 1 ∧ ∀ request reply,
      .served request reply ∈ (s.step build action).2 → ∃ around, action = .player around := by
  cases action with
  | player around =>
    refine ⟨?_, fun _ _ _ => ⟨around, rfl⟩⟩
    show (s.servicePass build around).2.length ≤ 1
    unfold servicePass
    split <;> simp
  | submit =>
    show s.submitPending.2.length ≤ 1 ∧ _
    change _ ∧ ∀ request reply, .served request reply ∈ s.submitPending.2 → _
    unfold submitPending tell
    split
    · dsimp only
      split <;> simp
    · simp
  | submitLine request =>
    show (s.submitLine request).2.length ≤ 1 ∧ _
    change _ ∧ ∀ asked reply, .served asked reply ∈ (s.submitLine request).2 → _
    unfold submitLine tell
    split
    · simp
    · dsimp only
      split <;> simp
  | take =>
    show s.takeSubmitted.2.length ≤ 1 ∧ _
    change _ ∧ ∀ request reply, .served request reply ∈ s.takeSubmitted.2 → _
    unfold takeSubmitted
    repeat' split
    all_goals simp
  | takeLine =>
    show s.takeLine.2.length ≤ 1 ∧ _
    change _ ∧ ∀ request reply, .served request reply ∈ s.takeLine.2 → _
    unfold takeLine
    repeat' split
    all_goals simp
  | linkState established =>
    show (s.linkState established).2.length ≤ 1 ∧ _
    change _ ∧ ∀ request reply, .served request reply ∈ (s.linkState established).2 → _
    unfold linkState
    split
    · dsimp only
      split <;> simp
    · simp
  | disconnect =>
    show s.portClosed.2.length ≤ 1 ∧ _
    change _ ∧ ∀ request reply, .served request reply ∈ s.portClosed.2 → _
    unfold portClosed
    split <;> simp
  | activate | receive | abort => exact ⟨Nat.zero_le 1, fun _ _ h => nomatch h⟩

end

end TxSystem

end WaveformGenerator.Tx
