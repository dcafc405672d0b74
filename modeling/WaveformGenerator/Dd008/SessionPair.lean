import WaveformGenerator.Dd008.Session

/-!
# Two sessions on reliable links

A host and a device session, and the bytes in flight between them. Writers and callbacks succeed: what
is written goes to the end of a link, and a delivery hands the first bytes of one to the session at
its end, in a chunk of any size.
-/

namespace WaveformGenerator.Dd008

/-! ## Callbacks that succeed -/

/-- What the callbacks of a session were called with. -/
structure CallRecord where
  written : List UInt8 := []
  received : List (CdcMuxChannel × List UInt8) := []
  states : List (CdcMuxChannel × Bool) := []
  links : List Bool := []
  deriving DecidableEq, Repr

def recording : CdcMuxCallbacks CallRecord where
  wireWriter r bytes := (.success, { r with written := r.written ++ bytes })
  dataCallback r channel bytes := (.success, { r with received := r.received ++ [(channel, bytes)] })
  stateCallback r channel isOpen := (.success, { r with states := r.states ++ [(channel, isOpen)] })
  linkStateCallback r established := { r with links := r.links ++ [established] }

/-! ## The pair -/

structure SessionPair where
  hostDecoder : CdcMuxStreamDecoder
  host : CdcMuxHostSession
  deviceDecoder : CdcMuxStreamDecoder
  device : CdcMuxDeviceSession
  toDevice : List UInt8 := []
  toHost : List UInt8 := []
  deriving DecidableEq, Repr

/-- What an application can do at either end, and what the links can. -/
inductive Operation
  | beginHandshake
  | resetHost
  | openChannel (channel : CdcMuxChannel)
  | closeChannel (channel : CdcMuxChannel)
  | hostSend (channel : CdcMuxChannel) (bytes : List UInt8)
  | deviceSend (channel : CdcMuxChannel) (bytes : List UInt8)
  | deliverToDevice (count : Nat)
  | deliverToHost (count : Nat)
  deriving DecidableEq, Repr

/-- One operation of a run. -/
structure Event where
  operation : Operation
  status : Status
  record : CallRecord
  deriving DecidableEq, Repr

namespace SessionPair

variable (config : CdcMuxConfig)

/-- Both sessions initialized, nothing in flight. -/
def initial : SessionPair where
  hostDecoder := .initial config
  host := { initialized := true }
  deviceDecoder := .initial config
  device := { initialized := true }

def perform (p : SessionPair) (operation : Operation) : Event × SessionPair :=
  match operation with
  | .beginHandshake =>
    let (status, hostDecoder, host, r) :=
      CdcMuxHostSession.beginHandshake config recording p.hostDecoder p.host {}
    (⟨operation, status, r⟩, { p with hostDecoder, host, toDevice := p.toDevice ++ r.written })
  | .resetHost =>
    let (hostDecoder, host, r) := CdcMuxHostSession.reset recording p.hostDecoder p.host {}
    (⟨operation, .success, r⟩, { p with hostDecoder, host })
  | .openChannel channel =>
    let (status, host, r) := CdcMuxHostSession.openChannel config recording p.host {} channel
    (⟨operation, status, r⟩, { p with host, toDevice := p.toDevice ++ r.written })
  | .closeChannel channel =>
    let (status, host, r) := CdcMuxHostSession.closeChannel config recording p.host {} channel
    (⟨operation, status, r⟩, { p with host, toDevice := p.toDevice ++ r.written })
  | .hostSend channel bytes =>
    let (status, host, r) := CdcMuxHostSession.sendStream config recording p.host {} channel bytes
    (⟨operation, status, r⟩, { p with host, toDevice := p.toDevice ++ r.written })
  | .deviceSend channel bytes =>
    let (status, device, r) :=
      CdcMuxDeviceSession.sendStream config recording p.device {} channel bytes
    (⟨operation, status, r⟩, { p with device, toHost := p.toHost ++ r.written })
  | .deliverToDevice count =>
    let (status, deviceDecoder, device, r) :=
      CdcMuxDeviceSession.ingestWire config recording p.deviceDecoder p.device {}
        (p.toDevice.take count)
    (⟨operation, status, r⟩,
      { p with
        deviceDecoder, device, toDevice := p.toDevice.drop count, toHost := p.toHost ++ r.written })
  | .deliverToHost count =>
    let (status, hostDecoder, host, r) :=
      CdcMuxHostSession.ingestWire config recording p.hostDecoder p.host {} (p.toHost.take count)
    (⟨operation, status, r⟩,
      { p with
        hostDecoder, host, toDevice := p.toDevice ++ r.written, toHost := p.toHost.drop count })

def events (p : SessionPair) : List Operation → List Event
  | [] => []
  | operation :: operations =>
    (p.perform config operation).1 :: (p.perform config operation).2.events operations

def after (p : SessionPair) (operations : List Operation) : SessionPair :=
  operations.foldl (fun p operation => (p.perform config operation).2) p

/-- Nothing is in flight. -/
def Drained (p : SessionPair) : Prop := p.toDevice = [] ∧ p.toHost = []

instance : DecidablePred Drained := fun _ => inferInstanceAs (Decidable (_ ∧ _))

variable {config}

theorem after_append (p : SessionPair) (a b : List Operation) :
    p.after config (a ++ b) = (p.after config a).after config b :=
  List.foldl_append

end SessionPair

/-! ## What is sent and received -/

namespace Event

def hostSent (e : Event) : List (CdcMuxChannel × List UInt8) :=
  match e.operation with
  | .hostSend channel bytes => if e.status.isOk then [(channel, bytes)] else []
  | _ => []

def deviceSent (e : Event) : List (CdcMuxChannel × List UInt8) :=
  match e.operation with
  | .deviceSend channel bytes => if e.status.isOk then [(channel, bytes)] else []
  | _ => []

def deviceReceived (e : Event) : List (CdcMuxChannel × List UInt8) :=
  match e.operation with
  | .deliverToDevice _ => e.record.received
  | _ => []

def hostReceived (e : Event) : List (CdcMuxChannel × List UInt8) :=
  match e.operation with
  | .deliverToHost _ => e.record.received
  | _ => []

end Event

/-- The bytes of a channel. -/
def bytesOn (channel : CdcMuxChannel) (data : List (CdcMuxChannel × List UInt8)) : List UInt8 :=
  data.flatMap fun (on, bytes) => if on = channel then bytes else []

@[simp] theorem bytesOn_nil (channel : CdcMuxChannel) : bytesOn channel [] = [] := rfl

theorem bytesOn_append (channel : CdcMuxChannel) (a b : List (CdcMuxChannel × List UInt8)) :
    bytesOn channel (a ++ b) = bytesOn channel a ++ bytesOn channel b :=
  List.flatMap_append

end WaveformGenerator.Dd008
