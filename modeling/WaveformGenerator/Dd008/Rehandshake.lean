import WaveformGenerator.Dd008.SessionDelivery

/-!
# A handshake issued again

A host that begins a handshake takes every frame that reaches it before the acknowledgement for a
fault, and so it takes a second acknowledgement. It converges just where no such frame can come: no
valid frame is in flight to it, and no HELLO to the device.
-/

namespace WaveformGenerator.Dd008

open Delimited Guarded

/-- The links go on, and the applications wait. -/
def Operation.Delivers : Operation → Prop
  | deliverToDevice _ | deliverToHost _ => True
  | _ => False

/-- A packet with a HELLO. -/
def Hello (config : CdcMuxConfig) (packet : List UInt8) : Prop :=
  (report config packet).valid ∧ (report config packet).frame.type = .hello

instance (config : CdcMuxConfig) : DecidablePred (Hello config) :=
  fun _ => inferInstanceAs (Decidable (_ ∧ _))

/-- The packet that the device's decoder holds. -/
def SessionPair.deviceOpenPacket (p : SessionPair) : List UInt8 :=
  p.deviceDecoder.encoded.bytes.take p.deviceDecoder.encodedSize

/-- Nothing in flight is a frame to a host that has just reset its decoder, or a HELLO. -/
structure SessionPair.NothingStale (config : CdcMuxConfig) (p : SessionPair) : Prop where
  toHost : ∀ packet ∈ reports config p.toHost, packet.valid = false
  toDevice : ∀ packet ∈ closed 0 p.deviceOpenPacket p.toDevice, ¬Hello config packet

/-- Two sessions in step that have sent nothing in the session yet. -/
structure SessionPair.Renewed (p : SessionPair) : Prop where
  agreed : p.Agreed
  hostTransmit : p.host.nextTransmitSequence = 1
  hostReceive : p.host.expectedReceiveSequence = 1
  deviceTransmit : p.device.nextTransmitSequence = 1
  deviceReceive : p.device.expectedReceiveSequence = 1

/-- Whatever becomes of a handshake begun here: once nothing is in flight, the sessions are in step
and new, and deliver what is sent from then on. -/
def SessionPair.Converges (config : CdcMuxConfig) (p : SessionPair) : Prop :=
  ∀ deliveries : List Operation, (∀ operation ∈ deliveries, operation.Delivers) →
    let p' := (p.perform config .beginHandshake).2.after config deliveries
    p'.Drained → p'.Renewed ∧
      ∀ operations : List Operation,
        (∀ operation ∈ operations, operation.Continues (fun _ => False) True) →
        let p'' := p'.after config operations
        let events := p'.events config operations
        (∀ e ∈ events, e.status ≠ CdcMuxHostSession.sequenceMismatch) ∧
        ∀ channel, DeliveredInOrder channel (events.flatMap Event.hostSent)
            (events.flatMap Event.deviceReceived) p''.toDevice ∧
          DeliveredInOrder channel (events.flatMap Event.deviceSent)
            (events.flatMap Event.hostReceived) p''.toHost

variable {config : CdcMuxConfig} {p : SessionPair} {items : List HostItem}
  {devicePacket hostPacket : List UInt8}

/-! ## What is in flight -/

theorem nothingStale_toHost :
    (∀ packet ∈ reports config p.toHost, packet.valid = false) ↔
      ∀ packet ∈ closed 0 [] p.toHost, Ignored config packet := by
  simp only [reports, List.mem_map, List.mem_filter, decide_eq_true_eq]
  constructor
  · intro h packet hpacket hne
    exact h _ ⟨packet, ⟨hpacket, hne⟩, rfl⟩
  · rintro h _ ⟨packet, ⟨hpacket, hne⟩, rfl⟩
    exact h packet hpacket hne

/-- The device is to be sent a HELLO just where a packet with one is in flight. -/
theorem hello_mem_iff {view : View} (hruns : Runs (HostItem.Allowed config) HostItem.apply view items) :
    .hello ∈ items ↔
      ∃ packet ∈ outputs HostItem.apply (HostItem.packet config) view items, Hello config packet := by
  induction items generalizing view with
  | nil => simp [outputs]
  | cons item items ih =>
    have hhead : Hello config (item.packet config view) ↔ item = .hello := by
      cases hframe : item.frame config view.expected with
      | none =>
        obtain rfl := HostItem.frame_eq_none.mp hframe
        simp [Hello, HostItem.packet, HostItem.frame, report_nil_valid]
      | some frame =>
        have hvalid : (CdcMuxDecodedPacket.accepted frame).valid = true := rfl
        have hself : (CdcMuxDecodedPacket.accepted frame).frame = frame := rfl
        rw [HostItem.packet_of_frame hframe, Hello,
          report_packetOf (HostItem.admits_frame hruns.1 hframe), hvalid, hself]
        cases item with
        | delimiter => cases hframe
        | hello => simp [← Option.some.inj hframe, helloFrame]
        | openChannel channel =>
          have htype : CdcMuxFrameType.channelOpen ≠ .hello := by decide
          simp [← Option.some.inj hframe, htype]
        | closeChannel channel =>
          have htype : CdcMuxFrameType.channelClose ≠ .hello := by decide
          simp [← Option.some.inj hframe, htype]
        | data channel payload =>
          have htype : CdcMuxFrameType.streamData ≠ .hello := by decide
          simp [← Option.some.inj hframe, htype]
    rw [outputs, List.exists_mem_cons_iff, hhead, ← ih hruns.2, List.mem_cons, eq_comm]

/-- The device's decoder holds all of the open packet. -/
theorem Linked.deviceOpenPacket (h : Linked config p items devicePacket hostPacket) :
    p.deviceOpenPacket = devicePacket := by
  have hshort : devicePacket.length ≤ config.maximumCobsPacketSize := by
    cases items with
    | nil =>
      rw [h.toDevice_eq_nil.1]
      exact Nat.zero_le _
    | cons item items =>
      obtain ⟨more, hmore⟩ := exists_of_closed_eq_cons h.toDevice
      have hlength : (item.packet config p.device.view).length ≤ config.maximumCobsPacketSize := by
        cases hframe : item.frame config p.device.view.expected with
        | none => simp [HostItem.packet, hframe]
        | some frame =>
          rw [HostItem.packet_of_frame hframe]
          exact length_packetOf_le (HostItem.admits_frame h.runs.1 hframe)
      rw [hmore, List.length_append] at hlength
      omega
  have hsize := h.deviceFollows.size
  rw [if_neg (Nat.not_lt.mpr hshort)] at hsize
  rw [SessionPair.deviceOpenPacket, hsize]
  exact h.deviceFollows.held hshort

theorem Linked.nothingStale_iff (h : Linked config p items devicePacket hostPacket) :
    p.NothingStale config ↔
      .hello ∉ items ∧ ∀ packet ∈ closed 0 [] p.toHost, Ignored config packet := by
  rw [hello_mem_iff h.runs, ← h.toDevice, ← h.deviceOpenPacket, ← nothingStale_toHost]
  refine ⟨fun hstale => ⟨?_, hstale.toHost⟩, fun ⟨hhello, htoHost⟩ => ⟨htoHost, ?_⟩⟩
  · rintro ⟨packet, hpacket, hhello⟩
    exact hstale.toDevice packet hpacket hhello
  · intro packet hpacket hhello'
    exact hhello ⟨packet, hpacket, hhello'⟩

/-! ## Nothing stale -/

/-- A handshake while nothing else is sent. -/
structure Settling (config : CdcMuxConfig) (p : SessionPair) (items : List HostItem)
    (devicePacket hostPacket : List UInt8) : Prop where
  joint : Joint config (fun _ => False) False p items devicePacket hostPacket []
  transmit : p.host.nextTransmitSequence = 1
  receive : p.host.expectedReceiveSequence = 1

theorem Settling.perform (h : Settling config p items devicePacket hostPacket)
    {operation : Operation} (hdelivers : operation.Delivers) :
    ∃ items' devicePacket' hostPacket',
      Settling config (p.perform config operation).2 items' devicePacket' hostPacket' := by
  obtain ⟨⟨hlinked, hphase⟩, htransmit, hreceive⟩ := h
  cases operation with
  | deliverToDevice count =>
    obtain ⟨decoder, device, r, written, taken, items', packet, hchunk, hwritten, hlinked', hsplit,
      htakes⟩ := hlinked.deviceChunk (List.take_append_drop count p.toDevice).symm {}
    simp only [SessionPair.perform, hchunk, hwritten, List.nil_append]
    exact ⟨_, _, _, ⟨hlinked', hphase.deviceTakes hlinked.toHostWhole hsplit htakes hwritten ..⟩,
      htransmit, hreceive⟩
  | deliverToHost count =>
    have hlast : RefusesLast config p.host hostPacket (p.toHost.take count) := by
      intro a b hsplit hrefused
      have hmem : opened 0 hostPacket a ∈ closed 0 hostPacket p.toHost := by
        rw [← List.take_append_drop count p.toHost, hsplit, List.append_assoc]
        exact opened_mem_closed ..
      obtain ⟨-, channel, hcloses⟩ := hphase.refused hmem hrefused
      exact hcloses.elim
    obtain ⟨status, decoder, host, r, received, packet, inFlight, hchunk, hwritten, -, hlinked',
      hphase', htook, -⟩ :=
      hphase.hostChunk hlinked (List.take_append_drop count p.toHost).symm hlast {}
    obtain rfl : inFlight = [] := List.suffix_nil.mp htook.left
    simp only [SessionPair.perform, hchunk, hwritten, List.append_nil]
    refine ⟨_, _, _, ⟨hlinked', hphase'⟩, htook.transmit.trans htransmit, ?_⟩
    have hbalance := htook.receive
    rw [hreceive] at hbalance
    simpa using hbalance
  | _ => exact hdelivers.elim

theorem Settling.after (h : Settling config p items devicePacket hostPacket)
    {deliveries : List Operation} (hdelivers : ∀ operation ∈ deliveries, operation.Delivers) :
    ∃ items' devicePacket' hostPacket',
      Settling config (p.after config deliveries) items' devicePacket' hostPacket' := by
  induction deliveries generalizing p items devicePacket hostPacket with
  | nil => exact ⟨_, _, _, h⟩
  | cons operation deliveries ih =>
    rw [List.forall_mem_cons] at hdelivers
    obtain ⟨_, _, _, hsettling⟩ := h.perform hdelivers.1
    exact ih hsettling hdelivers.2

theorem Settling.renewed (h : Settling config p items devicePacket hostPacket)
    (hdrained : p.Drained) : p.Renewed := by
  obtain ⟨hagreed, -, -⟩ := h.joint.agreed hdrained
  exact ⟨hagreed, h.transmit, h.receive, hagreed.toHost.trans h.receive,
    hagreed.toDevice.symm.trans h.transmit⟩

/-- Sessions in step deliver what is sent, as long as the host closes nothing. -/
theorem SessionPair.Agreed.delivers (h : p.Agreed) (hreachable : Reachable config p)
    {operations : List Operation}
    (hcontinues : ∀ operation ∈ operations, operation.Continues (fun _ => False) True) :
    let p' := p.after config operations
    let events := p.events config operations
    (∀ e ∈ events, e.status ≠ CdcMuxHostSession.sequenceMismatch) ∧
    ∀ channel, DeliveredInOrder channel (events.flatMap Event.hostSent)
        (events.flatMap Event.deviceReceived) p'.toDevice ∧
      DeliveredInOrder channel (events.flatMap Event.deviceSent)
        (events.flatMap Event.hostReceived) p'.toHost := by
  intro p' events
  obtain ⟨items', devicePacket, hostPacket, inFlight, hjoint, haccounts⟩ :=
    (h.joint hreachable (fun _ => False) True).after hcontinues fun ⟨_, hcloses⟩ => hcloses.elim
  exact ⟨fun e he => (haccounts.faultless e he).ne_sequenceMismatch, fun channel =>
    ⟨haccounts.toDeviceInOrder rfl hjoint.linked channel,
      haccounts.toHostInOrder hjoint.phase not_false⟩⟩

theorem SessionPair.NothingStale.converges (h : p.NothingStale config)
    (hreachable : Reachable config p) : p.Converges config := by
  intro deliveries hdelivers p' hdrained
  obtain ⟨items, devicePacket, hostPacket, hlinked⟩ := hreachable.linked
  obtain ⟨hhello, hignored⟩ := hlinked.nothingStale_iff.mp h
  obtain ⟨hjoint, hpending, -⟩ := hlinked.joint hhello hignored (fun _ => False) False False.elim
  obtain ⟨-, htransmit, hreceive⟩ := hjoint.linked.host.pending hpending
  obtain ⟨_, _, _, hsettling⟩ := Settling.after ⟨hjoint, htransmit, hreceive⟩ hdelivers
  have hrenewed := hsettling.renewed hdrained
  exact ⟨hrenewed, fun operations hcontinues =>
    hrenewed.agreed.delivers ((hreachable.after [_]).after _) hcontinues⟩

/-! ## Something stale -/

/-- A host that will meet an acknowledgement without waiting for one: before the last packet on its
way, which is an acknowledgement, comes another frame, unless it waits no more. -/
structure Doomed (config : CdcMuxConfig) (p : SessionPair) (items : List HostItem)
    (devicePacket hostPacket : List UInt8) (before : List (List UInt8)) : Prop where
  linked : Linked config p items devicePacket hostPacket
  toDevice : p.toDevice = []
  toHost : closed 0 hostPacket p.toHost = before ++ [packetOf (ackFrame config)]
  frame : p.host.handshakePending → ∃ packet ∈ before, ¬Ignored config packet

/-- A frame ends the wait of a host. -/
theorem CdcMuxHostSession.Handles.not_pending {packet : CdcMuxDecodedPacket}
    {session session' : CdcMuxHostSession} {r r' : CallRecord} {status : Status}
    (h : Handles config packet session r (status, session', r'))
    (hsession : session.WellFormed config)
    (hframe : session.handshakePending → packet.valid) : session'.handshakePending = false := by
  cases h with
  | ignored hinvalid =>
    by_contra hpending
    rw [hframe ((Bool.not_eq_false _).mp hpending)] at hinvalid
    exact nomatch hinvalid
  | joined _ _ _ => rfl
  | lost hidle _ _ => exact hidle.pending
  | numbered hestablished _ _ => exact hsession.not_pending hestablished

/-- An acknowledgement that a host does not wait for ends its session. -/
theorem CdcMuxHostSession.Handles.lost_of_ack {session session' : CdcMuxHostSession}
    {r r' : CallRecord} {status : Status}
    (h : Handles config (.accepted (ackFrame config)) session r (status, session', r'))
    (hpending : session.handshakePending = false) : session'.established = false := by
  cases h with
  | ignored hinvalid => exact nomatch hinvalid
  | joined hwaits _ _ =>
    rw [hpending] at hwaits
    exact nomatch hwaits
  | lost hidle _ _ => exact hidle.established
  | numbered _ htype _ =>
    have hack : (CdcMuxDecodedPacket.accepted (ackFrame config)).frame.type = .helloAck := rfl
    rw [hack] at htype
    exact absurd htype (by decide)

theorem exists_mem_of_exists_mem_cons {P : List UInt8 → Prop} {first : List UInt8}
    {packets : List (List UInt8)} (h : ∃ packet ∈ first :: packets, P packet) (hfirst : ¬P first) :
    ∃ packet ∈ packets, P packet := by
  rw [List.exists_mem_cons_iff] at h
  exact h.resolve_left hfirst

theorem Doomed.deliver {before : List (List UInt8)}
    (h : Doomed config p items devicePacket hostPacket before) {byte : UInt8} {rest : List UInt8}
    (hlink : p.toHost = byte :: rest) :
    let p' := (p.perform config (.deliverToHost 1)).2
    p'.toHost = rest ∧
      ((∃ hostPacket' before', Doomed config p' items devicePacket hostPacket' before') ∨
        p'.Drained ∧ p'.host.established = false) := by
  obtain ⟨status, decoder, host, r, hostPacket', hbyte, hwritten, hlinked, hcase⟩ :=
    h.linked.hostByte hlink {}
  have hperform : (p.perform config (.deliverToHost 1)).2 =
      ⟨decoder, host, p.deviceDecoder, p.device, [], rest⟩ := by
    have htake : p.toHost.take 1 = [byte] := by rw [hlink]; rfl
    have hdrop : p.toHost.drop 1 = rest := by rw [hlink]; rfl
    have hdevice : p.toDevice ++ r.written = [] := by rw [h.toDevice, hwritten]; rfl
    simp only [SessionPair.perform, CdcMuxHostSession.ingestWire, htake, hdrop, hbyte, hdevice]
  have htoHost := h.toHost
  rw [h.toDevice] at hlinked
  rw [hlink] at htoHost
  intro p'
  rw [show p' = _ from hperform]
  refine ⟨rfl, ?_⟩
  cases hcase with
  | more hne =>
    rw [closed, if_neg hne] at htoHost
    exact .inl ⟨_, _, hlinked, rfl, htoHost, h.frame⟩
  | empty hnil =>
    rw [closed_delimiter, hnil] at htoHost
    cases before with
    | nil => exact absurd (List.cons.inj htoHost).1.symm (packetOf_ne_nil _)
    | cons first before =>
      obtain ⟨rfl, hrest⟩ := List.cons.inj htoHost
      refine .inl ⟨_, _, hlinked, rfl, hrest, fun hpending => ?_⟩
      exact exists_mem_of_exists_mem_cons (h.frame hpending) fun hnot => hnot fun hne => absurd rfl hne
  | packet hne hhandle hhandles =>
    rw [closed_delimiter] at htoHost
    cases before with
    | nil =>
      obtain ⟨rfl, hrest⟩ := List.cons.inj htoHost
      obtain ⟨-, rfl⟩ := eq_nil_of_closed_opened hrest hlinked.toHostWhole
      have hpending : p.host.handshakePending = false := by
        by_contra hpending
        obtain ⟨packet, hpacket, -⟩ := h.frame ((Bool.not_eq_false _).mp hpending)
        cases hpacket
      rw [report_packetOf admits_ackFrame] at hhandles
      exact .inr ⟨⟨rfl, rfl⟩, hhandles.lost_of_ack hpending⟩
    | cons first before =>
      obtain ⟨rfl, hrest⟩ := List.cons.inj htoHost
      refine .inl ⟨_, _, hlinked, rfl, hrest, fun hpending => ?_⟩
      by_cases hignored : Ignored config hostPacket
      · rw [CdcMuxHostSession.handlePacket_invalid (hignored hne)] at hhandle
        cases hhandle
        exact exists_mem_of_exists_mem_cons (h.frame hpending) fun hnot => hnot hignored
      · have hvalid : (report config hostPacket).valid = true := by
          by_contra hinvalid
          exact hignored fun _ => (Bool.not_eq_true _).mp hinvalid
        have hover := hhandles.not_pending h.linked.host fun _ => hvalid
        exact absurd hpending (by simp [hover])

/-- Byte by byte the acknowledgement comes, and the session is lost. -/
theorem Doomed.lost {before : List (List UInt8)}
    (h : Doomed config p items devicePacket hostPacket before) :
    ∃ n, let p' := p.after config (.replicate n (.deliverToHost 1))
      p'.Drained ∧ p'.host.established = false := by
  induction hlink : p.toHost generalizing p hostPacket before with
  | nil =>
    have htoHost := h.toHost
    rw [hlink] at htoHost
    simp at htoHost
  | cons byte rest ih =>
    obtain ⟨hrest, ⟨hostPacket', before', hdoomed⟩ | hlost⟩ := h.deliver hlink
    · obtain ⟨n, hn⟩ := ih hdoomed hrest
      exact ⟨n + 1, hn⟩
    · exact ⟨1, hlost⟩

/-- The device answers every HELLO, also the ones before the last. -/
theorem Linked.doomed (h : Linked config p items devicePacket hostPacket)
    (hstale : ¬p.NothingStale config) :
    ∃ count devicePacket' before,
      Doomed config ((p.perform config .beginHandshake).2.perform config (.deliverToDevice count)).2 []
        devicePacket' [] before := by
  rw [h.nothingStale_iff] at hstale
  obtain ⟨decoder, host, r, hbegin, -, -, -, hlinked⟩ := h.beginHandshake
  simp only [SessionPair.perform, hbegin]
  have hwhole : p.toDevice ++ r.written = (p.toDevice ++ r.written) ++ [] := (List.append_nil _).symm
  obtain ⟨decoder', device, r', written, taken, items', devicePacket', hchunk, hwritten, hlinked',
    hsplit, htakes⟩ := hlinked.deviceChunk hwhole {}
  obtain rfl := hlinked'.items_eq_nil rfl
  obtain rfl : items ++ [.delimiter, .hello] = taken := hsplit.trans (List.append_nil _)
  refine ⟨(p.toDevice ++ r.written).length, devicePacket',
    closed 0 [] p.toHost ++ .replicate (items.count .hello) (packetOf (ackFrame config)), ?_⟩
  rw [List.take_length, List.drop_length, hchunk]
  dsimp only
  have hanswers : r'.written = (List.replicate (items.count .hello + 1)
      (packetOf (ackFrame config))).flatMap (· ++ [0]) := by
    have hcount : (items ++ [HostItem.delimiter, .hello]).count .hello =
        items.count .hello + 1 := by
      rw [List.count_append]
      rfl
    have hnothing : ({} : CallRecord).written = [] := rfl
    rw [htakes.written, HostItem.answers_eq, hcount, hnothing, List.nil_append, ← List.map_replicate,
      ← List.flatMap_def, flatMap_wireOf, List.map_replicate]
  rw [hwritten, List.nil_append] at hanswers ⊢
  refine ⟨hlinked', rfl, ?_, fun _ => ?_⟩
  · rw [hanswers]
    refine (closed_append_flatMap hlinked.toHostWhole fun body hbody => ?_).trans ?_
    · rw [(List.mem_replicate.mp hbody).2]
      exact zero_not_mem_packetOf _
    · rw [List.replicate_succ', List.append_assoc]
  · by_cases hhello : .hello ∈ items
    · -- The device answers an earlier HELLO too.
      have hmem : packetOf (ackFrame config) ∈
          List.replicate (items.count .hello) (packetOf (ackFrame config)) :=
        List.mem_replicate.mpr ⟨Nat.ne_of_gt (List.count_pos_iff.mpr hhello), rfl⟩
      exact ⟨_, List.mem_append_right _ hmem, not_ignored_packetOf admits_ackFrame⟩
    · by_contra hnone
      refine hstale ⟨hhello, fun packet hpacket => ?_⟩
      by_contra hnot
      exact hnone ⟨packet, List.mem_append_left _ hpacket, hnot⟩

/-- A handshake issued again converges just where nothing stale is in flight. -/
theorem rehandshake_converges_iff (hreachable : Reachable config p) :
    p.Converges config ↔ p.NothingStale config := by
  refine ⟨fun hconverges => ?_, fun h => h.converges hreachable⟩
  obtain ⟨items, devicePacket, hostPacket, hlinked⟩ := hreachable.linked
  by_contra hstale
  obtain ⟨count, devicePacket', before, hdoomed⟩ := hlinked.doomed hstale
  obtain ⟨n, hdrained, hlost⟩ := hdoomed.lost
  have hdelivers : ∀ operation ∈
      Operation.deliverToDevice count :: List.replicate n (Operation.deliverToHost 1),
      operation.Delivers := by
    rw [List.forall_mem_cons]
    exact ⟨trivial, fun operation hoperation => (List.mem_replicate.mp hoperation).2 ▸ trivial⟩
  obtain ⟨hrenewed, -⟩ := hconverges _ hdelivers hdrained
  exact Bool.false_ne_true (hlost.symm.trans hrenewed.agreed.host)

/-- Data of the host is in flight in the earlier session. -/
theorem rehandshake_converges_iff_hostSent :
    (bothOpened.after {} [.hostSend .controlStatus [1]]).Converges {} :=
  (rehandshake_converges_iff (reachable_bothOpened.after _)).mpr
    ⟨by decide +kernel, by decide +kernel⟩

/-- Data of the device is in flight in the earlier session: it reaches the host before the
acknowledgement, and the host gives up. -/
theorem rehandshake_loses_session :
    let p := bothOpened.after {} [.deviceSend .controlStatus [1]]
    let p' := (p.perform {} .beginHandshake).2.after {} [.deliverToDevice 100, .deliverToHost 100]
    p.host.established ∧ p.device.established ∧ p'.Drained ∧ p'.host.established = false ∧
      p'.device.established := by
  decide +kernel

/-- Two HELLOs are in flight: the host joins on the first acknowledgement, and gives up on the
second. -/
example :
    let p := (bothOpened.perform {} .beginHandshake).2
    let p' := (p.perform {} .beginHandshake).2.after {} [.deliverToDevice 100, .deliverToHost 100]
    p'.Drained ∧ p'.host.established = false := by
  decide +kernel

end WaveformGenerator.Dd008
