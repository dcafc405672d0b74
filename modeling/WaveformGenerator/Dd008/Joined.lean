import WaveformGenerator.Dd008.Linked

/-!
# From a handshake to a session

`Phase` follows one handshake: the HELLO is on its way, then its acknowledgement, then both ends are
in a session and what is in flight to the host is data in the numbers it expects.
-/

namespace WaveformGenerator.Dd008

open Delimited Guarded

variable (config : CdcMuxConfig)

/-- A packet that a host takes no notice of. -/
def Ignored (packet : List UInt8) : Prop :=
  packet ≠ [] → (report config packet).valid = false

/-- The host has joined the device's session, and `inFlight` is the data on its way to the host. The
host may have closed the channels of `closes`. -/
structure InSession (closes : CdcMuxChannel → Prop) (p : SessionPair) (items : List HostItem)
    (hostPacket : List UInt8) (inFlight : List (CdcMuxChannel × List UInt8)) : Prop where
  host : p.host.established
  negotiated : p.host.negotiatedPayloadSize.toNat = config.maximumPayloadSize
  device : p.device.established
  noHello : .hello ∉ items
  closing : ∀ channel, .closeChannel channel ∈ items → closes channel
  toHost : closed 0 hostPacket p.toHost =
    (numbered p.host.expectedReceiveSequence inFlight).map packetOf
  expectable : ∀ data ∈ inFlight, Carriable config data ∧
    (¬closes data.1 → p.host.channelOpen data.1)
  next : p.device.nextTransmitSequence =
    p.host.expectedReceiveSequence + .ofNat inFlight.length

/-- How far a handshake is. It is `quiet` when the device is in no session before the HELLO. -/
inductive Phase (closes : CdcMuxChannel → Prop) (quiet : Prop) (p : SessionPair)
    (items : List HostItem) (hostPacket : List UInt8) :
    List (CdcMuxChannel × List UInt8) → Prop
  | greeting {stale : List HostItem} : p.host.handshakePending → items = stale ++ [.hello] →
    .hello ∉ stale → (∀ packet ∈ closed 0 hostPacket p.toHost, Ignored config packet) →
    (quiet → p.device.established = false) → Phase closes quiet p items hostPacket []
  | answered {before : List (List UInt8)} : p.host.handshakePending → items = [] →
    closed 0 hostPacket p.toHost = before ++ [packetOf (ackFrame config)] →
    (∀ packet ∈ before, Ignored config packet) → p.device.view = .fresh →
    p.device.nextTransmitSequence = 1 → Phase closes quiet p items hostPacket []
  | joined {inFlight : List (CdcMuxChannel × List UInt8)} :
    InSession config closes p items hostPacket inFlight →
    Phase closes quiet p items hostPacket inFlight

variable {config} {closes : CdcMuxChannel → Prop} {quiet : Prop} {p : SessionPair} {items : List HostItem}
  {devicePacket hostPacket : List UInt8} {inFlight : List (CdcMuxChannel × List UInt8)}

/-- A channel that nothing closes stays open. -/
theorem channels_foldl {view : View} {channel : CdcMuxChannel} (hopen : view.channels channel)
    (hhello : .hello ∉ items) (hclose : .closeChannel channel ∉ items) :
    (items.foldl HostItem.apply view).channels channel := by
  induction items generalizing view with
  | nil => exact hopen
  | cons item items ih =>
    rw [List.mem_cons, not_or] at hhello hclose
    refine ih ?_ hhello.2 hclose.2
    cases item with
    | delimiter => exact hopen
    | hello => exact absurd rfl hhello.1
    | openChannel other =>
      by_cases hsame : channel = other
      · simp [HostItem.apply, hsame]
      · simpa [HostItem.apply, hsame] using hopen
    | closeChannel other =>
      have hne : channel ≠ other := fun hsame => hclose.1 (congrArg _ hsame)
      simpa [HostItem.apply, hne] using hopen
    | data _ _ => exact hopen

/-- Only a HELLO leaves a device out of session, and only for a new one. -/
theorem established_foldl {view : View} (h : view.established) (items : List HostItem) :
    (items.foldl HostItem.apply view).established := by
  induction items generalizing view with
  | nil => exact h
  | cons item items ih => exact ih (by cases item <;> first | exact h | rfl)

theorem established_foldl_eq (view : View) (hhello : .hello ∉ items) :
    (items.foldl HostItem.apply view).established = view.established := by
  induction items generalizing view with
  | nil => rfl
  | cons item items ih =>
    rw [List.mem_cons, not_or] at hhello
    rw [List.foldl_cons, ih _ hhello.2]
    cases item with
    | hello => exact absurd rfl hhello.1
    | _ => rfl

/-- The device has no channel open that the host has neither open nor closed. -/
theorem InSession.channelOpen (h : InSession config closes p items hostPacket inFlight)
    (hlinked : Linked config p items devicePacket hostPacket) {channel : CdcMuxChannel}
    (hopen : p.device.channelOpen channel) (hkept : ¬closes channel) :
    p.host.channelOpen channel := by
  have hview : p.device.view.channels channel = true := hopen
  have hpeer := channels_foldl hview h.noHello fun hclose => hkept (h.closing channel hclose)
  rw [hlinked.peer (.inr h.host)] at hpeer
  exact hpeer

/-! ## The device takes items -/

theorem Phase.deviceTakes (h : Phase config closes quiet p items hostPacket inFlight)
    (hopened : opened 0 hostPacket p.toHost = []) {taken items' : List HostItem}
    (hsplit : items = taken ++ items') {device : CdcMuxDeviceSession} {r r' : CallRecord}
    {written : List UInt8} (htakes : TakesAll config taken p.device device r r')
    (hwritten : r'.written = r.written ++ written) (decoder : CdcMuxStreamDecoder)
    (rest : List UInt8) :
    Phase config closes quiet ⟨p.hostDecoder, p.host, decoder, device, rest, p.toHost ++ written⟩ items'
      hostPacket inFlight := by
  have hquiet (hhello : .hello ∉ taken) :
      p.toHost ++ written = p.toHost ∧
        device.nextTransmitSequence = p.device.nextTransmitSequence := by
    obtain ⟨hsame, hnext⟩ := htakes.quiet hhello
    rw [hwritten] at hsame
    rw [List.append_right_eq_self.mp hsame, List.append_nil]
    exact ⟨rfl, hnext⟩
  cases h with
  | @greeting stale hpending hitems hstale hignored hbefore =>
    rcases List.eq_nil_or_concat items' with rfl | ⟨front, last, rfl⟩
    · -- The device takes the HELLO: it answers, and is in a new session.
      obtain rfl : taken = stale ++ [.hello] := by rw [← hitems, hsplit, List.append_nil]
      have hanswer : written = wireOf (ackFrame config) := by
        have hwrote := hwritten.symm.trans htakes.written
        rw [List.append_cancel_left_eq, List.flatMap_append,
          List.flatMap_eq_nil_iff.mpr (fun item hitem => ?_)] at hwrote
        · simpa using hwrote
        · have hne : item ≠ .hello := fun hhello => hstale (hhello ▸ hitem)
          exact if_neg hne
      refine .answered hpending rfl ?_ hignored ?_ (htakes.next.trans (if_pos (by simp)))
      · rw [hanswer]
        exact closed_append_body hopened (zero_not_mem_packetOf _)
      · rw [htakes.view, List.foldl_append]
        rfl
    · rw [List.concat_eq_append] at hsplit ⊢
      rw [hitems, ← List.append_assoc] at hsplit
      obtain ⟨rfl, hlast⟩ := List.append_inj' hsplit rfl
      obtain ⟨hsame, -⟩ := hquiet fun hhello => hstale (List.mem_append_left _ hhello)
      refine .greeting hpending (congrArg (front ++ ·) hlast.symm)
        (fun hhello => hstale (List.mem_append_right _ hhello)) (by rw [hsame]; exact hignored)
        fun hquiet => ?_
      have hview : device.view.established = p.device.view.established := by
        rw [htakes.view]
        exact established_foldl_eq _ fun hhello => hstale (List.mem_append_left _ hhello)
      exact hview.trans (hbefore hquiet)
  | answered hpending hitems htoHost hbefore hview hnext =>
    obtain ⟨rfl, rfl⟩ := List.append_eq_nil_iff.mp (hsplit.symm.trans hitems)
    obtain ⟨hsame, hnext'⟩ := hquiet List.not_mem_nil
    exact .answered hpending rfl (by rw [hsame]; exact htoHost) hbefore (htakes.view.trans hview)
      (hnext'.trans hnext)
  | joined hsession =>
    subst hsplit
    obtain ⟨hsame, hnext'⟩ := hquiet fun hhello => hsession.noHello (List.mem_append_left _ hhello)
    refine .joined ⟨hsession.host, hsession.negotiated, ?_,
      fun hhello => hsession.noHello (List.mem_append_right _ hhello),
      fun channel hclose => hsession.closing channel (List.mem_append_right _ hclose),
      by rw [hsame]; exact hsession.toHost, hsession.expectable, hnext'.trans hsession.next⟩
    have hview : device.view.established = true := by
      rw [htakes.view]
      exact established_foldl hsession.device taken
    exact hview

/-! ## The host takes bytes -/

/-- A packet of data for a channel that the host does not have open. -/
def Refused (config : CdcMuxConfig) (host : CdcMuxHostSession) (packet : List UInt8) : Prop :=
  (report config packet).valid ∧ (report config packet).frame.type = .streamData ∧
    host.channelOpen (report config packet).frame.channel = false

/-- What the host made of some bytes: what it received, and how it stands to what is in flight. -/
structure HostTook (closes : CdcMuxChannel → Prop) (host host' : CdcMuxHostSession)
    (inFlight inFlight' received : List (CdcMuxChannel × List UInt8)) : Prop where
  established : host.established → host'.established
  channels : host'.channelOpen = host.channelOpen
  peerError : host'.lastPeerError = host.lastPeerError
  transmit : host'.nextTransmitSequence = host.nextTransmitSequence
  receive : host'.expectedReceiveSequence + .ofNat inFlight'.length =
    host.expectedReceiveSequence + .ofNat inFlight.length
  left : inFlight' <:+ inFlight
  /-- But for channels that it may have closed, the host receives what was in flight. -/
  exact : ∀ channel, ¬closes channel →
    bytesOn channel inFlight = bytesOn channel received ++ bytesOn channel inFlight'

theorem HostTook.nothing (host : CdcMuxHostSession)
    (inFlight : List (CdcMuxChannel × List UInt8)) :
    HostTook closes host host inFlight inFlight [] where
  established := id
  channels := rfl
  peerError := rfl
  transmit := rfl
  receive := rfl
  left := List.suffix_rfl
  exact _ _ := rfl

theorem HostTook.trans {host host' host'' : CdcMuxHostSession}
    {inFlight inFlight' inFlight'' received received' : List (CdcMuxChannel × List UInt8)}
    (h : HostTook closes host host' inFlight inFlight' received)
    (h' : HostTook closes host' host'' inFlight' inFlight'' received') :
    HostTook closes host host'' inFlight inFlight'' (received ++ received') where
  established := h'.established ∘ h.established
  channels := h'.channels.trans h.channels
  peerError := h'.peerError.trans h.peerError
  transmit := h'.transmit.trans h.transmit
  receive := h'.receive.trans h.receive
  left := h'.left.trans h.left
  exact channel hkept := by
    rw [h.exact channel hkept, h'.exact channel hkept, bytesOn_append, List.append_assoc]

theorem not_ignored_packetOf {frame : CdcMuxFrameView} (h : config.Admits frame) :
    ¬Ignored config (packetOf frame) := by
  intro hignored
  have hinvalid := hignored (packetOf_ne_nil frame)
  rw [report_packetOf h] at hinvalid
  exact nomatch hinvalid

/-- A byte that closes nothing changes nothing but where the open packet is. -/
theorem Phase.more (h : Phase config closes quiet p items hostPacket inFlight) {rest hostPacket' : List UInt8}
    (hclosed : closed 0 hostPacket p.toHost = closed 0 hostPacket' rest)
    (decoder : CdcMuxStreamDecoder) :
    Phase config closes quiet ⟨decoder, p.host, p.deviceDecoder, p.device, p.toDevice, rest⟩ items
      hostPacket' inFlight := by
  cases h with
  | greeting hpending hitems hstale hignored hbefore =>
    exact .greeting hpending hitems hstale (hclosed ▸ hignored) hbefore
  | answered hpending hitems htoHost hbefore hview hnext =>
    exact .answered hpending hitems (hclosed.symm.trans htoHost) hbefore hview hnext
  | joined hsession =>
    exact .joined ⟨hsession.host, hsession.negotiated, hsession.device, hsession.noHello,
      hsession.closing, hclosed.symm.trans hsession.toHost, hsession.expectable, hsession.next⟩

/-- A packet that is ignored goes by. -/
theorem Phase.skip (h : Phase config closes quiet p items hostPacket inFlight) {rest : List UInt8}
    (hclosed : closed 0 hostPacket p.toHost = hostPacket :: closed 0 [] rest)
    (hskip : Ignored config hostPacket) (decoder : CdcMuxStreamDecoder) :
    Phase config closes quiet ⟨decoder, p.host, p.deviceDecoder, p.device, p.toDevice, rest⟩ items []
      inFlight := by
  cases h with
  | greeting hpending hitems hstale hignored hbefore =>
    rw [hclosed, List.forall_mem_cons] at hignored
    exact .greeting hpending hitems hstale hignored.2 hbefore
  | @answered before hpending hitems htoHost hbefore hview hnext =>
    rw [hclosed] at htoHost
    cases before with
    | nil =>
      rw [(List.cons.inj htoHost).1] at hskip
      exact absurd hskip (not_ignored_packetOf admits_ackFrame)
    | cons first before =>
      exact .answered hpending hitems (List.cons.inj htoHost).2
        (List.forall_mem_cons.mp hbefore).2 hview hnext
  | joined hsession =>
    have htoHost := hsession.toHost
    rw [hclosed] at htoHost
    cases inFlight with
    | nil => exact nomatch htoHost
    | cons data inFlight =>
      have hcarriable := (hsession.expectable data List.mem_cons_self).1
      rw [(List.cons.inj htoHost).1] at hskip
      exact absurd hskip (not_ignored_packetOf (admits_streamData hcarriable _))

/-- What the host makes of a packet of a session that goes well. -/
theorem Phase.handles (h : Phase config closes quiet p items hostPacket inFlight)
    (hhost : p.host.WellFormed config) {rest : List UInt8}
    (hclosed : closed 0 hostPacket p.toHost = hostPacket :: closed 0 [] rest)
    (hnot : ¬Ignored config hostPacket) {decoder : CdcMuxStreamDecoder} {status : Status}
    {host : CdcMuxHostSession} {r r' : CallRecord}
    (hhandle : CdcMuxHostSession.handlePacket config recording (report config hostPacket) decoder
      (p.host, r) = (status, decoder, host, r')) (decoder' : CdcMuxStreamDecoder) :
    ∃ received inFlight', r'.received = r.received ++ received ∧
      Phase config closes quiet ⟨decoder', host, p.deviceDecoder, p.device, p.toDevice, rest⟩ items []
        inFlight' ∧
      HostTook closes p.host host inFlight inFlight' received ∧
      (status = .success ∨ status = CdcMuxHostSession.closedChannelWritten ∧
        (∃ channel, closes channel) ∧ Refused config p.host hostPacket) := by
  cases h with
  | greeting hpending hitems hstale hignored hbefore =>
    rw [hclosed, List.forall_mem_cons] at hignored
    exact absurd hignored.1 hnot
  | @answered before hpending hitems htoHost hbefore hview hnext =>
    rw [hclosed] at htoHost
    cases before with
    | cons first before =>
      rw [← (List.cons.inj htoHost).1, List.forall_mem_cons] at hbefore
      exact absurd hbefore.1 hnot
    | nil =>
      obtain ⟨rfl, hrest⟩ := List.cons.inj htoHost
      rw [report_packetOf admits_ackFrame, CdcMuxHostSession.handlePacket_ack hpending] at hhandle
      obtain ⟨rfl, -, rfl, rfl⟩ : .success = status ∧ decoder = decoder ∧
          p.host.joined (.ofNat config.maximumPayloadSize) = host ∧ r = r' := by
        simpa using hhandle
      refine ⟨[], [], (List.append_nil _).symm, .joined ⟨rfl, toNat_maximumPayloadSize, ?_, ?_,
        ?_, hrest, (fun data hdata => nomatch hdata), ?_⟩,
        ⟨fun _ => rfl, rfl, rfl, rfl, rfl, List.suffix_rfl, fun _ _ => rfl⟩, .inl rfl⟩
      · exact congrArg View.established hview
      · simp [hitems]
      · simp [hitems]
      · have hexpected : p.host.expectedReceiveSequence = 1 := (hhost.pending hpending).2.2
        show _ = p.host.expectedReceiveSequence + 0
        rw [hnext, hexpected]
        rfl
  | joined hsession =>
    have htoHost := hsession.toHost
    rw [hclosed] at htoHost
    cases inFlight with
    | nil => exact nomatch htoHost
    | cons data inFlight =>
      obtain ⟨channel, payload⟩ := data
      obtain ⟨hpacket, hrest⟩ := List.cons.inj htoHost
      obtain ⟨⟨hcarriable, hopening⟩, hexpectable⟩ := List.forall_mem_cons.mp hsession.expectable
      have hreport : report config hostPacket = .accepted ⟨.streamData, channel,
          p.host.expectedReceiveSequence, payload⟩ :=
        hpacket ▸ report_packetOf (admits_streamData hcarriable _)
      have hnext : p.device.nextTransmitSequence =
          p.host.expectedReceiveSequence + 1 + .ofNat inFlight.length := by
        rw [hsession.next]
        simp [UInt32.ofNat_add, UInt32.add_assoc, UInt32.add_comm 1]
      have hreceive : p.host.received.expectedReceiveSequence + .ofNat inFlight.length =
          p.host.expectedReceiveSequence + .ofNat ((channel, payload) :: inFlight).length :=
        hnext.symm.trans hsession.next
      have hphase : Phase config closes quiet ⟨decoder', p.host.received, p.deviceDecoder, p.device,
          p.toDevice, rest⟩ items [] inFlight :=
        .joined ⟨hsession.host, hsession.negotiated, hsession.device, hsession.noHello,
          hsession.closing, hrest, hexpectable, hnext⟩
      rw [hreport, CdcMuxHostSession.handlePacket_data hsession.host] at hhandle
      split at hhandle
      case isTrue hopen =>
        cases hhandle
        refine ⟨[(channel, payload)], inFlight, rfl, hphase,
          ⟨id, rfl, rfl, rfl, hreceive, List.suffix_cons .., fun on _ => ?_⟩, .inl rfl⟩
        rw [← List.singleton_append, bytesOn_append]
      case isFalse hshut =>
        cases hhandle
        refine ⟨[], inFlight, (List.append_nil _).symm, hphase,
          ⟨id, rfl, rfl, rfl, hreceive, List.suffix_cons .., fun on hkept => ?_⟩,
          .inr ⟨rfl, ⟨channel, ?_⟩, ?_⟩⟩
        · have hne : channel ≠ on := fun hsame => hshut (hopening (hsame ▸ hkept))
          simp [bytesOn, hne]
        · by_contra hkept
          exact hshut (hopening hkept)
        · rw [Refused, hreport]
          exact ⟨rfl, rfl, (Bool.not_eq_true _).mp hshut⟩

theorem Phase.hostByte (h : Phase config closes quiet p items hostPacket inFlight)
    (hhost : p.host.WellFormed config) {byte : UInt8} {rest : List UInt8}
    (hlink : p.toHost = byte :: rest) {hostPacket' : List UInt8} {status : Status}
    {host : CdcMuxHostSession} {r r' : CallRecord}
    (hbyte : Linked.HostByte config p hostPacket r byte hostPacket' status host r')
    (decoder : CdcMuxStreamDecoder) :
    ∃ received inFlight', r'.received = r.received ++ received ∧
      Phase config closes quiet ⟨decoder, host, p.deviceDecoder, p.device, p.toDevice, rest⟩ items
        hostPacket' inFlight' ∧
      HostTook closes p.host host inFlight inFlight' received ∧
      (status = .success ∨ status = CdcMuxHostSession.closedChannelWritten ∧
        (∃ channel, closes channel) ∧ byte = 0 ∧ Refused config p.host hostPacket) := by
  cases hbyte with
  | more hne =>
    exact ⟨[], inFlight, (List.append_nil _).symm, h.more (by rw [hlink, closed, if_neg hne]) decoder,
      .nothing .., .inl rfl⟩
  | empty hnil =>
    have hclosed : closed 0 hostPacket p.toHost = hostPacket :: closed 0 [] rest := by
      rw [hlink, closed_delimiter]
    exact ⟨[], inFlight, (List.append_nil _).symm,
      h.skip hclosed (fun hne => absurd hnil hne) decoder, .nothing .., .inl rfl⟩
  | @packet decoder' status host r' hne hhandle hhandles =>
    have hclosed : closed 0 hostPacket p.toHost = hostPacket :: closed 0 [] rest := by
      rw [hlink, closed_delimiter]
    by_cases hignored : Ignored config hostPacket
    · rw [CdcMuxHostSession.handlePacket_invalid (hignored hne)] at hhandle
      cases hhandle
      exact ⟨[], inFlight, (List.append_nil _).symm, h.skip hclosed hignored decoder, .nothing ..,
        .inl rfl⟩
    · obtain ⟨received, inFlight', hreceived, hphase, htook, hstatus⟩ :=
        h.handles hhost hclosed hignored hhandle decoder
      refine ⟨received, inFlight', hreceived, hphase, htook, ?_⟩
      rcases hstatus with rfl | ⟨rfl, hcloses, hrefused⟩
      · exact .inl rfl
      · exact .inr ⟨rfl, hcloses, rfl, hrefused⟩

/-- Where a chunk closes a packet that the host refuses, it ends. -/
def RefusesLast (config : CdcMuxConfig) (host : CdcMuxHostSession) (hostPacket chunk : List UInt8) :
    Prop :=
  ∀ a b, chunk = a ++ 0 :: b → Refused config host (opened 0 hostPacket a) → b = []

theorem Linked.HostByte.opened {byte : UInt8} {hostPacket' : List UInt8} {status : Status}
    {host : CdcMuxHostSession} {r r' : CallRecord}
    (h : Linked.HostByte config p hostPacket r byte hostPacket' status host r') (a : List UInt8) :
    opened 0 hostPacket (byte :: a) = Delimited.opened 0 hostPacket' a := by
  cases h with
  | more hne => rw [Delimited.opened, if_neg hne]
  | empty _ => rw [opened_delimiter]
  | packet _ _ _ => rw [opened_delimiter]

/-- A chunk that ends where a packet is refused takes the session on. -/
theorem Phase.hostChunk (h : Phase config closes quiet p items hostPacket inFlight)
    (hlinked : Linked config p items devicePacket hostPacket) {chunk rest : List UInt8}
    (hlink : p.toHost = chunk ++ rest) (hlast : RefusesLast config p.host hostPacket chunk)
    (r : CallRecord) :
    ∃ status decoder host r' received hostPacket' inFlight',
      CdcMuxHostSession.ingestWire config recording p.hostDecoder p.host r chunk =
        (status, decoder, host, r') ∧
      r'.written = r.written ∧ r'.received = r.received ++ received ∧
      Linked config ⟨decoder, host, p.deviceDecoder, p.device, p.toDevice, rest⟩ items devicePacket
        hostPacket' ∧
      Phase config closes quiet ⟨decoder, host, p.deviceDecoder, p.device, p.toDevice, rest⟩ items
        hostPacket' inFlight' ∧
      HostTook closes p.host host inFlight inFlight' received ∧
      (status = .success ∨ status = CdcMuxHostSession.closedChannelWritten ∧
        ∃ channel, closes channel) := by
  induction chunk generalizing p hostPacket inFlight r with
  | nil =>
    have hrest : p.toHost = rest := hlink
    subst hrest
    exact ⟨_, _, _, r, [], hostPacket, inFlight, rfl, rfl, (List.append_nil _).symm, hlinked, h,
      .nothing .., .inl rfl⟩
  | cons byte chunk ih =>
    obtain ⟨status, decoder, host, r₁, packet₁, hbyte, hwritten₁, hlinked₁, hcase⟩ :=
      hlinked.hostByte hlink r
    obtain ⟨received₁, inFlight₁, hreceived₁, hphase₁, htook₁, hstatus⟩ :=
      h.hostByte hlinked.host hlink hcase decoder
    rcases hstatus with rfl | ⟨rfl, hcloses, rfl, hrefused⟩
    · have hlast₁ : RefusesLast config host packet₁ chunk := by
        intro a b hsplit hrefused
        refine hlast (byte :: a) b (congrArg (byte :: ·) hsplit) ?_
        rw [hcase.opened]
        exact ⟨hrefused.1, hrefused.2.1, htook₁.channels ▸ hrefused.2.2⟩
      obtain ⟨status₂, decoder₂, host₂, r₂, received₂, packet₂, inFlight₂, hchunk, hwritten₂,
        hreceived₂, hlinked₂, hphase₂, htook₂, hstatus₂⟩ := ih hphase₁ hlinked₁ rfl hlast₁ r₁
      refine ⟨_, _, _, _, received₁ ++ received₂, _, _, ?_, hwritten₂.trans hwritten₁, ?_, hlinked₂,
        hphase₂, htook₁.trans htook₂, hstatus₂⟩
      · rw [CdcMuxHostSession.ingestWire, CdcMuxStreamDecoder.ingest_cons, hbyte]
        exact hchunk
      · rw [hreceived₂, hreceived₁, List.append_assoc]
    · -- The refused packet ends the chunk, so nothing is lost.
      obtain rfl : chunk = [] := hlast [] chunk rfl hrefused
      refine ⟨_, _, _, _, received₁, _, _, ?_, hwritten₁, hreceived₁, hlinked₁, hphase₁, htook₁,
        .inr ⟨rfl, hcloses⟩⟩
      rw [CdcMuxHostSession.ingestWire, CdcMuxStreamDecoder.ingest_cons, hbyte]
      rfl

/-! ## The applications write -/

theorem Phase.hostWrites (h : Phase config closes quiet p items hostPacket inFlight)
    (hlinked : Linked config p items devicePacket hostPacket) {more : List HostItem}
    {host : CdcMuxHostSession} {r : CallRecord}
    (hwrites : CdcMuxHostSession.Writes config more p.host host {} r)
    (hhello : .hello ∉ more) (hcloses : ∀ channel, .closeChannel channel ∈ more → closes channel)
    (toDevice : List UInt8) :
    Phase config closes quiet ⟨p.hostDecoder, host, p.deviceDecoder, p.device, toDevice, p.toHost⟩
      (items ++ more) hostPacket inFlight := by
  have hnone (hpending : p.host.handshakePending) : items ++ more = items := by
    rcases hwrites.active with rfl | hestablished
    · exact List.append_nil _
    · exact absurd hestablished (by simp [(hlinked.host.pending hpending).1])
  cases h with
  | greeting hpending hitems hstale hignored hbefore =>
    exact .greeting (hwrites.pending.trans hpending) ((hnone hpending).trans hitems) hstale hignored
      hbefore
  | answered hpending hitems htoHost hbefore hview hnext =>
    exact .answered (hwrites.pending.trans hpending) ((hnone hpending).trans hitems) htoHost hbefore
      hview hnext
  | joined hsession =>
    refine .joined ⟨hwrites.established.trans hsession.host,
      (congrArg UInt16.toNat hwrites.negotiated).trans hsession.negotiated, hsession.device, ?_, ?_,
      ?_, fun data hdata => ⟨(hsession.expectable data hdata).1, fun hkept => ?_⟩, ?_⟩
    · rw [List.mem_append, not_or]
      exact ⟨hsession.noHello, hhello⟩
    · intro channel hclose
      exact (List.mem_append.mp hclose).elim (hsession.closing channel) (hcloses channel)
    · exact hwrites.expected.symm ▸ hsession.toHost
    · have hopen : p.host.peer.channels data.1 = true := (hsession.expectable data hdata).2 hkept
      have hstill := channels_foldl hopen hhello fun hclose => hkept (hcloses data.1 hclose)
      rw [← hwrites.peer] at hstill
      exact hstill
    · exact hwrites.expected.symm ▸ hsession.next

theorem Phase.deviceWrites (h : Phase config closes True p items hostPacket inFlight)
    (hlinked : Linked config p items devicePacket hostPacket) (hestablished : p.device.established)
    {channel : CdcMuxChannel} (hopen : p.device.channelOpen channel) {pieces : List (List UInt8)}
    (hpieces : ∀ piece ∈ pieces, Carriable config (channel, piece)) :
    Phase config closes True ⟨p.hostDecoder, p.host, p.deviceDecoder,
      { p.device with
        nextTransmitSequence := p.device.nextTransmitSequence + .ofNat pieces.length }, p.toDevice,
      p.toHost ++ (numbered p.device.nextTransmitSequence
        (pieces.map (channel, ·))).flatMap wireOf⟩
      items hostPacket (inFlight ++ pieces.map (channel, ·)) := by
  cases h with
  | greeting hpending hitems hstale hignored hbefore =>
    exact absurd hestablished (by simp [hbefore trivial])
  | answered hpending hitems htoHost hbefore hview hnext =>
    have hclosed : p.device.channelOpen = fun _ => false := congrArg View.channels hview
    simp [hclosed] at hopen
  | joined hsession =>
    refine .joined ⟨hsession.host, hsession.negotiated, hsession.device, hsession.noHello,
      hsession.closing, ?_, ?_, ?_⟩
    · rw [flatMap_wireOf]
      refine (closed_append_flatMap hlinked.toHostWhole fun body hbody => ?_).trans ?_
      · obtain ⟨frame, -, rfl⟩ := List.mem_map.mp hbody
        exact zero_not_mem_packetOf frame
      · rw [numbered_append, List.map_append, ← hsession.next, hsession.toHost]
    · intro data hdata
      rcases List.mem_append.mp hdata with hdata | hdata
      · exact hsession.expectable data hdata
      · obtain ⟨piece, hpiece, rfl⟩ := List.mem_map.mp hdata
        exact ⟨hpieces piece hpiece, hsession.channelOpen hlinked hopen⟩
    · show p.device.nextTransmitSequence + _ = _
      rw [hsession.next, List.length_append, List.length_map, UInt32.ofNat_add, UInt32.add_assoc]

end WaveformGenerator.Dd008
