import WaveformGenerator.Dd008.Delivery

/-!
# Delivery on both links

What a run of a session receives is a first part of what it sends, and all of it once a link is empty;
so it goes after one handshake, as long as the host closes nothing.
-/

namespace WaveformGenerator.Dd008

open Delimited Guarded

/-- Of what was sent on a channel, the first bytes have been received, each once and in order, and all
of them if nothing is left on the link. -/
def DeliveredInOrder (channel : CdcMuxChannel) (sent received : List (CdcMuxChannel × List UInt8))
    (link : List UInt8) : Prop :=
  bytesOn channel received <+: bytesOn channel sent ∧
    (link = [] → bytesOn channel received = bytesOn channel sent)

/-- Two sessions in step, with nothing in flight. -/
structure SessionPair.Agreed (p : SessionPair) : Prop where
  drained : p.Drained
  host : p.host.established
  device : p.device.established
  negotiated : p.host.negotiatedPayloadSize = p.device.negotiatedPayloadSize
  toHost : p.device.nextTransmitSequence = p.host.expectedReceiveSequence
  toDevice : p.host.nextTransmitSequence = p.device.expectedReceiveSequence

variable {config : CdcMuxConfig} {closes : CdcMuxChannel → Prop} {quiet : Prop}
  {p p' : SessionPair} {items items' : List HostItem} {devicePacket hostPacket : List UInt8}
  {inFlight inFlight' : List (CdcMuxChannel × List UInt8)} {events : List Event}

theorem Accounts.toDeviceInOrder
    (h : Accounts config closes events p p' items items' inFlight inFlight')
    (hnone : items.flatMap HostItem.carried = [])
    (hlinked : Linked config p' items' devicePacket hostPacket) (channel : CdcMuxChannel) :
    DeliveredInOrder channel (events.flatMap Event.hostSent) (events.flatMap Event.deviceReceived)
      p'.toDevice := by
  have hbytes := h.toDevice channel
  rw [hnone, bytesOn_nil, List.nil_append] at hbytes
  refine ⟨⟨_, hbytes.symm⟩, fun hlink => ?_⟩
  rw [hbytes, hlinked.items_eq_nil hlink, List.flatMap_nil, bytesOn_nil, List.append_nil]

theorem Phase.inFlight_eq_nil (h : Phase config closes quiet p items hostPacket inFlight)
    (hlink : p.toHost = []) : inFlight = [] := by
  cases h with
  | greeting _ _ _ _ _ => rfl
  | answered _ _ _ _ _ _ => rfl
  | joined hsession =>
    have hpackets := hsession.toHost
    rw [hlink, closed_nil] at hpackets
    cases inFlight with
    | nil => rfl
    | cons data inFlight => exact nomatch hpackets

theorem Accounts.toHostInOrder (h : Accounts config closes events p p' items items' [] inFlight')
    (hphase : Phase config closes quiet p' items' hostPacket inFlight') {channel : CdcMuxChannel}
    (hkept : ¬closes channel) :
    DeliveredInOrder channel (events.flatMap Event.deviceSent) (events.flatMap Event.hostReceived)
      p'.toHost := by
  have hbytes := h.toHost channel hkept
  rw [bytesOn_nil, List.nil_append] at hbytes
  refine ⟨⟨_, hbytes.symm⟩, fun hlink => ?_⟩
  rw [hbytes, hphase.inFlight_eq_nil hlink, bytesOn_nil, List.append_nil]

/-- A host that has joined is in step with its device. -/
theorem Joint.inSession (h : Joint config closes quiet p items devicePacket hostPacket inFlight)
    (hestablished : p.host.established) : InSession config closes p items hostPacket inFlight := by
  have hnot {P : Prop} (hpending : p.host.handshakePending = true) : P := by
    rw [h.linked.host.not_pending hestablished] at hpending
    exact nomatch hpending
  cases h.phase with
  | greeting hpending _ _ _ _ => exact hnot hpending
  | answered hpending _ _ _ _ _ => exact hnot hpending
  | joined hsession => exact hsession

/-- A handshake that goes well has ended where nothing is in flight. -/
theorem Joint.agreed (h : Joint config closes quiet p items devicePacket hostPacket inFlight)
    (hdrained : p.Drained) :
    p.Agreed ∧ p.host.channelOpen = p.device.channelOpen ∧
      p.device.negotiatedPayloadSize.toNat = config.maximumPayloadSize := by
  obtain ⟨hlinked, hphase⟩ := h
  obtain rfl := hlinked.items_eq_nil hdrained.1
  obtain rfl := hphase.inFlight_eq_nil hdrained.2
  cases hphase with
  | greeting _ hitems _ _ _ => simp at hitems
  | answered _ _ htoHost _ _ _ =>
    rw [hdrained.2] at htoHost
    simp at htoHost
  | joined hsession =>
    have hpeer : p.device.view = p.host.peer := hlinked.peer (.inr hsession.host)
    have hsize := hlinked.device.negotiated hsession.device
    refine ⟨⟨hdrained, hsession.host, hsession.device, ?_, ?_, ?_⟩, ?_, hsize⟩
    · rw [← UInt16.toNat_inj, hsession.negotiated, hsize]
    · exact hsession.next.trans (UInt32.add_zero _)
    · exact (congrArg View.expected hpeer).symm
    · exact (congrArg View.channels hpeer).symm

theorem SessionPair.Agreed.joint (h : p.Agreed) (hreachable : Reachable config p)
    (closes : CdcMuxChannel → Prop) (quiet : Prop) : Joint config closes quiet p [] [] [] [] := by
  obtain ⟨items, devicePacket, hostPacket, hlinked⟩ := hreachable.linked
  obtain rfl := hlinked.items_eq_nil h.drained.1
  obtain ⟨rfl, -⟩ := hlinked.toDevice_eq_nil
  have hopened := hlinked.toHostWhole
  rw [h.drained.2, opened_nil] at hopened
  subst hopened
  have hsize := hlinked.device.negotiated h.device
  refine ⟨hlinked, .joined ⟨h.host, ?_, h.device, List.not_mem_nil,
    (fun channel hclose => nomatch hclose), ?_, (fun data hdata => nomatch hdata), ?_⟩⟩
  · rw [h.negotiated, hsize]
  · rw [h.drained.2]
    rfl
  · exact h.toHost.trans (UInt32.add_zero _).symm

/-! ## A handshake begins -/

/-- A handshake begun with no other HELLO in flight, and no frame in flight to the host. -/
theorem Linked.joint (h : Linked config p items devicePacket hostPacket) (hhello : .hello ∉ items)
    (hignored : ∀ packet ∈ closed 0 [] p.toHost, Ignored config packet)
    (closes : CdcMuxChannel → Prop) (quiet : Prop)
    (hbefore : quiet → p.device.established = false) :
    Joint config closes quiet (p.perform config .beginHandshake).2
        (items ++ [.delimiter, .hello]) devicePacket [] [] ∧
      (p.perform config .beginHandshake).2.host.handshakePending ∧
      (p.perform config .beginHandshake).2.host.lastPeerError = 0 := by
  obtain ⟨decoder, host, r, hbegin, hpending, hpeer, herror, hlinked⟩ := h.beginHandshake
  simp only [SessionPair.perform, hbegin]
  have hitems : items ++ [.delimiter, .hello] = (items ++ [.delimiter]) ++ [.hello] := by
    rw [List.append_assoc, List.singleton_append]
  exact ⟨⟨hlinked, .greeting hpending hitems (by simp [hhello]) hignored hbefore⟩, hpending, herror⟩

/-- After one handshake, as long as the host closes nothing, every byte that either end sends on a
channel is received once and in order, no sequence mismatch is reported, and the ends agree on what
is open when nothing is in flight. -/
theorem closeFree_delivers (config : CdcMuxConfig) (operations : List Operation)
    (h : ∀ operation ∈ operations, operation.Continues (fun _ => False) True) :
    let p := (SessionPair.initial config).after config [.beginHandshake]
    let p' := p.after config operations
    let events := p.events config operations
    (∀ e ∈ events, e.Faultless config (fun _ => False) ∧
      e.status ≠ CdcMuxHostSession.sequenceMismatch) ∧
    p'.host.lastPeerError = 0 ∧
    (∀ channel, DeliveredInOrder channel (events.flatMap Event.hostSent)
      (events.flatMap Event.deviceReceived) p'.toDevice) ∧
    (∀ channel, DeliveredInOrder channel (events.flatMap Event.deviceSent)
      (events.flatMap Event.hostReceived) p'.toHost) ∧
    (p'.Drained → p'.Agreed ∧ p'.host.channelOpen = p'.device.channelOpen) := by
  intro p p' events
  have hinitial : Linked config (.initial config) [] [] [] := .initial
  obtain ⟨hjoint, -, herror⟩ := hinitial.joint List.not_mem_nil (fun packet hpacket => nomatch hpacket)
    (fun _ => False) True fun _ => rfl
  obtain ⟨items', devicePacket, hostPacket, inFlight, hjoint', haccounts⟩ :=
    hjoint.after h fun ⟨_, hcloses⟩ => hcloses.elim
  refine ⟨fun e he => ?_, haccounts.peerError.trans herror,
    haccounts.toDeviceInOrder rfl hjoint'.linked,
    fun channel => haccounts.toHostInOrder hjoint'.phase not_false, fun hdrained => ?_⟩
  · have hfaultless := haccounts.faultless e he
    exact ⟨hfaultless, hfaultless.ne_sequenceMismatch⟩
  · obtain ⟨hagreed, hchannels, -⟩ := hjoint'.agreed hdrained
    exact ⟨hagreed, hchannels⟩

/-- A host that opens a channel and sends before its device has seen either. -/
theorem closeFree_delivers_opened :
    let p := (SessionPair.initial {}).after {} [.beginHandshake]
    let operations : List Operation := [.deliverToDevice 100, .deliverToHost 100,
      .openChannel .controlStatus, .hostSend .controlStatus [7, 0, 8], .deliverToDevice 30,
      .deviceSend .controlStatus [9], .deliverToDevice 100, .deliverToHost 100]
    let events := p.events {} operations
    (p.after {} operations).Drained ∧
    events.flatMap Event.hostReceived = [(.controlStatus, [9])] ∧
    ∀ channel, DeliveredInOrder channel (events.flatMap Event.hostSent)
      (events.flatMap Event.deviceReceived) (p.after {} operations).toDevice :=
  ⟨by decide +kernel, by decide +kernel,
    (closeFree_delivers {} [.deliverToDevice 100, .deliverToHost 100,
      .openChannel .controlStatus, .hostSend .controlStatus [7, 0, 8], .deliverToDevice 30,
      .deviceSend .controlStatus [9], .deliverToDevice 100, .deliverToHost 100]
      (by simp [Operation.Continues])).2.2.1⟩

/-- Two sessions with both channels open. -/
def bothOpened : SessionPair :=
  (SessionPair.initial {}).after {} [.beginHandshake, .deliverToDevice 100, .deliverToHost 100,
    .openChannel .controlStatus, .openChannel .binaryData, .deliverToDevice 100]

theorem reachable_bothOpened : Reachable {} bothOpened := ⟨_, rfl⟩

theorem agreed_bothOpened : bothOpened.Agreed := by
  have h : bothOpened.Drained ∧ bothOpened.host.established ∧ bothOpened.device.established ∧
      bothOpened.host.negotiatedPayloadSize = bothOpened.device.negotiatedPayloadSize ∧
      bothOpened.device.nextTransmitSequence = bothOpened.host.expectedReceiveSequence ∧
      bothOpened.host.nextTransmitSequence = bothOpened.device.expectedReceiveSequence := by
    decide +kernel
  exact ⟨h.1, h.2.1, h.2.2.1, h.2.2.2.1, h.2.2.2.2.1, h.2.2.2.2.2⟩

end WaveformGenerator.Dd008
