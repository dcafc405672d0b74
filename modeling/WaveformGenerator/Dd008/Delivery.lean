import WaveformGenerator.Dd008.Joined

/-!
# What a session delivers

A run without a new handshake, of two sessions that have begun one or are in one: every byte sent is
received once and in order, or is still in flight.
-/

namespace WaveformGenerator.Dd008

open Delimited Guarded

/-! ## Runs -/

/-- An operation within a session: the host closes none but the channels of `closes`, and the device
writes only when it may. -/
def Operation.Continues (closes : CdcMuxChannel → Prop) (quiet : Prop) : Operation → Prop
  | beginHandshake | resetHost => False
  | closeChannel channel => closes channel
  | deviceSend _ _ => quiet
  | openChannel _ | hostSend _ _ | deliverToDevice _ | deliverToHost _ => True

/-- The packet that the host's decoder holds. -/
def SessionPair.openPacket (p : SessionPair) : List UInt8 :=
  p.hostDecoder.encoded.bytes.take p.hostDecoder.encodedSize

/-- A chunk to the host that closes data for a channel that the host has closed ends there. -/
def SessionPair.EndsAtRefusal (config : CdcMuxConfig) (p : SessionPair) : Operation → Prop
  | .deliverToHost count => RefusesLast config p.host p.openPacket (p.toHost.take count)
  | _ => True

variable (config : CdcMuxConfig)

/-- An event of a session without a fault: a delivery succeeds, unless it is of data for a channel
of `closes`, a device answers no more than HELLOs, and nothing is written in vain. -/
def Event.Faultless (closes : CdcMuxChannel → Prop) (e : Event) : Prop :=
  match e.operation with
  | .deliverToDevice _ => e.status = .success ∧
    ∃ n, e.record.written = (List.replicate n (wireOf (ackFrame config))).flatten
  | .deliverToHost _ => e.status = .success ∨
    e.status = CdcMuxHostSession.closedChannelWritten ∧ ∃ channel, closes channel
  | _ => e.status.code ≠ .ioError

/-- What some events have done: what was on its way or was sent has been received or is on its way. -/
structure Accounts (closes : CdcMuxChannel → Prop) (events : List Event) (p p' : SessionPair)
    (items items' : List HostItem) (inFlight inFlight' : List (CdcMuxChannel × List UInt8)) :
    Prop where
  toDevice : ∀ channel, bytesOn channel (items.flatMap HostItem.carried) ++
      bytesOn channel (events.flatMap Event.hostSent) =
    bytesOn channel (events.flatMap Event.deviceReceived) ++
      bytesOn channel (items'.flatMap HostItem.carried)
  toHost : ∀ channel, ¬closes channel →
    bytesOn channel inFlight ++ bytesOn channel (events.flatMap Event.deviceSent) =
      bytesOn channel (events.flatMap Event.hostReceived) ++ bytesOn channel inFlight'
  faultless : ∀ e ∈ events, e.Faultless config closes
  established : p.host.established → p'.host.established
  peerError : p'.host.lastPeerError = p.host.lastPeerError

/-- A handshake that goes well, or a session that does. -/
structure Joint (closes : CdcMuxChannel → Prop) (quiet : Prop) (p : SessionPair)
    (items : List HostItem) (devicePacket hostPacket : List UInt8)
    (inFlight : List (CdcMuxChannel × List UInt8)) : Prop where
  linked : Linked config p items devicePacket hostPacket
  phase : Phase config closes quiet p items hostPacket inFlight

variable {config} {closes : CdcMuxChannel → Prop} {quiet : Prop} {p p' p'' : SessionPair}
  {items items' items'' : List HostItem} {devicePacket hostPacket : List UInt8}
  {inFlight inFlight' inFlight'' : List (CdcMuxChannel × List UInt8)}

namespace Accounts

theorem nil : Accounts config closes [] p p items items inFlight inFlight where
  toDevice channel := by simp
  toHost channel _ := by simp
  faultless e he := nomatch he
  established := id
  peerError := rfl

theorem append {a b : List Event}
    (h : Accounts config closes a p p' items items' inFlight inFlight')
    (h' : Accounts config closes b p' p'' items' items'' inFlight' inFlight'') :
    Accounts config closes (a ++ b) p p'' items items'' inFlight inFlight'' where
  toDevice channel := by
    rw [List.flatMap_append, List.flatMap_append, bytesOn_append, bytesOn_append, ← List.append_assoc,
      h.toDevice, List.append_assoc, h'.toDevice, List.append_assoc]
  toHost channel hkept := by
    rw [List.flatMap_append, List.flatMap_append, bytesOn_append, bytesOn_append, ← List.append_assoc,
      h.toHost channel hkept, List.append_assoc, h'.toHost channel hkept, List.append_assoc]
  faultless e he := (List.mem_append.mp he).elim (h.faultless e) (h'.faultless e)
  established := h'.established ∘ h.established
  peerError := h'.peerError.trans h.peerError

end Accounts

theorem Event.Faultless.ne_sequenceMismatch {e : Event} (h : e.Faultless config closes) :
    e.status ≠ CdcMuxHostSession.sequenceMismatch := by
  intro hstatus
  rw [Event.Faultless, hstatus] at h
  split at h
  · exact absurd h.1 (by decide)
  · rcases h with h | ⟨h, -⟩ <;> exact absurd h (by decide)
  · exact h rfl

/-! ## The phases -/

theorem report_nil_valid : (report config []).valid = false := by
  have hshort : ¬config.maximumCobsPacketSize < ([] : List UInt8).length := Nat.not_lt_zero _
  have hdecode : Cobs.decode [] = some [] := by rw [Cobs.decode]
  have hbody : ¬config.maximumDecodedFrameSize < ([] : List UInt8).length := Nat.not_lt_zero _
  rw [report, if_neg hshort, hdecode]
  dsimp only
  rw [if_neg hbody, parseFrame, if_pos (by decide)]
  rfl

/-- Only in a session is a packet refused, and only for a channel that the host may have closed. -/
theorem Phase.refused (h : Phase config closes quiet p items hostPacket inFlight)
    {packet : List UInt8} (hpacket : packet ∈ closed 0 hostPacket p.toHost)
    (hrefused : Refused config p.host packet) :
    InSession config closes p items hostPacket inFlight ∧ ∃ channel, closes channel := by
  obtain ⟨hvalid, htype, hshut⟩ := hrefused
  have hseen {ignored : List UInt8} (hignored : Ignored config ignored) : packet ≠ ignored := by
    rintro rfl
    by_cases hnil : packet = []
    · rw [hnil, report_nil_valid] at hvalid
      exact nomatch hvalid
    · rw [hignored hnil] at hvalid
      exact nomatch hvalid
  cases h with
  | greeting hpending hitems hstale hignored hbefore =>
    exact absurd rfl (hseen (hignored packet hpacket))
  | answered hpending hitems htoHost hbefore hview hnext =>
    rw [htoHost, List.mem_append, List.mem_singleton] at hpacket
    rcases hpacket with hpacket | rfl
    · exact absurd rfl (hseen (hbefore packet hpacket))
    · rw [report_packetOf admits_ackFrame] at htype
      exact nomatch htype
  | joined hsession =>
    refine ⟨hsession, ?_⟩
    rw [hsession.toHost] at hpacket
    obtain ⟨frame, hframe, rfl⟩ := List.mem_map.mp hpacket
    obtain ⟨data, hdata, sequence, rfl⟩ := exists_of_mem_numbered hframe
    obtain ⟨hcarriable, hopening⟩ := hsession.expectable data hdata
    rw [report_packetOf (admits_streamData hcarriable sequence)] at hshut
    refine ⟨data.1, ?_⟩
    by_contra hkept
    exact absurd (hopening hkept) (by simp [show p.host.channelOpen data.1 = false from hshut])

/-- In a session the decoder holds all of the open packet. -/
theorem InSession.openPacket (h : InSession config closes p items hostPacket inFlight)
    (hlinked : Linked config p items devicePacket hostPacket) : p.openPacket = hostPacket := by
  have hshort : hostPacket.length ≤ config.maximumCobsPacketSize := by
    cases hinFlight : inFlight with
    | nil =>
      have hclosed : closed 0 hostPacket p.toHost = [] := by
        rw [h.toHost, hinFlight]
        rfl
      rw [(eq_nil_of_closed_opened hclosed hlinked.toHostWhole).1]
      exact Nat.zero_le _
    | cons data inFlight =>
      have hclosed := h.toHost
      rw [hinFlight, numbered, List.map_cons] at hclosed
      obtain ⟨more, hmore⟩ := exists_of_closed_eq_cons hclosed
      have hcarriable : Carriable config data := (h.expectable data (hinFlight ▸ List.mem_cons_self)).1
      have hlength := length_packetOf_le
        (admits_streamData (show Carriable config (data.1, data.2) from hcarriable)
          p.host.expectedReceiveSequence)
      rw [hmore, List.length_append] at hlength
      omega
  have hsize := hlinked.hostFollows.size
  rw [if_neg (Nat.not_lt.mpr hshort)] at hsize
  rw [SessionPair.openPacket, hsize]
  exact hlinked.hostFollows.held hshort

/-! ## Steps -/

namespace Joint

/-- The host writes items. -/
theorem hostWrites (h : Joint config closes quiet p items devicePacket hostPacket inFlight)
    {e : Event} {more : List HostItem} {host : CdcMuxHostSession} {r : CallRecord}
    (hwrites : CdcMuxHostSession.Writes config more p.host host {} r)
    (hhello : .hello ∉ more) (hcloses : ∀ channel, .closeChannel channel ∈ more → closes channel)
    (hsent : ∀ channel, bytesOn channel e.hostSent = bytesOn channel (more.flatMap HostItem.carried))
    (hother : e.deviceSent = [] ∧ e.deviceReceived = [] ∧ e.hostReceived = [])
    (hfaultless : e.Faultless config closes) :
    Joint config closes quiet ⟨p.hostDecoder, host, p.deviceDecoder, p.device,
        p.toDevice ++ r.written, p.toHost⟩ (items ++ more) devicePacket hostPacket inFlight ∧
      Accounts config closes [e] p ⟨p.hostDecoder, host, p.deviceDecoder, p.device,
        p.toDevice ++ r.written, p.toHost⟩ items (items ++ more) inFlight inFlight := by
  obtain ⟨hdeviceSent, hdeviceReceived, hhostReceived⟩ := hother
  refine ⟨⟨h.linked.hostWrites hwrites, h.phase.hostWrites h.linked hwrites hhello hcloses _⟩,
    fun channel => ?_, fun channel hkept => ?_, by simpa using hfaultless,
    fun hestablished => hwrites.established.trans hestablished, hwrites.peerError⟩
  · simp [hdeviceReceived, bytesOn_append, hsent]
  · simp [hdeviceSent, hhostReceived]

/-- What an operation does to a session that goes well, where no refusal cuts a chunk short. -/
theorem perform (h : Joint config closes quiet p items devicePacket hostPacket inFlight)
    {operation : Operation} (hcontinues : operation.Continues closes quiet)
    (hends : (∃ channel, closes channel) → p.EndsAtRefusal config operation) :
    ∃ items' devicePacket' hostPacket' inFlight',
      Joint config closes quiet (p.perform config operation).2 items' devicePacket' hostPacket'
        inFlight' ∧
      Accounts config closes [(p.perform config operation).1] p (p.perform config operation).2 items
        items' inFlight inFlight' := by
  cases operation with
  | beginHandshake => exact hcontinues.elim
  | resetHost => exact hcontinues.elim
  | openChannel channel =>
    obtain ⟨status, host, r, more, hopen, hwrites, hmore, hstatus⟩ :=
      CdcMuxHostSession.openChannel_recording h.linked.host channel {}
    simp only [SessionPair.perform, hopen]
    refine ⟨_, _, _, _, h.hostWrites hwrites ?_ (fun other hclose => ?_) (fun other => ?_)
      ⟨rfl, rfl, rfl⟩ hstatus⟩
    · rcases hmore with rfl | rfl <;> simp
    · rcases hmore with rfl | rfl <;> simp at hclose
    · rcases hmore with rfl | rfl <;> rfl
  | closeChannel channel =>
    obtain ⟨status, host, r, more, hclose, hwrites, hmore, hstatus⟩ :=
      CdcMuxHostSession.closeChannel_recording h.linked.host channel {}
    simp only [SessionPair.perform, hclose]
    refine ⟨_, _, _, _, h.hostWrites hwrites ?_ (fun other hother => ?_) (fun other => ?_)
      ⟨rfl, rfl, rfl⟩ hstatus⟩
    · rcases hmore with rfl | rfl <;> simp
    · rcases hmore with rfl | rfl
      · cases hother
      · obtain rfl : other = channel := by simpa using hother
        exact hcontinues
    · rcases hmore with rfl | rfl <;> rfl
  | hostSend channel bytes =>
    obtain ⟨status, host, r, more, hsend, hwrites, hmore, hstatus⟩ :=
      CdcMuxHostSession.sendStream_recording h.linked.host channel bytes {}
    simp only [SessionPair.perform, hsend]
    have hdata : ∀ item ∈ more, ∃ piece, item = .data channel piece := by
      rcases hmore with ⟨-, rfl⟩ | ⟨-, pieces, -, rfl⟩
      · exact fun item hitem => by cases hitem
      · intro item hitem
        obtain ⟨piece, -, rfl⟩ := List.mem_map.mp hitem
        exact ⟨piece, rfl⟩
    refine ⟨_, _, _, _, h.hostWrites hwrites (fun hhello => ?_) (fun other hclose => ?_)
      (fun on => ?_) ⟨rfl, rfl, rfl⟩ hstatus⟩
    · obtain ⟨piece, heq⟩ := hdata _ hhello
      cases heq
    · obtain ⟨piece, heq⟩ := hdata _ hclose
      cases heq
    · rcases hmore with ⟨hrefused, rfl⟩ | ⟨hsent, pieces, rfl, rfl⟩
      · simp [Event.hostSent, hrefused]
      · simp only [Event.hostSent, hsent, if_true]
        rw [← bytesOn_pieces, HostItem.carried_data]
  | deviceSend channel bytes =>
    obtain rfl : quiet = True := eq_true hcontinues
    rcases CdcMuxDeviceSession.sendStream_recording h.linked.device channel bytes {} with
      ⟨status, hrefused, hstatus, hsend⟩ | ⟨hestablished, hopen, pieces, hflatten, hpieces, hsend⟩
    · simp only [SessionPair.perform, hsend, List.append_nil]
      refine ⟨_, _, _, _, h, ⟨fun on => ?_, fun on _ => ?_, ?_, id, rfl⟩⟩
      · simp [Event.hostSent, Event.deviceReceived]
      · simp [Event.deviceSent, Event.hostReceived, hrefused]
      · simpa [Event.Faultless] using hstatus
    · simp only [SessionPair.perform, hsend, List.nil_append]
      refine ⟨_, _, _, _, ⟨h.linked.deviceWrites _,
        h.phase.deviceWrites h.linked hestablished hopen hpieces⟩, ⟨fun on => ?_, fun on _ => ?_, ?_,
        id, rfl⟩⟩
      · simp [Event.hostSent, Event.deviceReceived]
      · simp [Event.deviceSent, Event.hostReceived, bytesOn_append, bytesOn_pieces, hflatten]
      · simp [Event.Faultless, Status.success]
  | deliverToDevice count =>
    obtain ⟨decoder, device, r, written, taken, items', packet, hchunk, hwritten, hlinked, hsplit,
      htakes⟩ := h.linked.deviceChunk (List.take_append_drop count p.toDevice).symm {}
    simp only [SessionPair.perform, hchunk, hwritten, List.nil_append]
    refine ⟨_, _, _, _, ⟨hlinked, h.phase.deviceTakes h.linked.toHostWhole hsplit htakes hwritten ..⟩,
      ⟨fun on => ?_, fun on _ => ?_, ?_, id, rfl⟩⟩
    · have hreceived : r.received = taken.flatMap HostItem.carried := htakes.received
      simp [Event.hostSent, Event.deviceReceived, hreceived, hsplit, bytesOn_append]
    · simp [Event.deviceSent, Event.hostReceived]
    · have hanswers : r.written = (List.replicate (taken.count .hello)
          (wireOf (ackFrame config))).flatten := htakes.written.trans (HostItem.answers_eq taken)
      intro e he
      obtain rfl := List.mem_singleton.mp he
      exact ⟨rfl, _, hanswers⟩
  | deliverToHost count =>
    have hlast : RefusesLast config p.host hostPacket (p.toHost.take count) := by
      intro a b hsplit hrefused
      have hmem : opened 0 hostPacket a ∈ closed 0 hostPacket p.toHost := by
        rw [← List.take_append_drop count p.toHost, hsplit, List.append_assoc]
        exact opened_mem_closed ..
      obtain ⟨hsession, hcloses⟩ := h.phase.refused hmem hrefused
      rw [← hsession.openPacket h.linked] at hrefused
      exact hends hcloses a b hsplit hrefused
    obtain ⟨status, decoder, host, r, received, packet, inFlight', hchunk, hwritten, hreceived,
      hlinked, hphase, htook, hstatus⟩ :=
      h.phase.hostChunk h.linked (List.take_append_drop count p.toHost).symm hlast {}
    simp only [SessionPair.perform, hchunk, hwritten, List.append_nil]
    refine ⟨_, _, _, _, ⟨hlinked, hphase⟩, ⟨fun on => ?_, fun on hkept => ?_, ?_, htook.established,
      htook.peerError⟩⟩
    · simp [Event.hostSent, Event.deviceReceived]
    · simp [Event.deviceSent, Event.hostReceived, hreceived, htook.exact on hkept]
    · simpa [Event.Faultless] using hstatus

/-- What a run does to it. -/
theorem after (h : Joint config closes quiet p items devicePacket hostPacket inFlight)
    {operations : List Operation}
    (hcontinues : ∀ operation ∈ operations, operation.Continues closes quiet)
    (hends : (∃ channel, closes channel) → Runs (SessionPair.EndsAtRefusal config)
      (fun p operation => (SessionPair.perform config p operation).2) p operations) :
    ∃ items' devicePacket' hostPacket' inFlight',
      Joint config closes quiet (p.after config operations) items' devicePacket' hostPacket'
        inFlight' ∧
      Accounts config closes (p.events config operations) p (p.after config operations) items items'
        inFlight inFlight' := by
  induction operations generalizing p items devicePacket hostPacket inFlight with
  | nil => exact ⟨_, _, _, _, h, .nil⟩
  | cons operation operations ih =>
    rw [List.forall_mem_cons] at hcontinues
    obtain ⟨items₁, devicePacket₁, hostPacket₁, inFlight₁, hjoint, haccounts⟩ :=
      h.perform hcontinues.1 fun hcloses => (hends hcloses).1
    obtain ⟨items₂, devicePacket₂, hostPacket₂, inFlight₂, hjoint', haccounts'⟩ :=
      ih hjoint hcontinues.2 fun hcloses => (hends hcloses).2
    exact ⟨_, _, _, _, hjoint', haccounts.append haccounts'⟩

end Joint

end WaveformGenerator.Dd008
