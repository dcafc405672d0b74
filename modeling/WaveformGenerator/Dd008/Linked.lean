import WaveformGenerator.Dd008.HostWrites

/-!
# Two linked sessions

`Linked` holds of every pair that two initialized sessions get to: what is in flight to the device is
what the host wrote, item by item, and the device will take each of them.
-/

namespace WaveformGenerator.Dd008

open Delimited Guarded

variable (config : CdcMuxConfig)

structure Linked (p : SessionPair) (items : List HostItem) (devicePacket hostPacket : List UInt8) :
    Prop where
  hostFollows : Follows config p.hostDecoder hostPacket
  deviceFollows : Follows config p.deviceDecoder devicePacket
  /-- The packets in flight to the device, the open one first, are those of the items. -/
  toDevice : closed 0 devicePacket p.toDevice =
    outputs HostItem.apply (HostItem.packet config) p.device.view items
  toDeviceWhole : opened 0 devicePacket p.toDevice = []
  toHostWhole : opened 0 hostPacket p.toHost = []
  runs : Runs (HostItem.Allowed config) HostItem.apply p.device.view items
  /-- The device becomes what a host in a session, or waiting for one, takes it to be. -/
  peer : p.host.handshakePending ∨ p.host.established →
    items.foldl HostItem.apply p.device.view = p.host.peer
  host : p.host.WellFormed config
  device : p.device.WellFormed config

variable {config} {p : SessionPair} {items : List HostItem} {devicePacket hostPacket : List UInt8}

theorem Follows.reset {decoder : CdcMuxStreamDecoder} {packet : List UInt8}
    (h : Follows config decoder packet) : Follows config decoder.reset [] :=
  { h with discards := rfl, size := rfl, held := fun _ => rfl }

namespace Linked

theorem initial : Linked config (.initial config) [] [] [] where
  hostFollows := follows_initial
  deviceFollows := follows_initial
  toDevice := rfl
  toDeviceWhole := rfl
  toHostWhole := rfl
  runs := trivial
  peer h := nomatch h
  host := ⟨rfl, applied_initial true, (fun h => nomatch h), (fun _ => channelOpen_initial true),
    fun h => nomatch h⟩
  device := ⟨applied_initial true, fun h => nomatch h⟩

/-- With no item, nothing is in flight to the device. -/
theorem toDevice_eq_nil (h : Linked config p [] devicePacket hostPacket) :
    devicePacket = [] ∧ p.toDevice = [] :=
  eq_nil_of_closed_opened h.toDevice h.toDeviceWhole

theorem items_eq_nil (h : Linked config p items devicePacket hostPacket) (hlink : p.toDevice = []) :
    items = [] := by
  have hpackets := h.toDevice
  rw [hlink, closed_nil] at hpackets
  exact outputs_eq_nil.mp hpackets.symm

/-! ## Bytes that arrive -/

/-- The device goes on behind a byte. -/
theorem advance (h : Linked config p items devicePacket hostPacket) {decoder : CdcMuxStreamDecoder}
    {device : CdcMuxDeviceSession} {rest written : List UInt8} {items' : List HostItem}
    {devicePacket' : List UInt8} (hfollows : Follows config decoder devicePacket')
    (hclosed : closed 0 devicePacket' rest =
      outputs HostItem.apply (HostItem.packet config) device.view items')
    (hopened : opened 0 devicePacket' rest = [])
    (hwritten : opened 0 hostPacket (p.toHost ++ written) = [])
    (hruns : Runs (HostItem.Allowed config) HostItem.apply device.view items')
    (hview : items'.foldl HostItem.apply device.view = items.foldl HostItem.apply p.device.view)
    (hdevice : device.WellFormed config) :
    Linked config ⟨p.hostDecoder, p.host, decoder, device, rest, p.toHost ++ written⟩ items'
      devicePacket' hostPacket where
  hostFollows := h.hostFollows
  deviceFollows := hfollows
  toDevice := hclosed
  toDeviceWhole := hopened
  toHostWhole := hwritten
  runs := hruns
  peer hsession := hview.trans (h.peer hsession)
  host := h.host
  device := hdevice

/-- What a byte does to the device: it opens more of a packet, or closes an item's. -/
theorem deviceByte (h : Linked config p items devicePacket hostPacket) {byte : UInt8}
    {rest : List UInt8} (hlink : p.toDevice = byte :: rest) (r : CallRecord) :
    ∃ decoder device r' written items' devicePacket',
      p.deviceDecoder.ingest config (CdcMuxDeviceSession.receivePacket config recording)
        (p.device, r) [byte] = (.success, decoder, device, r') ∧
      r'.written = r.written ++ written ∧
      Linked config ⟨p.hostDecoder, p.host, decoder, device, rest, p.toHost ++ written⟩ items'
        devicePacket' hostPacket ∧
      (items' = items ∧ device = p.device ∧ r' = r ∨
        ∃ item, items = item :: items' ∧ Takes config item p.device device r r') := by
  have hclosed := h.toDevice
  have hopened := h.toDeviceWhole
  have htoHost : opened 0 hostPacket (p.toHost ++ []) = [] :=
    (congrArg _ (List.append_nil _)).trans h.toHostWhole
  have hruns := h.runs
  rw [hlink] at hclosed hopened
  have hbyte := CdcMuxStreamDecoder.ingestsByte
    (CdcMuxDeviceSession.receivePacket config recording) h.deviceFollows (p.device, r) byte
  generalize p.deviceDecoder.ingest config (CdcMuxDeviceSession.receivePacket config recording)
    (p.device, r) [byte] = outcome at hbyte ⊢
  cases hbyte with
  | more hne hfollows =>
    rw [closed, if_neg hne] at hclosed
    rw [opened, if_neg hne] at hopened
    exact ⟨_, _, _, [], items, _, rfl, (List.append_nil _).symm,
      h.advance hfollows hclosed hopened htoHost hruns rfl h.device, .inl ⟨rfl, rfl, rfl⟩⟩
  | empty hnil hfollows =>
    subst hnil
    rw [closed_delimiter] at hclosed
    rw [opened_delimiter] at hopened
    cases items with
    | nil => cases hclosed
    | cons item items =>
      obtain ⟨hpacket, hrest⟩ := List.cons.inj hclosed
      obtain rfl := HostItem.frame_eq_none.mp (HostItem.packet_eq_nil.mp hpacket.symm)
      exact ⟨_, _, _, [], items, _, rfl, (List.append_nil _).symm,
        h.advance hfollows hrest hopened htoHost hruns.2 rfl h.device,
        .inr ⟨_, rfl, rfl, (List.append_nil _).symm, (List.append_nil _).symm, rfl, h.device⟩⟩
  | @packet decoder decoder' status context' hne hfollows hcall =>
    rw [closed_delimiter] at hclosed
    rw [opened_delimiter] at hopened
    cases items with
    | nil => cases hclosed
    | cons item items =>
      obtain ⟨hpacket, hrest⟩ := List.cons.inj hclosed
      cases hframe : item.frame config p.device.view.expected with
      | none => exact absurd (hpacket.trans (HostItem.packet_eq_nil.mpr hframe)) hne
      | some frame =>
        have hadmits := HostItem.admits_frame hruns.1 hframe
        rw [hpacket, HostItem.packet_of_frame hframe, report_packetOf hadmits] at hcall
        obtain ⟨device, r', hhandle, htakes⟩ := CdcMuxDeviceSession.takes h.device hruns.1 hframe r
        simp only [CdcMuxDeviceSession.receivePacket, hhandle, Prod.mk.injEq] at hcall
        obtain ⟨rfl, rfl, rfl⟩ := hcall
        refine ⟨_, _, _, _, items, [], rfl, htakes.written, h.advance hfollows ?_ hopened ?_ ?_ ?_
          htakes.wellFormed, .inr ⟨item, rfl, htakes⟩⟩
        · rw [htakes.view]
          exact hrest
        · split
          · rw [wireOf, ← List.append_assoc]
            exact opened_append_delimiter ..
          · exact htoHost
        · rw [htakes.view]
          exact hruns.2
        · rw [htakes.view]
          rfl

variable (config) in
/-- What a byte does to the host: it opens more of a packet, or closes one for the session. -/
inductive HostByte (p : SessionPair) (hostPacket : List UInt8) (r : CallRecord) :
    UInt8 → List UInt8 → Status → CdcMuxHostSession → CallRecord → Prop
  | more {byte : UInt8} : byte ≠ 0 →
    HostByte p hostPacket r byte (hostPacket ++ [byte]) .success p.host r
  | empty : hostPacket = [] → HostByte p hostPacket r 0 [] .success p.host r
  | packet {decoder : CdcMuxStreamDecoder} {status : Status} {host : CdcMuxHostSession}
    {r' : CallRecord} : hostPacket ≠ [] →
    CdcMuxHostSession.handlePacket config recording (report config hostPacket) decoder (p.host, r) =
      (status, decoder, host, r') →
    CdcMuxHostSession.Handles config (report config hostPacket) p.host r (status, host, r') →
    HostByte p hostPacket r 0 [] (if status.isOk then .success else status) host r'

theorem hostByte (h : Linked config p items devicePacket hostPacket) {byte : UInt8}
    {rest : List UInt8} (hlink : p.toHost = byte :: rest) (r : CallRecord) :
    ∃ status decoder host r' hostPacket',
      p.hostDecoder.ingest config (CdcMuxHostSession.handlePacket config recording)
        (p.host, r) [byte] = (status, decoder, host, r') ∧
      r'.written = r.written ∧
      Linked config ⟨decoder, host, p.deviceDecoder, p.device, p.toDevice, rest⟩ items
        devicePacket hostPacket' ∧
      HostByte config p hostPacket r byte hostPacket' status host r' := by
  have hopened := h.toHostWhole
  rw [hlink] at hopened
  have hbyte := CdcMuxStreamDecoder.ingestsByte
    (CdcMuxHostSession.handlePacket config recording) h.hostFollows (p.host, r) byte
  generalize p.hostDecoder.ingest config (CdcMuxHostSession.handlePacket config recording)
    (p.host, r) [byte] = outcome at hbyte ⊢
  cases hbyte with
  | more hne hfollows =>
    rw [opened, if_neg hne] at hopened
    exact ⟨_, _, _, _, _, rfl, rfl, ⟨hfollows, h.deviceFollows, h.toDevice, h.toDeviceWhole,
      hopened, h.runs, h.peer, h.host, h.device⟩, .more hne⟩
  | empty hnil hfollows =>
    rw [opened_delimiter] at hopened
    exact ⟨_, _, _, _, _, rfl, rfl, ⟨hfollows, h.deviceFollows, h.toDevice, h.toDeviceWhole,
      hopened, h.runs, h.peer, h.host, h.device⟩, .empty hnil⟩
  | @packet decoder decoder' status context' hne hfollows hcall =>
    rw [opened_delimiter] at hopened
    obtain ⟨status', host, r', hhandle, hhandles⟩ :=
      CdcMuxHostSession.handles h.host hfollows (report config hostPacket) r
    rw [hhandle] at hcall
    cases hcall
    refine ⟨_, _, _, _, _, rfl, hhandles.written, ⟨hfollows, h.deviceFollows, h.toDevice,
      h.toDeviceWhole, hopened, h.runs, fun hsession => ?_, hhandles.wellFormed h.host, h.device⟩,
      .packet hne hhandle hhandles⟩
    obtain ⟨hbefore, hnext, hchannels⟩ := hhandles.kept hsession
    exact (h.peer hbefore).trans (congrArg₂ (View.mk true) hnext hchannels).symm

/-! ## Chunks that arrive -/

/-- A chunk closes the first items in flight, and the device takes them. -/
theorem deviceChunk (h : Linked config p items devicePacket hostPacket) {chunk rest : List UInt8}
    (hlink : p.toDevice = chunk ++ rest) (r : CallRecord) :
    ∃ decoder device r' written taken items' devicePacket',
      CdcMuxDeviceSession.ingestWire config recording p.deviceDecoder p.device r chunk =
        (.success, decoder, device, r') ∧
      r'.written = r.written ++ written ∧
      Linked config ⟨p.hostDecoder, p.host, decoder, device, rest, p.toHost ++ written⟩ items'
        devicePacket' hostPacket ∧
      items = taken ++ items' ∧ TakesAll config taken p.device device r r' := by
  induction chunk generalizing p items devicePacket r with
  | nil =>
    refine ⟨_, _, r, [], [], items, devicePacket, rfl, (List.append_nil _).symm, ?_, rfl, .nil _ r⟩
    rw [List.append_nil, ← show p.toDevice = rest from hlink]
    exact h
  | cons byte chunk ih =>
    obtain ⟨decoder, device, r₁, written₁, items₁, packet₁, hbyte, hwritten₁, hlinked₁, hcase⟩ :=
      h.deviceByte hlink r
    obtain ⟨decoder₂, device₂, r₂, written₂, taken, items₂, packet₂, hchunk, hwritten₂, hlinked₂,
      hsplit, htakes⟩ := ih hlinked₁ rfl r₁
    have hingest : CdcMuxDeviceSession.ingestWire config recording p.deviceDecoder p.device r
        (byte :: chunk) = (.success, decoder₂, device₂, r₂) := by
      rw [CdcMuxDeviceSession.ingestWire, CdcMuxStreamDecoder.ingest_cons, hbyte]
      exact hchunk
    have hwritten : r₂.written = r.written ++ (written₁ ++ written₂) := by
      rw [hwritten₂, hwritten₁, List.append_assoc]
    rw [List.append_assoc] at hlinked₂
    rcases hcase with ⟨rfl, rfl, rfl⟩ | ⟨item, rfl, htake⟩
    · exact ⟨_, _, _, _, taken, _, _, hingest, hwritten, hlinked₂, hsplit, htakes⟩
    · exact ⟨_, _, _, _, item :: taken, _, _, hingest, hwritten, hlinked₂,
        congrArg (item :: ·) hsplit, .cons htake htakes⟩

/-- A chunk may be refused at a packet, and what is behind it in the chunk is gone. -/
theorem hostChunk (h : Linked config p items devicePacket hostPacket) {chunk rest : List UInt8}
    (hlink : p.toHost = chunk ++ rest) (r : CallRecord) :
    ∃ status decoder host r' hostPacket',
      CdcMuxHostSession.ingestWire config recording p.hostDecoder p.host r chunk =
        (status, decoder, host, r') ∧
      r'.written = r.written ∧
      Linked config ⟨decoder, host, p.deviceDecoder, p.device, p.toDevice, rest⟩ items devicePacket
        hostPacket' := by
  induction chunk generalizing p hostPacket r with
  | nil =>
    refine ⟨_, _, _, r, hostPacket, rfl, rfl, ?_⟩
    rw [← show p.toHost = rest from hlink]
    exact h
  | cons byte chunk ih =>
    obtain ⟨status, decoder, host, r₁, packet₁, hbyte, hwritten₁, hlinked₁, hcase⟩ :=
      h.hostByte hlink r
    cases hstatus : status.isOk with
    | true =>
      obtain ⟨status₂, decoder₂, host₂, r₂, packet₂, hchunk, hwritten₂, hlinked₂⟩ :=
        ih hlinked₁ rfl r₁
      refine ⟨status₂, decoder₂, host₂, r₂, packet₂, ?_, hwritten₂.trans hwritten₁, hlinked₂⟩
      rw [CdcMuxHostSession.ingestWire, CdcMuxStreamDecoder.ingest_cons, hbyte]
      simpa [hstatus, CdcMuxHostSession.ingestWire] using hchunk
    | false =>
      have hnone : packet₁ = [] := by
        cases hcase with
        | more _ => exact nomatch hstatus
        | empty _ => rfl
        | packet _ _ _ => rfl
      subst hnone
      refine ⟨status, decoder, host, r₁, [], ?_, hwritten₁, ?_⟩
      · rw [CdcMuxHostSession.ingestWire, CdcMuxStreamDecoder.ingest_cons, hbyte]
        simp [hstatus]
      · exact { hlinked₁ with toHostWhole := opened_nil_of_append hlinked₁.toHostWhole }

/-! ## Operations -/

/-- The host writes items, and may reset its decoder. -/
theorem hostAppends (h : Linked config p items devicePacket hostPacket) {more : List HostItem}
    {decoder : CdcMuxStreamDecoder} {host : CdcMuxHostSession} {hostPacket' : List UInt8}
    (hfollows : Follows config decoder hostPacket') (hopened : opened 0 hostPacket' p.toHost = [])
    (hruns : Runs (HostItem.Allowed config) HostItem.apply
      (items.foldl HostItem.apply p.device.view) more)
    (hpeer : host.handshakePending ∨ host.established →
      more.foldl HostItem.apply (items.foldl HostItem.apply p.device.view) = host.peer)
    (hhost : host.WellFormed config) :
    Linked config ⟨decoder, host, p.deviceDecoder, p.device,
      p.toDevice ++ itemBytes config (items.foldl HostItem.apply p.device.view) more, p.toHost⟩
      (items ++ more) devicePacket hostPacket' where
  hostFollows := hfollows
  deviceFollows := h.deviceFollows
  toDevice := by
    rw [outputs_append, ← h.toDevice]
    refine closed_append_flatMap h.toDeviceWhole fun body hbody => ?_
    obtain ⟨view, item, rfl⟩ := exists_of_mem_outputs hbody
    exact HostItem.zero_not_mem_packet view item
  toDeviceWhole := opened_append_flatMap h.toDeviceWhole _
  toHostWhole := hopened
  runs := runs_append.mpr ⟨h.runs, hruns⟩
  peer hsession := List.foldl_append.trans (hpeer hsession)
  host := hhost
  device := h.device

theorem hostWrites (h : Linked config p items devicePacket hostPacket) {more : List HostItem}
    {host : CdcMuxHostSession} {r : CallRecord}
    (hwrites : CdcMuxHostSession.Writes config more p.host host {} r) :
    Linked config ⟨p.hostDecoder, host, p.deviceDecoder, p.device, p.toDevice ++ r.written,
      p.toHost⟩ (items ++ more) devicePacket hostPacket := by
  have hview : more = [] ∨ items.foldl HostItem.apply p.device.view = p.host.peer :=
    hwrites.active.imp id fun hestablished => h.peer (.inr hestablished)
  have hwritten : r.written =
      itemBytes config (items.foldl HostItem.apply p.device.view) more := by
    rw [hwrites.written]
    rcases hview with rfl | hview
    · rfl
    · rw [hview]
      rfl
  rw [hwritten]
  refine h.hostAppends h.hostFollows h.toHostWhole ?_ (fun hsession => ?_) hwrites.wellFormed
  · rcases hview with rfl | hview
    · trivial
    · rw [hview]
      exact hwrites.runs
  · rw [hwrites.pending, hwrites.established] at hsession
    rw [h.peer hsession, hwrites.peer]

/-- The device writes frames. -/
theorem deviceWrites (h : Linked config p items devicePacket hostPacket) {next : UInt32}
    (frames : List CdcMuxFrameView) :
    Linked config ⟨p.hostDecoder, p.host, p.deviceDecoder,
      { p.device with nextTransmitSequence := next }, p.toDevice, p.toHost ++ frames.flatMap wireOf⟩
      items devicePacket hostPacket where
  hostFollows := h.hostFollows
  deviceFollows := h.deviceFollows
  toDevice := h.toDevice
  toDeviceWhole := h.toDeviceWhole
  toHostWhole := by
    rw [flatMap_wireOf]
    exact opened_append_flatMap h.toHostWhole _
  runs := h.runs
  peer := h.peer
  host := h.host
  device := ⟨h.device.applied, h.device.negotiated⟩

theorem beginHandshake (h : Linked config p items devicePacket hostPacket) :
    ∃ decoder host r, CdcMuxHostSession.beginHandshake config recording p.hostDecoder p.host {} =
        (.success, decoder, host, r) ∧ host.handshakePending = true ∧ host.peer = .fresh ∧
      host.lastPeerError = 0 ∧ Linked config ⟨decoder, host, p.deviceDecoder, p.device, p.toDevice ++ r.written, p.toHost⟩
        (items ++ [.delimiter, .hello]) devicePacket [] := by
  obtain ⟨host, r, hbegin, hhost, hpending, hpeer, herror, hwritten⟩ :=
    CdcMuxHostSession.beginHandshake_recording h.host p.hostDecoder
      (items.foldl HostItem.apply p.device.view)
  refine ⟨_, host, r, hbegin, hpending, hpeer, herror, ?_⟩
  rw [hwritten]
  exact h.hostAppends h.hostFollows.reset (opened_nil_of_append (a := []) h.toHostWhole)
    ⟨trivial, trivial, trivial⟩ (fun _ => hpeer.symm) hhost

theorem resetHost (h : Linked config p items devicePacket hostPacket) :
    ∃ decoder host r, CdcMuxHostSession.reset recording p.hostDecoder p.host {} =
        (decoder, host, r) ∧
      Linked config ⟨decoder, host, p.deviceDecoder, p.device, p.toDevice, p.toHost⟩ items
        devicePacket [] := by
  obtain ⟨host, r, hreset, hidle, hhost, -⟩ :=
    CdcMuxHostSession.reset_recording h.host p.hostDecoder {}
  refine ⟨_, host, r, hreset, ⟨h.hostFollows.reset, h.deviceFollows, h.toDevice, h.toDeviceWhole,
    opened_nil_of_append (a := []) h.toHostWhole, h.runs, fun hsession => ?_, hhost, h.device⟩⟩
  simp [hidle.pending, hidle.established] at hsession

/-- Whatever is done at either end or on the links, the sessions stay linked. -/
theorem perform (h : Linked config p items devicePacket hostPacket) (operation : Operation) :
    ∃ items' devicePacket' hostPacket',
      Linked config (p.perform config operation).2 items' devicePacket' hostPacket' := by
  cases operation with
  | beginHandshake =>
    obtain ⟨decoder, host, r, hbegin, -, -, -, hlinked⟩ := h.beginHandshake
    simp only [SessionPair.perform, hbegin]
    exact ⟨_, _, _, hlinked⟩
  | resetHost =>
    obtain ⟨decoder, host, r, hreset, hlinked⟩ := h.resetHost
    simp only [SessionPair.perform, hreset]
    exact ⟨_, _, _, hlinked⟩
  | openChannel channel =>
    obtain ⟨status, host, r, items', hopen, hwrites, -⟩ :=
      CdcMuxHostSession.openChannel_recording h.host channel {}
    simp only [SessionPair.perform, hopen]
    exact ⟨_, _, _, h.hostWrites hwrites⟩
  | closeChannel channel =>
    obtain ⟨status, host, r, items', hclose, hwrites, -⟩ :=
      CdcMuxHostSession.closeChannel_recording h.host channel {}
    simp only [SessionPair.perform, hclose]
    exact ⟨_, _, _, h.hostWrites hwrites⟩
  | hostSend channel bytes =>
    obtain ⟨status, host, r, items', hsend, hwrites, -⟩ :=
      CdcMuxHostSession.sendStream_recording h.host channel bytes {}
    simp only [SessionPair.perform, hsend]
    exact ⟨_, _, _, h.hostWrites hwrites⟩
  | deviceSend channel bytes =>
    rcases CdcMuxDeviceSession.sendStream_recording h.device channel bytes {} with
      ⟨status, -, -, hsend⟩ | ⟨-, -, pieces, -, -, hsend⟩
    · simp only [SessionPair.perform, hsend, List.append_nil]
      exact ⟨_, _, _, h⟩
    · simp only [SessionPair.perform, hsend, List.nil_append]
      exact ⟨_, _, _, h.deviceWrites _⟩
  | deliverToDevice count =>
    obtain ⟨decoder, device, r, written, -, items', packet, hchunk, hwritten, hlinked, -, -⟩ :=
      h.deviceChunk (List.take_append_drop count p.toDevice).symm {}
    simp only [SessionPair.perform, hchunk, hwritten, List.nil_append]
    exact ⟨_, _, _, hlinked⟩
  | deliverToHost count =>
    obtain ⟨status, decoder, host, r, packet, hchunk, hwritten, hlinked⟩ :=
      h.hostChunk (List.take_append_drop count p.toHost).symm {}
    simp only [SessionPair.perform, hchunk, hwritten, List.append_nil]
    exact ⟨_, _, _, hlinked⟩

end Linked

/-- The pairs that two initialized sessions get to. -/
def Reachable (config : CdcMuxConfig) (p : SessionPair) : Prop :=
  ∃ operations, p = (SessionPair.initial config).after config operations

theorem Linked.after (h : Linked config p items devicePacket hostPacket)
    (operations : List Operation) : ∃ items' devicePacket' hostPacket',
      Linked config (p.after config operations) items' devicePacket' hostPacket' := by
  induction operations generalizing p items devicePacket hostPacket with
  | nil => exact ⟨_, _, _, h⟩
  | cons operation operations ih =>
    obtain ⟨_, _, _, hlinked⟩ := h.perform operation
    exact ih hlinked

theorem Reachable.linked (h : Reachable config p) :
    ∃ items devicePacket hostPacket, Linked config p items devicePacket hostPacket := by
  obtain ⟨operations, rfl⟩ := h
  exact Linked.initial.after operations

theorem Reachable.after (h : Reachable config p) (operations : List Operation) :
    Reachable config (p.after config operations) := by
  obtain ⟨before, rfl⟩ := h
  exact ⟨before ++ operations, (SessionPair.after_append _ _ _).symm⟩

end WaveformGenerator.Dd008
