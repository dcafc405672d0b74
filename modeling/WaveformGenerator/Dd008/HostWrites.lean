import WaveformGenerator.Dd008.DeviceTakes
import WaveformGenerator.Dd008.HostTakes

/-!
# What the host writes

What an application asks of a host session becomes items that the device may be sent, and the host
takes the device to be what they make of it.
-/

namespace WaveformGenerator.Dd008

open Guarded

variable (config : CdcMuxConfig)

/-- The bytes of items. -/
def itemBytes (view : View) (items : List HostItem) : List UInt8 :=
  (outputs HostItem.apply (HostItem.packet config) view items).flatMap (· ++ [0])

namespace CdcMuxHostSession

/-- The device that a host takes itself to be joined to. -/
def peer (session : CdcMuxHostSession) : View :=
  ⟨true, session.nextTransmitSequence, session.channelOpen⟩

/-- A host that has written items. -/
structure Writes (items : List HostItem) (session session' : CdcMuxHostSession) (r r' : CallRecord) :
    Prop where
  active : items = [] ∨ session.established
  runs : Runs (HostItem.Allowed config) HostItem.apply session.peer items
  peer : session'.peer = items.foldl HostItem.apply session.peer
  written : r'.written = r.written ++ itemBytes config session.peer items
  wellFormed : session'.WellFormed config
  pending : session'.handshakePending = session.handshakePending
  established : session'.established = session.established
  expected : session'.expectedReceiveSequence = session.expectedReceiveSequence
  negotiated : session'.negotiatedPayloadSize = session.negotiatedPayloadSize
  peerError : session'.lastPeerError = session.lastPeerError

variable {config}

theorem Writes.nothing {session : CdcMuxHostSession} (h : session.WellFormed config)
    (r : CallRecord) : Writes config [] session session r r where
  active := .inl rfl
  runs := trivial
  peer := rfl
  written := (List.append_nil _).symm
  wellFormed := h
  pending := rfl
  established := rfl
  expected := rfl
  negotiated := rfl
  peerError := rfl

theorem updateChannel_recording (session : CdcMuxHostSession) (r : CallRecord)
    {channel : CdcMuxChannel} (h : applicationChannel channel) (isOpen : Bool) :
    ∃ r', updateChannel recording session r channel isOpen = (.success,
        { session with toCdcMuxSession := session.setChannel channel isOpen }, r') ∧
      r'.written = r.written := by
  unfold updateChannel
  rw [if_neg (Nat.not_le.mpr (CdcMuxSession.lt_of_applicationChannel h))]
  exact ⟨_, rfl, rfl⟩

/-- A host that switches a channel writes the frame that says so. -/
theorem switchChannel_recording {session : CdcMuxHostSession} (h : session.WellFormed config)
    (hestablished : session.established) {channel : CdcMuxChannel}
    (hchannel : applicationChannel channel) {type : CdcMuxFrameType} {isOpen : Bool}
    {item : HostItem} (hallowed : item.Allowed config session.peer)
    (hframe : item.frame config session.nextTransmitSequence =
      some ⟨type, channel, session.nextTransmitSequence, []⟩)
    (hview : item.apply session.peer = ⟨true, session.nextTransmitSequence + 1,
      Function.update session.channelOpen channel isOpen⟩) (r : CallRecord) :
    ∃ session' r' items, switchChannel config recording type isOpen session r channel =
        (.success, session', r') ∧ Writes config items session session' r r' ∧
      (items = [] ∨ items = [item]) := by
  unfold switchChannel
  split
  case isTrue => exact ⟨session, r, [], rfl, .nothing h r, .inl rfl⟩
  case isFalse =>
    have hadmits := HostItem.admits_frame hallowed hframe
    have hpacket : item.packet config session.peer =
        packetOf ⟨type, channel, session.nextTransmitSequence, []⟩ :=
      HostItem.packet_of_frame hframe
    rw [CdcMuxSession.sendFrame_recording hadmits]
    dsimp only
    rw [if_pos Status.isOk_success]
    obtain ⟨r', hupdate, hwritten⟩ := updateChannel_recording
      { session with nextTransmitSequence := session.nextTransmitSequence + 1 }
      { r with
        written := r.written ++ wireOf ⟨type, channel, session.nextTransmitSequence, []⟩ }
      hchannel isOpen
    refine ⟨_, _, [item], hupdate, ⟨.inr hestablished, ⟨hallowed, trivial⟩, ?_, ?_, ⟨h.initialized, ?_,
      (fun hpending => ?_), (fun hclosed => ?_), h.negotiated⟩, rfl, rfl, rfl, rfl, rfl⟩, .inr rfl⟩
    · exact (congrArg (View.mk true _) (CdcMuxSession.channelOpen_setChannel _
        (CdcMuxSession.lt_of_applicationChannel hchannel) isOpen)).trans hview.symm
    · rw [hwritten]
      simp [itemBytes, outputs, hpacket, wireOf]
    · exact h.applied.setChannel hchannel isOpen
    · exact absurd hpending (by simp [h.not_pending hestablished])
    · exact absurd hestablished (by simp [show session.established = false from hclosed])

theorem openChannel_recording {session : CdcMuxHostSession} (h : session.WellFormed config)
    (channel : CdcMuxChannel) (r : CallRecord) :
    ∃ status session' r' items, openChannel config recording session r channel =
        (status, session', r') ∧ Writes config items session session' r r' ∧
      (items = [] ∨ items = [.openChannel channel]) ∧ status.code ≠ .ioError := by
  unfold openChannel
  split
  case isTrue => exact ⟨_, session, r, [], rfl, .nothing h r, .inl rfl, by decide⟩
  case isFalse hready =>
    obtain ⟨hestablished, hchannel⟩ : session.established = true ∧ applicationChannel channel = true := by
      simpa using hready
    have hallowed : (HostItem.openChannel channel).Allowed config session.peer := ⟨rfl, hchannel⟩
    obtain ⟨session', r', items, hswitch, hwrites, hitems⟩ :=
      switchChannel_recording h hestablished hchannel hallowed rfl rfl r
    exact ⟨_, _, _, items, hswitch, hwrites, hitems, by decide⟩

theorem closeChannel_recording {session : CdcMuxHostSession} (h : session.WellFormed config)
    (channel : CdcMuxChannel) (r : CallRecord) :
    ∃ status session' r' items, closeChannel config recording session r channel =
        (status, session', r') ∧ Writes config items session session' r r' ∧
      (items = [] ∨ items = [.closeChannel channel]) ∧ status.code ≠ .ioError := by
  unfold closeChannel
  split
  case isTrue => exact ⟨_, session, r, [], rfl, .nothing h r, .inl rfl, by decide⟩
  case isFalse hready =>
    obtain ⟨hestablished, hchannel⟩ : session.established = true ∧ applicationChannel channel = true := by
      simpa using hready
    have hallowed : (HostItem.closeChannel channel).Allowed config session.peer := ⟨rfl, hchannel⟩
    obtain ⟨session', r', items, hswitch, hwrites, hitems⟩ :=
      switchChannel_recording h hestablished hchannel hallowed rfl rfl r
    exact ⟨_, _, _, items, hswitch, hwrites, hitems, by decide⟩

/-- Items of data are numbered frames. -/
theorem itemBytes_data (view : View) (channel : CdcMuxChannel) (pieces : List (List UInt8)) :
    itemBytes config view (pieces.map (.data channel)) =
      (numbered view.expected (pieces.map (channel, ·))).flatMap wireOf := by
  induction pieces generalizing view with
  | nil => rfl
  | cons piece pieces ih =>
    have hrest := ih ((HostItem.data channel piece).apply view)
    simp only [itemBytes] at hrest ⊢
    rw [List.map_cons, List.map_cons, outputs, List.flatMap_cons, hrest, numbered,
      List.flatMap_cons]
    rfl

theorem runs_data (view : View) (hestablished : view.established) {channel : CdcMuxChannel}
    (hopen : view.channels channel) {pieces : List (List UInt8)}
    (h : ∀ piece ∈ pieces, Carriable config (channel, piece)) :
    Runs (HostItem.Allowed config) HostItem.apply view (pieces.map (.data channel)) ∧
      (pieces.map (HostItem.data channel)).foldl HostItem.apply view =
        { view with expected := view.expected + .ofNat pieces.length } := by
  induction pieces generalizing view with
  | nil => exact ⟨trivial, by simp⟩
  | cons piece pieces ih =>
    rw [List.forall_mem_cons] at h
    obtain ⟨hruns, hview⟩ := ih { view with expected := view.expected + 1 } hestablished hopen h.2
    refine ⟨⟨⟨hestablished, hopen, h.1⟩, hruns⟩, hview.trans ?_⟩
    simp [UInt32.ofNat_add, UInt32.add_assoc, UInt32.add_comm 1]

/-- A host that sends on an open channel writes its data, cut to frames. -/
theorem sendStream_recording {session : CdcMuxHostSession} (h : session.WellFormed config)
    (channel : CdcMuxChannel) (bytes : List UInt8) (r : CallRecord) :
    ∃ status session' r' items, sendStream config recording session r channel bytes =
        (status, session', r') ∧ Writes config items session session' r r' ∧
      (status.isOk = false ∧ items = [] ∨ status.isOk = true ∧
        ∃ pieces : List (List UInt8), pieces.flatten = bytes ∧ items = pieces.map (.data channel)) ∧
      status.code ≠ .ioError := by
  unfold sendStream
  split
  case isTrue => exact ⟨_, session, r, [], rfl, .nothing h r, .inl ⟨rfl, rfl⟩, by decide⟩
  case isFalse hready =>
    obtain ⟨hestablished, hopen⟩ : session.established = true ∧ session.channelOpen channel = true := by
      simpa using hready
    obtain ⟨hpos, hmaximum⟩ := h.negotiated hestablished
    have hchannel := h.applied channel hopen
    obtain ⟨pieces, hflatten, hpieces, hsend⟩ := CdcMuxSession.sendChunks_recording hpos hmaximum
      hchannel session.toCdcMuxSession r bytes
    rw [hsend]
    have hview : session.peer.channels channel = true := hopen
    obtain ⟨hruns, hlast⟩ := runs_data session.peer rfl hview
      fun piece hpiece => ⟨hchannel, hpieces piece hpiece⟩
    refine ⟨_, _, _, pieces.map (.data channel), rfl, ⟨.inr hestablished, hruns, hlast.symm, ?_, ⟨h.initialized,
      h.applied, (fun hpending => ?_), h.closed, h.negotiated⟩, rfl, rfl, rfl, rfl, rfl⟩,
      .inr ⟨rfl, pieces, hflatten, rfl⟩, by decide⟩
    · rw [itemBytes_data]
      rfl
    · exact absurd hpending (by simp [h.not_pending hestablished])

/-- A host that begins a handshake writes a delimiter and a HELLO, and waits. -/
theorem beginHandshake_recording {session : CdcMuxHostSession} (h : session.WellFormed config)
    (decoder : CdcMuxStreamDecoder) (view : View) :
    ∃ session' r', beginHandshake config recording decoder session {} =
        (.success, decoder.reset, session', r') ∧ session'.WellFormed config ∧
      session'.handshakePending = true ∧ session'.peer = .fresh ∧ session'.lastPeerError = 0 ∧
      r'.written = itemBytes config view [.delimiter, .hello] := by
  obtain ⟨shared, cleared, hclear, hclears, hclosed⟩ :=
    CdcMuxSession.clearChannels_recording h.applied {}
  have hinitialized : shared.initialized = true := by
    rw [hclears.same]
    exact h.initialized
  unfold beginHandshake
  rw [if_neg (by simp [h.initialized]), hclear]
  have hwriter (r : CallRecord) (bytes : List UInt8) :
      recording.wireWriter r bytes = (.success, { r with written := r.written ++ bytes }) := rfl
  have hsend (r : CallRecord) :
      CdcMuxSession.sendFrame config recording r ⟨.hello, .link, 0, helloPayload config⟩ =
        (.success, { r with written := r.written ++ wireOf (helloFrame config) }) :=
    CdcMuxSession.sendFrame_recording admits_helloFrame r
  simp only [hwriter, hsend, Status.isOk_success, Bool.not_true, Bool.false_eq_true, if_false]
  refine ⟨_, _, rfl, ⟨hinitialized, fun channel hopen => ?_, fun _ => ⟨rfl, rfl, rfl⟩,
    fun _ => hclosed, (fun hestablished => nomatch hestablished)⟩, rfl,
    congrArg (View.mk true 1) hclosed, rfl, ?_⟩
  · replace hopen : shared.channelOpen channel = true := hopen
    simp [hclosed] at hopen
  · simp [hclears.written, itemBytes, outputs, HostItem.packet, HostItem.frame, wireOf]

end CdcMuxHostSession

end WaveformGenerator.Dd008
