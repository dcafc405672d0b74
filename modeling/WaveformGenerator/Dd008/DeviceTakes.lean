import WaveformGenerator.Dd008.SessionFrames
import WaveformGenerator.Lib.Guarded

/-!
# What the device makes of the host's frames

`HostItem` is what a host session writes, `View` what it takes the device to be. A device that is
what the host took it to be does what the next item says.
-/

namespace WaveformGenerator.Dd008

/-- What a host session writes. -/
inductive HostItem
  | delimiter
  | hello
  | openChannel (channel : CdcMuxChannel)
  | closeChannel (channel : CdcMuxChannel)
  | data (channel : CdcMuxChannel) (payload : List UInt8)
  deriving DecidableEq, Repr

/-- A device session as a host sees it. -/
structure View where
  established : Bool
  expected : UInt32
  channels : CdcMuxChannel → Bool

/-- A device that has accepted a HELLO. -/
def View.fresh : View := ⟨true, 1, fun _ => false⟩

def CdcMuxDeviceSession.view (session : CdcMuxDeviceSession) : View :=
  ⟨session.established, session.expectedReceiveSequence, session.channelOpen⟩

variable (config : CdcMuxConfig)

namespace HostItem

def frame (sequence : UInt32) : HostItem → Option CdcMuxFrameView
  | delimiter => none
  | hello => some (helloFrame config)
  | openChannel channel => some ⟨.channelOpen, channel, sequence, []⟩
  | closeChannel channel => some ⟨.channelClose, channel, sequence, []⟩
  | data channel payload => some ⟨.streamData, channel, sequence, payload⟩

/-- The packet of an item. A delimiter closes an empty one. -/
def packet (view : View) (item : HostItem) : List UInt8 :=
  ((item.frame config view.expected).map packetOf).getD []

/-- The device behind an item. -/
def apply (view : View) : HostItem → View
  | delimiter => view
  | hello => .fresh
  | openChannel channel =>
    { view with
      expected := view.expected + 1
      channels := Function.update view.channels channel true }
  | closeChannel channel =>
    { view with
      expected := view.expected + 1
      channels := Function.update view.channels channel false }
  | data _ _ => { view with expected := view.expected + 1 }

/-- The items a host may write. -/
def Allowed (view : View) : HostItem → Prop
  | delimiter | hello => True
  | openChannel channel | closeChannel channel => view.established ∧ applicationChannel channel
  | data channel payload =>
    view.established ∧ view.channels channel ∧ Carriable config (channel, payload)

/-- The data of an item. -/
def carried : HostItem → List (CdcMuxChannel × List UInt8)
  | data channel payload => [(channel, payload)]
  | _ => []

variable {config}

theorem admits_frame {view : View} {item : HostItem} (h : item.Allowed config view)
    {frame : CdcMuxFrameView} (hframe : item.frame config view.expected = some frame) :
    config.Admits frame := by
  cases item with
  | delimiter => exact nomatch hframe
  | hello => exact Option.some.inj hframe ▸ admits_helloFrame
  | openChannel channel => exact Option.some.inj hframe ▸ admits_channelOpen h.2 _
  | closeChannel channel => exact Option.some.inj hframe ▸ admits_channelClose h.2 _
  | data channel payload => exact Option.some.inj hframe ▸ admits_streamData h.2.2 _

theorem packet_of_frame {view : View} {item : HostItem} {frame : CdcMuxFrameView}
    (h : item.frame config view.expected = some frame) :
    item.packet config view = packetOf frame := by
  rw [packet, h, Option.map_some, Option.getD_some]

theorem zero_not_mem_packet (view : View) (item : HostItem) :
    (0 : UInt8) ∉ item.packet config view := by
  cases hframe : item.frame config view.expected with
  | none => simp [packet, hframe]
  | some frame => exact packet_of_frame hframe ▸ zero_not_mem_packetOf frame

/-- Only a delimiter closes nothing. -/
theorem packet_eq_nil {view : View} {item : HostItem} :
    item.packet config view = [] ↔ item.frame config view.expected = none := by
  cases hframe : item.frame config view.expected with
  | none => simp [packet, hframe]
  | some frame => simp [packet_of_frame hframe, packetOf_ne_nil]

theorem frame_eq_none {sequence : UInt32} {item : HostItem} :
    item.frame config sequence = none ↔ item = .delimiter := by
  cases item <;> simp [frame]

theorem carried_data (channel : CdcMuxChannel) (pieces : List (List UInt8)) :
    (pieces.map (data channel)).flatMap carried = pieces.map (channel, ·) := by
  induction pieces with
  | nil => rfl
  | cons piece pieces ih => exact congrArg ((channel, piece) :: ·) ih

/-- The answers to items are an acknowledgement for each HELLO. -/
theorem answers_eq (items : List HostItem) :
    (items.flatMap fun item => if item = .hello then wireOf (ackFrame config) else []) =
      (List.replicate (items.count .hello) (wireOf (ackFrame config))).flatten := by
  induction items with
  | nil => rfl
  | cons item items ih =>
    rw [List.flatMap_cons, ih]
    by_cases hitem : item = .hello
    · rw [if_pos hitem, hitem, List.count_cons_self, List.replicate_succ, List.flatten_cons]
    · rw [if_neg hitem, List.nil_append, List.count_cons_of_ne (Ne.symm (Ne.symm hitem))]

end HostItem

/-! ## The device -/

/-- What holds of every device session. -/
structure CdcMuxDeviceSession.WellFormed (session : CdcMuxDeviceSession) : Prop where
  applied : session.Applied
  negotiated : session.established →
    session.negotiatedPayloadSize.toNat = config.maximumPayloadSize

/-- What a device does with an item that it takes. -/
structure Takes (item : HostItem) (session session' : CdcMuxDeviceSession) (r r' : CallRecord) :
    Prop where
  view : session'.view = item.apply session.view
  received : r'.received = r.received ++ item.carried
  written : r'.written =
    r.written ++ if item = .hello then wireOf (ackFrame config) else []
  next : session'.nextTransmitSequence =
    if item = .hello then 1 else session.nextTransmitSequence
  wellFormed : session'.WellFormed config

/-- What a device does with items that it takes in turn. -/
structure TakesAll (items : List HostItem) (session session' : CdcMuxDeviceSession)
    (r r' : CallRecord) : Prop where
  view : session'.view = items.foldl HostItem.apply session.view
  received : r'.received = r.received ++ items.flatMap HostItem.carried
  written : r'.written = r.written ++
    items.flatMap fun item => if item = .hello then wireOf (ackFrame config) else []
  next : session'.nextTransmitSequence =
    if .hello ∈ items then 1 else session.nextTransmitSequence

variable {config}

theorem TakesAll.nil (session : CdcMuxDeviceSession) (r : CallRecord) :
    TakesAll config [] session session r r where
  view := rfl
  received := (List.append_nil _).symm
  written := (List.append_nil _).symm
  next := rfl

theorem TakesAll.cons {item : HostItem} {items : List HostItem}
    {session session' session'' : CdcMuxDeviceSession} {r r' r'' : CallRecord}
    (h : Takes config item session session' r r')
    (hrest : TakesAll config items session' session'' r' r'') :
    TakesAll config (item :: items) session session'' r r'' where
  view := by rw [hrest.view, h.view, List.foldl_cons]
  received := by rw [hrest.received, h.received, List.flatMap_cons, List.append_assoc]
  written := by rw [hrest.written, h.written, List.flatMap_cons, List.append_assoc]
  next := by
    rw [hrest.next, h.next]
    by_cases hrest' : .hello ∈ items
    · rw [if_pos hrest', if_pos (List.mem_cons_of_mem _ hrest')]
    · by_cases hitem : item = .hello
      · simp [hitem]
      · simp [hrest', hitem, Ne.symm hitem]

/-- Without a HELLO a device writes nothing. -/
theorem TakesAll.quiet {items : List HostItem} {session session' : CdcMuxDeviceSession}
    {r r' : CallRecord} (h : TakesAll config items session session' r r')
    (hquiet : .hello ∉ items) :
    r'.written = r.written ∧ session'.nextTransmitSequence = session.nextTransmitSequence := by
  refine ⟨?_, h.next.trans (if_neg hquiet)⟩
  rw [h.written, List.flatMap_eq_nil_iff.mpr, List.append_nil]
  intro item hitem
  have hne : item ≠ .hello := fun hhello => hquiet (hhello ▸ hitem)
  exact if_neg hne

namespace CdcMuxDeviceSession

/-- A device accepts the HELLO of a host built as it is. -/
theorem takes_hello {session : CdcMuxDeviceSession} (h : session.Applied) (r : CallRecord) :
    ∃ session' r', acceptHello config recording session r (helloFrame config) =
      (.success, session', r') ∧ Takes config .hello session session' r r' := by
  obtain ⟨shared, cleared, hclear, hclears, hclosed⟩ :=
    CdcMuxSession.clearChannels_recording h r
  have hminimum : (helloFrame config).payload.getD 0 0 = cdcMuxProtocolVersion := rfl
  have hmaximum : (helloFrame config).payload.getD 1 0 = cdcMuxProtocolVersion := rfl
  have hsize : readU16 (helloFrame config).payload 2 = .ofNat config.maximumPayloadSize :=
    readU16_le16 [cdcMuxProtocolVersion, cdcMuxProtocolVersion] (le32 cdcMuxMandatoryCapabilities) _
  have hcapabilities : readU32 (helloFrame config).payload 4 = cdcMuxMandatoryCapabilities :=
    readU32_le32 ([cdcMuxProtocolVersion, cdcMuxProtocolVersion] ++
      le16 (.ofNat config.maximumPayloadSize)) [] _
  have hne : UInt16.ofNat config.maximumPayloadSize ≠ 0 := maximumPayloadSize_ne_zero
  have hversion : decide (cdcMuxProtocolVersion ≤ cdcMuxProtocolVersion) = true := rfl
  have hsend (r : CallRecord) : CdcMuxSession.sendFrame config recording r (ackFrame config) =
      (.success, { r with written := r.written ++ wireOf (ackFrame config) }) :=
    CdcMuxSession.sendFrame_recording admits_ackFrame r
  unfold ackFrame at hsend
  simp only [acceptHello, abandonSession, hclear, hminimum, hmaximum, hsize, hcapabilities,
    toNat_maximumPayloadSize, Nat.min_self, hversion, hne, UInt32.and_self, ne_eq, not_false_eq_true,
    decide_true, Bool.and_true, if_true, hsend, Status.isOk_success]
  refine ⟨_, _, rfl, congrArg (View.mk true 1) hclosed, ?_, ?_, rfl, ?_, ?_⟩
  · split <;> simp [recording, hclears.received, HostItem.carried]
  · split <;> simp [recording, hclears.written, ackFrame]
  · intro channel hopen
    replace hopen : shared.channelOpen channel = true := hopen
    simp [hclosed] at hopen
  · exact fun _ => toNat_maximumPayloadSize

theorem updateChannel_recording (config : CdcMuxConfig) (session : CdcMuxDeviceSession) (r : CallRecord)
    {channel : CdcMuxChannel} (h : applicationChannel channel) (isOpen : Bool) :
    ∃ shared r', updateChannel config recording session r channel isOpen =
        (.success, ⟨shared⟩, r') ∧ CdcMuxSession.Clears session.toCdcMuxSession shared r r' ∧
      shared.channelOpen = Function.update session.channelOpen channel isOpen := by
  have hlt := CdcMuxSession.lt_of_applicationChannel h
  unfold updateChannel
  rw [if_neg (Nat.not_le.mpr hlt)]
  split
  case isTrue hsame =>
    exact ⟨_, _, rfl, .refl .., (Function.update_eq_self_iff.mpr hsame.symm).symm⟩
  case isFalse => exact ⟨_, _, rfl, ⟨rfl, rfl, rfl⟩, CdcMuxSession.channelOpen_setChannel _ hlt isOpen⟩

/-- A numbered frame gets past the checks. -/
theorem handlePacket_numbered (config : CdcMuxConfig) {session : CdcMuxDeviceSession}
    (hestablished : session.established) {type : CdcMuxFrameType} (htype : type ≠ .hello) (channel : CdcMuxChannel)
    (payload : List UInt8) (r : CallRecord) :
    let frame : CdcMuxFrameView := ⟨type, channel, session.expectedReceiveSequence, payload⟩
    let next : CdcMuxDeviceSession :=
      { session with expectedReceiveSequence := session.expectedReceiveSequence + 1 }
    handlePacket config recording (.accepted frame) session r =
      if type = .channelOpen then
        if !applicationChannel channel then
          sendError config recording next r errorServiceUnavailable
        else updateChannel config recording next r channel true
      else if type = .channelClose then
        if !applicationChannel channel then
          sendError config recording next r errorUnsupportedChannel
        else updateChannel config recording next r channel false
      else if type = .streamData then
        if !next.channelOpen channel then sendError config recording next r errorChannelClosed
        else
          let (status, s) := recording.dataCallback r channel payload
          (status, next, s)
      else if type = .reset then (.success, abandonSession recording next r)
      else if type = .error then (.success, next, r)
      else sendError config recording next r errorUnsupportedType := by
  intro frame next
  have hvalid : (CdcMuxDecodedPacket.accepted frame).valid = true := rfl
  rw [handlePacket, if_neg (by simp [hvalid]), if_neg (fun h => htype h.1),
    if_neg (by rw [hestablished]; decide), if_neg (fun h => h rfl)]
  rfl

/-- A device that updates a channel as its frame says takes the frame. -/
theorem takes_updated {session : CdcMuxDeviceSession} (h : session.WellFormed config)
    (hestablished : session.established) (item : HostItem) (hitem : item ≠ .hello)
    (hcarried : item.carried = []) {channel : CdcMuxChannel} (hchannel : applicationChannel channel)
    {isOpen : Bool} (hview : item.apply session.view = ⟨session.established,
      session.expectedReceiveSequence + 1, Function.update session.channelOpen channel isOpen⟩)
    (r : CallRecord) :
    ∃ session' r', updateChannel config recording
        { session with expectedReceiveSequence := session.expectedReceiveSequence + 1 } r channel
        isOpen = (.success, session', r') ∧ Takes config item session session' r r' := by
  obtain ⟨shared, r', hupdate, hclears, hopen⟩ := updateChannel_recording config
    { session with expectedReceiveSequence := session.expectedReceiveSequence + 1 } r hchannel isOpen
  replace hopen : shared.channelOpen = Function.update session.channelOpen channel isOpen := hopen
  have hestablished' : shared.established = session.established := by
    rw [hclears.same]
  have hexpected : shared.expectedReceiveSequence = session.expectedReceiveSequence + 1 := by
    rw [hclears.same]
  have hnext : shared.nextTransmitSequence = session.nextTransmitSequence := by
    rw [hclears.same]
  have hnegotiated : shared.negotiatedPayloadSize = session.negotiatedPayloadSize := by
    rw [hclears.same]
  refine ⟨_, _, hupdate, ?_, ?_, ?_, ?_, ?_, fun _ => ?_⟩
  · rw [hview]
    exact congr (congrArg₂ View.mk hestablished' hexpected) hopen
  · rw [hclears.received, hcarried, List.append_nil]
  · rw [hclears.written, if_neg hitem, List.append_nil]
  · rw [if_neg hitem]
    exact hnext
  · intro other hother
    replace hother : shared.channelOpen other = true := hother
    by_cases hsame : other = channel
    · exact hsame ▸ hchannel
    · rw [hopen, Function.update_of_ne hsame] at hother
      exact h.applied other hother
  · exact (congrArg UInt16.toNat hnegotiated).trans (h.negotiated hestablished)

/-- A device takes what it may be sent. -/
theorem takes {session : CdcMuxDeviceSession} (h : session.WellFormed config) {item : HostItem}
    (hallowed : item.Allowed config session.view) {frame : CdcMuxFrameView}
    (hframe : item.frame config session.view.expected = some frame) (r : CallRecord) :
    ∃ session' r', handlePacket config recording (.accepted frame) session r =
      (.success, session', r') ∧ Takes config item session session' r r' := by
  cases item with
  | delimiter => exact nomatch hframe
  | hello =>
    obtain rfl := Option.some.inj hframe
    exact takes_hello h.applied r
  | openChannel channel =>
    obtain rfl := Option.some.inj hframe
    obtain ⟨hestablished, hchannel⟩ := hallowed
    have htype : CdcMuxFrameType.channelOpen ≠ .hello := by decide
    have hhandle := handlePacket_numbered config hestablished htype channel [] r
    extract_lets frame next at hhandle
    rw [if_pos rfl, if_neg (by simp [hchannel])] at hhandle
    obtain ⟨session', r', hupdate, htakes⟩ := takes_updated h hestablished
      (.openChannel channel) (by simp) rfl hchannel rfl r
    exact ⟨session', r', hhandle.trans hupdate, htakes⟩
  | closeChannel channel =>
    obtain rfl := Option.some.inj hframe
    obtain ⟨hestablished, hchannel⟩ := hallowed
    have htype : CdcMuxFrameType.channelClose ≠ .hello := by decide
    have hhandle := handlePacket_numbered config hestablished htype channel [] r
    extract_lets frame next at hhandle
    rw [if_neg (by decide), if_pos rfl, if_neg (by simp [hchannel])] at hhandle
    obtain ⟨session', r', hupdate, htakes⟩ := takes_updated h hestablished
      (.closeChannel channel) (by simp) rfl hchannel rfl r
    exact ⟨session', r', hhandle.trans hupdate, htakes⟩
  | data channel payload =>
    obtain rfl := Option.some.inj hframe
    obtain ⟨hestablished, hopen, -⟩ := hallowed
    have htype : CdcMuxFrameType.streamData ≠ .hello := by decide
    have hhandle := handlePacket_numbered config hestablished htype channel payload r
    extract_lets frame next at hhandle
    have hstill : next.channelOpen channel = true := hopen
    rw [if_neg (by decide), if_neg (by decide), if_pos rfl, if_neg (by simp [hstill])] at hhandle
    exact ⟨_, _, hhandle, rfl, rfl, (List.append_nil _).symm, rfl, h.applied, h.negotiated⟩

/-- A device that sends on an open channel writes its data in numbered frames. -/
theorem sendStream_recording {session : CdcMuxDeviceSession} (h : session.WellFormed config)
    (channel : CdcMuxChannel) (bytes : List UInt8) (r : CallRecord) :
    (∃ status, status.isOk = false ∧ status.code ≠ .ioError ∧
      sendStream config recording session r channel bytes = (status, session, r)) ∨
    session.established ∧ session.channelOpen channel ∧ ∃ pieces : List (List UInt8),
      pieces.flatten = bytes ∧ (∀ piece ∈ pieces, Carriable config (channel, piece)) ∧
      sendStream config recording session r channel bytes = (.success,
        { session with
          nextTransmitSequence := session.nextTransmitSequence + .ofNat pieces.length },
        { r with
          written := r.written ++
            (numbered session.nextTransmitSequence (pieces.map (channel, ·))).flatMap wireOf }) := by
  unfold sendStream
  split
  case isTrue => exact .inl ⟨_, rfl, by decide, rfl⟩
  case isFalse hready =>
    obtain ⟨hestablished, hopen⟩ : session.established = true ∧ session.channelOpen channel = true := by
      simpa using hready
    have hsize := h.negotiated hestablished
    have hpos : 0 < session.negotiatedPayloadSize.toNat := by
      rw [hsize]
      exact Nat.lt_of_lt_of_le (by decide) config.least
    have hchannel := h.applied channel hopen
    obtain ⟨pieces, hflatten, hpieces, hsend⟩ := CdcMuxSession.sendChunks_recording hpos
      (Nat.le_of_eq hsize) hchannel session.toCdcMuxSession r bytes
    rw [hsend]
    exact .inr ⟨hestablished, hopen, pieces, hflatten,
      fun piece hpiece => ⟨hchannel, hpieces piece hpiece⟩, rfl⟩

end CdcMuxDeviceSession

end WaveformGenerator.Dd008
