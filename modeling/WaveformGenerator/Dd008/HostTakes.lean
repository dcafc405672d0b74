import WaveformGenerator.Dd008.Decoding
import WaveformGenerator.Dd008.SessionFrames

/-!
# What the host makes of a packet

`Handles` says all that one packet can do to a host session; the equations after it are for the
packets that a device sends in a session that goes well.
-/

namespace WaveformGenerator.Dd008

variable (config : CdcMuxConfig)

namespace CdcMuxHostSession

/-- What holds of every host session. -/
structure WellFormed (session : CdcMuxHostSession) : Prop where
  initialized : session.initialized
  applied : session.Applied
  pending : session.handshakePending → session.established = false ∧
    session.nextTransmitSequence = 1 ∧ session.expectedReceiveSequence = 1
  closed : session.established = false → session.channelOpen = fun _ => false
  negotiated : session.established → 0 < session.negotiatedPayloadSize.toNat ∧
    session.negotiatedPayloadSize.toNat ≤ config.maximumPayloadSize

/-- A host without a session. -/
structure Idle (session : CdcMuxHostSession) : Prop where
  pending : session.handshakePending = false
  established : session.established = false

/-- A host that has received a numbered frame. -/
def received (session : CdcMuxHostSession) : CdcMuxHostSession :=
  { session with expectedReceiveSequence := session.expectedReceiveSequence + 1 }

/-- A host that has accepted an acknowledgement. -/
def joined (session : CdcMuxHostSession) (payloadSize : UInt16) : CdcMuxHostSession :=
  { session with
    negotiatedPayloadSize := payloadSize
    handshakePending := false
    established := true }

/-- What a packet does to a host session. -/
inductive Handles (packet : CdcMuxDecodedPacket) (session : CdcMuxHostSession) (r : CallRecord) :
    Status × CdcMuxHostSession × CallRecord → Prop
  | ignored : packet.valid = false → Handles packet session r (.success, session, r)
  | joined {payloadSize : UInt16} : session.handshakePending →
    0 < payloadSize.toNat → payloadSize.toNat ≤ config.maximumPayloadSize →
    Handles packet session r (.success, session.joined payloadSize, r)
  | lost {status : Status} {session' : CdcMuxHostSession} {r' : CallRecord} :
    session'.Idle → session'.WellFormed config → r'.written = r.written →
    Handles packet session r (status, session', r')
  | numbered {status : Status} {lastPeerError : UInt16} {r' : CallRecord} :
    session.established → packet.frame.type = .streamData ∨ packet.frame.type = .error →
    r'.written = r.written →
    Handles packet session r (status, { session.received with lastPeerError }, r')

variable {config}

theorem WellFormed.not_pending {session : CdcMuxHostSession} (h : session.WellFormed config)
    (hestablished : session.established) : session.handshakePending = false := by
  by_contra hpending
  have := (h.pending (by simpa using hpending)).1
  simp [hestablished] at this

theorem WellFormed.numbered {session : CdcMuxHostSession} (h : session.WellFormed config)
    (hestablished : session.established) (lastPeerError : UInt16) :
    WellFormed config { session.received with lastPeerError } where
  initialized := h.initialized
  applied := h.applied
  pending hpending := absurd hpending (by simp [received, h.not_pending hestablished])
  closed := h.closed
  negotiated := h.negotiated

theorem WellFormed.joined {session : CdcMuxHostSession} (h : session.WellFormed config)
    {payloadSize : UInt16} (hpos : 0 < payloadSize.toNat)
    (hsize : payloadSize.toNat ≤ config.maximumPayloadSize) :
    WellFormed config (session.joined payloadSize) where
  initialized := h.initialized
  applied := h.applied
  pending hpending := nomatch hpending
  closed hclosed := nomatch hclosed
  negotiated _ := ⟨hpos, hsize⟩

/-- A reset leaves no session. -/
theorem reset_recording {session : CdcMuxHostSession} (h : session.WellFormed config)
    (decoder : CdcMuxStreamDecoder) (r : CallRecord) :
    ∃ session' r', reset recording decoder session r = (decoder.reset, session', r') ∧
      session'.Idle ∧ session'.WellFormed config ∧ r'.written = r.written := by
  obtain ⟨shared, cleared, hclear, hclears, hclosed⟩ :=
    CdcMuxSession.clearChannels_recording h.applied r
  have hinitialized : shared.initialized = session.initialized := by rw [hclears.same]
  unfold reset
  rw [hclear]
  refine ⟨_, _, rfl, ⟨rfl, rfl⟩, ⟨hinitialized.trans h.initialized, fun channel hopen => ?_,
    (fun hpending => nomatch hpending), fun _ => hclosed, fun hestablished => nomatch hestablished⟩,
    hclears.written⟩
  replace hopen : shared.channelOpen channel = true := hopen
  simp [hclosed] at hopen

theorem handles {session : CdcMuxHostSession} (h : session.WellFormed config)
    {decoder : CdcMuxStreamDecoder} (hdecoder : Follows config decoder [])
    (packet : CdcMuxDecodedPacket) (r : CallRecord) :
    ∃ status session' r', handlePacket config recording packet decoder (session, r) =
      (status, decoder, session', r') ∧
      Handles config packet session r (status, session', r') := by
  have hreset (status : Status) (lost : CdcMuxHostSession) (hlost : lost.WellFormed config) :
      ∃ status' session' r', (status, reset recording decoder lost r) =
        (status', decoder, session', r') ∧
        Handles config packet session r (status', session', r') := by
    obtain ⟨session', r', heq, hidle, hwellFormed, hwritten⟩ := reset_recording hlost decoder r
    rw [hdecoder.reset_eq] at heq
    exact ⟨status, session', r', by rw [heq], .lost hidle hwellFormed hwritten⟩
  unfold handlePacket
  dsimp only
  split
  case isTrue hinvalid => exact ⟨_, _, _, rfl, .ignored (by simpa using hinvalid)⟩
  case isFalse =>
    split
    case isTrue hack =>
      split
      case isTrue => exact hreset _ session h
      case isFalse hgood =>
        simp only [not_or, not_not, Nat.not_lt] at hgood
        obtain ⟨-, -, hpos, hsize, -⟩ := hgood
        have hpositive : 0 < (readU16 packet.frame.payload 2).toNat := by
          rw [← UInt16.toNat_inj] at hpos
          exact Nat.pos_of_ne_zero hpos
        exact ⟨_, _, _, rfl, .joined hack.1 hpositive hsize⟩
    case isFalse =>
      split
      case isTrue => exact hreset _ session h
      case isFalse hcounted =>
        obtain ⟨hestablished, -⟩ : session.established = true ∧
            packet.frame.sequence = session.expectedReceiveSequence := by simpa using hcounted
        have hreceived : session.received.WellFormed config :=
          h.numbered hestablished session.lastPeerError
        split
        case isTrue hdata =>
          split
          case isTrue => exact ⟨_, _, _, rfl, .numbered hestablished (.inl hdata) rfl⟩
          case isFalse => exact ⟨_, _, _, rfl, .numbered hestablished (.inl hdata) rfl⟩
        case isFalse =>
          split
          case isTrue herror => exact ⟨_, _, _, rfl, .numbered hestablished (.inr herror) rfl⟩
          case isFalse =>
            split
            case isTrue => exact hreset _ session.received hreceived
            case isFalse => exact hreset _ session.received hreceived

namespace Handles

variable {packet : CdcMuxDecodedPacket} {session session' : CdcMuxHostSession} {r r' : CallRecord}
  {status : Status}

theorem written (h : Handles config packet session r (status, session', r')) :
    r'.written = r.written := by
  cases h with
  | ignored _ => rfl
  | joined _ _ _ => rfl
  | lost _ _ hwritten => exact hwritten
  | numbered _ _ hwritten => exact hwritten

theorem wellFormed (h : Handles config packet session r (status, session', r'))
    (hsession : session.WellFormed config) : session'.WellFormed config := by
  cases h with
  | ignored _ => exact hsession
  | joined _ hpos hsize => exact hsession.joined hpos hsize
  | lost _ hwellFormed _ => exact hwellFormed
  | numbered hestablished _ _ => exact hsession.numbered hestablished _

/-- A host that goes on goes on with the frames and channels it had. -/
theorem kept (h : Handles config packet session r (status, session', r'))
    (hsession' : session'.handshakePending ∨ session'.established) :
    (session.handshakePending ∨ session.established) ∧
      session'.nextTransmitSequence = session.nextTransmitSequence ∧
      session'.channelOpen = session.channelOpen := by
  cases h with
  | ignored _ => exact ⟨hsession', rfl, rfl⟩
  | joined hpending _ _ => exact ⟨.inl hpending, rfl, rfl⟩
  | lost hidle _ _ => simp [hidle.pending, hidle.established] at hsession'
  | numbered hestablished _ _ => exact ⟨.inr hestablished, rfl, rfl⟩

end Handles

/-! ## Packets of a session that goes well -/

theorem handlePacket_invalid {packet : CdcMuxDecodedPacket} (h : packet.valid = false)
    (session : CdcMuxHostSession) (decoder : CdcMuxStreamDecoder) (r : CallRecord) :
    handlePacket config recording packet decoder (session, r) = (.success, decoder, session, r) := by
  simp [handlePacket, h]

/-- A host that waits for the acknowledgement of a device built as it is accepts it. -/
theorem handlePacket_ack {session : CdcMuxHostSession} (h : session.handshakePending)
    (decoder : CdcMuxStreamDecoder) (r : CallRecord) :
    handlePacket config recording (.accepted (ackFrame config)) decoder (session, r) =
      (.success, decoder, session.joined (.ofNat config.maximumPayloadSize), r) := by
  have hversion : (ackFrame config).payload.getD 0 0 = cdcMuxProtocolVersion := rfl
  have hstatus : (ackFrame config).payload.getD 1 0 = 0 := rfl
  have hsize : readU16 (ackFrame config).payload 2 = .ofNat config.maximumPayloadSize :=
    readU16_le16 [cdcMuxProtocolVersion, 0] (le32 cdcMuxMandatoryCapabilities) _
  have hcapabilities : readU32 (ackFrame config).payload 4 = cdcMuxMandatoryCapabilities :=
    readU32_le32 ([cdcMuxProtocolVersion, 0] ++ le16 (.ofNat config.maximumPayloadSize)) [] _
  have hvalid : (CdcMuxDecodedPacket.accepted (ackFrame config)).valid = true := rfl
  have hframe : (CdcMuxDecodedPacket.accepted (ackFrame config)).frame = ackFrame config := rfl
  have hne : UInt16.ofNat config.maximumPayloadSize ≠ 0 := maximumPayloadSize_ne_zero
  unfold handlePacket
  dsimp only
  rw [if_neg (by simp [hvalid]), if_pos ⟨h, rfl, rfl⟩, hframe, hversion, hstatus, hsize,
    hcapabilities, toNat_maximumPayloadSize, if_neg (by simp [hne])]
  rfl

/-- A host in a session hands on the data of the frame it expects, unless the channel is closed. -/
theorem handlePacket_data {session : CdcMuxHostSession} (hestablished : session.established)
    (channel : CdcMuxChannel) (payload : List UInt8) (decoder : CdcMuxStreamDecoder)
    (r : CallRecord) :
    handlePacket config recording (.accepted ⟨.streamData, channel,
        session.expectedReceiveSequence, payload⟩) decoder (session, r) =
      if session.channelOpen channel then
        (.success, decoder, session.received,
          { r with received := r.received ++ [(channel, payload)] })
      else (closedChannelWritten, decoder, session.received, r) := by
  obtain ⟨frame, hframe⟩ : ∃ frame : CdcMuxFrameView,
      frame = ⟨.streamData, channel, session.expectedReceiveSequence, payload⟩ := ⟨_, rfl⟩
  have hvalid : (CdcMuxDecodedPacket.accepted frame).valid = true := rfl
  have hself : (CdcMuxDecodedPacket.accepted frame).frame = frame := rfl
  rw [← hframe, handlePacket]
  dsimp only
  have htype : frame.type ≠ .helloAck :=
    ne_of_eq_of_ne (congrArg CdcMuxFrameView.type hframe)
      (by decide : CdcMuxFrameType.streamData ≠ .helloAck)
  rw [if_neg (by simp [hvalid]), hself, if_neg (fun hack => htype hack.2.1),
    if_neg (by simp [hframe, hestablished]), if_pos (by rw [hframe]), hframe]
  have hsame : session.received.channelOpen channel = session.channelOpen channel := rfl
  cases hchannel : session.channelOpen channel with
  | true => exact if_neg (ne_of_eq_of_ne (congrArg not (hsame.trans hchannel)) Bool.false_ne_true)
  | false => exact if_pos (congrArg not (hsame.trans hchannel))

end CdcMuxHostSession

end WaveformGenerator.Dd008
