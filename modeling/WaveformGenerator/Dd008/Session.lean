import WaveformGenerator.Dd008.Protocol

/-!
# DD-008 sessions (`common/dd008/cdc_mux_session.cpp`)

A host and a device session number their frames, one counter a direction. A session's decoder is a
value beside it, since it is the decoder that calls the session; what the callbacks keep is the
context `σ`. No callback calls back into the session.
-/

namespace WaveformGenerator.Dd008

def errorBadCrc : UInt16 := 2
def errorUnsupportedVersion : UInt16 := 3
def errorOversize : UInt16 := 4
def errorSequence : UInt16 := 5
def errorUnsupportedType : UInt16 := 6
def errorUnsupportedChannel : UInt16 := 7
def errorChannelClosed : UInt16 := 8
def errorServiceUnavailable : UInt16 := 10

def cdcMuxControlStatusCapability : UInt32 := 1
def cdcMuxBinaryDataCapability : UInt32 := 2

def cdcMuxMandatoryCapabilities : UInt32 :=
  cdcMuxControlStatusCapability ||| cdcMuxBinaryDataCapability

def applicationChannel (channel : CdcMuxChannel) : Bool :=
  channel = .controlStatus || channel = .binaryData

def decodeErrorCode : CdcMuxDecodeError → UInt16
  | .badCrc => errorBadCrc
  | .unsupportedVersion => errorUnsupportedVersion
  | .packetTooLarge | .lengthMismatch => errorOversize
  | .unsupportedType => errorUnsupportedType
  | .unsupportedChannel | .invalidTypeChannel => errorUnsupportedChannel
  | .none | .malformedCobs | .frameTooShort | .badMagic | .unsupportedFlags => 0

/-- The callbacks of a session. The host has none for the state of the link. -/
structure CdcMuxCallbacks (σ : Type u) where
  wireWriter : σ → List UInt8 → Status × σ
  dataCallback : σ → CdcMuxChannel → List UInt8 → Status × σ
  stateCallback : σ → CdcMuxChannel → Bool → Status × σ
  linkStateCallback : σ → Bool → σ

/-! ## What both sessions do -/

/-- The members of both sessions, but for the decoder and the callbacks. -/
structure CdcMuxSession where
  channels : Vector Bool 5 := .replicate 5 false
  nextTransmitSequence : UInt32 := 1
  expectedReceiveSequence : UInt32 := 1
  negotiatedPayloadSize : UInt16 := 0
  initialized : Bool := false
  established : Bool := false
  deriving DecidableEq, Repr

variable (config : CdcMuxConfig) {σ : Type u} (callbacks : CdcMuxCallbacks σ)

namespace CdcMuxSession

def channelOpen (session : CdcMuxSession) (channel : CdcMuxChannel) : Bool :=
  session.channels[channel.value.toNat]?.getD false

def setChannel (session : CdcMuxSession) (channel : CdcMuxChannel) (isOpen : Bool) :
    CdcMuxSession :=
  { session with channels := session.channels.setIfInBounds channel.value.toNat isOpen }

def sendFrame (s : σ) (frame : CdcMuxFrameView) : Status × σ :=
  match encodeFrame config frame with
  | .error status => (status, s)
  | .ok wire => callbacks.wireWriter s wire

/-- `clear_channels`, at one index. -/
def clearChannel (session : CdcMuxSession) (s : σ) (channel : CdcMuxChannel) : CdcMuxSession × σ :=
  if session.channelOpen channel then
    (session.setChannel channel false, (callbacks.stateCallback s channel false).2)
  else
    (session, s)

def clearChannels (session : CdcMuxSession) (s : σ) : CdcMuxSession × σ :=
  [⟨1⟩, ⟨2⟩, ⟨3⟩, ⟨4⟩].foldl (fun (session, s) channel => session.clearChannel callbacks s channel)
    (session, s)

/-- The loop of `send_stream` over the bytes that are left. A size of 0, with which it would not
end, is never negotiated. -/
def sendChunks (maximum : Nat) (channel : CdcMuxChannel) (session : CdcMuxSession) (s : σ)
    (bytes : List UInt8) : Status × CdcMuxSession × σ :=
  if _hend : bytes = [] ∨ maximum = 0 then (.success, session, s)
  else
    let (status, s) := sendFrame config callbacks s
      ⟨.streamData, channel, session.nextTransmitSequence, bytes.take maximum⟩
    if !status.isOk then (status, session, s)
    else
      sendChunks maximum channel
        { session with nextTransmitSequence := session.nextTransmitSequence + 1 } s
        (bytes.drop maximum)
termination_by bytes.length
decreasing_by
  rw [not_or] at _hend
  have hlength := List.length_pos_of_ne_nil _hend.1
  rw [List.length_drop]
  omega

end CdcMuxSession

/-! ## The host's session -/

structure CdcMuxHostSession extends CdcMuxSession where
  lastPeerError : UInt16 := 0
  handshakePending : Bool := false
  deriving DecidableEq, Repr

namespace CdcMuxHostSession

open CdcMuxSession (sendFrame)

def sequenceMismatch : Status := ⟨.ioError, "CDC mux host receive sequence mismatch"⟩

def closedChannelWritten : Status := ⟨.ioError, "CDC mux device wrote a closed host channel"⟩

def reset (decoder : CdcMuxStreamDecoder) (session : CdcMuxHostSession) (s : σ) :
    CdcMuxStreamDecoder × CdcMuxHostSession × σ :=
  let (shared, s) := session.clearChannels callbacks s
  (decoder.reset,
    { session with
      toCdcMuxSession := { shared with
        established := false
        negotiatedPayloadSize := 0
        nextTransmitSequence := 1
        expectedReceiveSequence := 1 }
      handshakePending := false }, s)

/-- The payload of the host's HELLO. -/
def helloPayload : List UInt8 :=
  [cdcMuxProtocolVersion, cdcMuxProtocolVersion] ++ le16 (.ofNat config.maximumPayloadSize) ++
    le32 cdcMuxMandatoryCapabilities

def beginHandshake (decoder : CdcMuxStreamDecoder) (session : CdcMuxHostSession) (s : σ) :
    Status × CdcMuxStreamDecoder × CdcMuxHostSession × σ :=
  if !session.initialized then
    (⟨.invalidArgument, "CDC mux host session is not initialized"⟩, decoder, session, s)
  else
    let (shared, s) := session.clearChannels callbacks s
    let decoder := decoder.reset
    let session : CdcMuxHostSession :=
      { session with
        toCdcMuxSession := { shared with
          established := false
          negotiatedPayloadSize := 0
          nextTransmitSequence := 1
          expectedReceiveSequence := 1 }
        handshakePending := true
        lastPeerError := 0 }
    let (status, s) := callbacks.wireWriter s [0]
    if !status.isOk then (status, decoder, { session with handshakePending := false }, s)
    else
      let (status, s) := sendFrame config callbacks s ⟨.hello, .link, 0, helloPayload config⟩
      if !status.isOk then (status, decoder, { session with handshakePending := false }, s)
      else (status, decoder, session, s)

/-- `update_channel`. -/
def updateChannel (session : CdcMuxHostSession) (s : σ) (channel : CdcMuxChannel) (isOpen : Bool) :
    Status × CdcMuxHostSession × σ :=
  if 5 ≤ channel.value.toNat then
    (⟨.invalidArgument, "CDC mux channel index is invalid"⟩, session, s)
  else
    let (status, s) := callbacks.stateCallback s channel isOpen
    (status,
      { session with
        toCdcMuxSession := session.setChannel channel (if status.isOk then isOpen else !isOpen) }, s)

/-- `open_channel` and `close_channel`, behind their guards. -/
def switchChannel (type : CdcMuxFrameType) (isOpen : Bool) (session : CdcMuxHostSession) (s : σ)
    (channel : CdcMuxChannel) : Status × CdcMuxHostSession × σ :=
  if session.channelOpen channel = isOpen then (.success, session, s)
  else
    let (status, s) := sendFrame config callbacks s
      ⟨type, channel, session.nextTransmitSequence, []⟩
    if status.isOk then
      updateChannel callbacks
        { session with nextTransmitSequence := session.nextTransmitSequence + 1 } s channel isOpen
    else (status, session, s)

def openChannel (session : CdcMuxHostSession) (s : σ) (channel : CdcMuxChannel) :
    Status × CdcMuxHostSession × σ :=
  if !session.established || !applicationChannel channel then
    (⟨.invalidArgument, "CDC mux channel cannot be opened in the current session"⟩, session, s)
  else switchChannel config callbacks .channelOpen true session s channel

def closeChannel (session : CdcMuxHostSession) (s : σ) (channel : CdcMuxChannel) :
    Status × CdcMuxHostSession × σ :=
  if !session.established || !applicationChannel channel then
    (⟨.invalidArgument, "CDC mux channel cannot be closed in the current session"⟩, session, s)
  else switchChannel config callbacks .channelClose false session s channel

def sendStream (session : CdcMuxHostSession) (s : σ) (channel : CdcMuxChannel)
    (bytes : List UInt8) : Status × CdcMuxHostSession × σ :=
  if !session.established || !session.channelOpen channel then
    (⟨.unavailable, "CDC mux host channel is closed"⟩, session, s)
  else
    let (status, shared, s) := CdcMuxSession.sendChunks config callbacks
      session.negotiatedPayloadSize.toNat channel session.toCdcMuxSession s bytes
    (status, { session with toCdcMuxSession := shared }, s)

def handlePacket : CdcMuxPacketCallback (CdcMuxHostSession × σ) :=
  fun packet decoder (session, s) =>
  if !packet.valid then (.success, decoder, session, s)
  else
    let frame := packet.frame
    if session.handshakePending ∧ frame.type = .helloAck ∧ frame.sequence = 0 then
      let selectedVersion := frame.payload.getD 0 0
      let handshakeStatus := frame.payload.getD 1 0
      let payloadSize := readU16 frame.payload 2
      let capabilities := readU32 frame.payload 4
      if selectedVersion ≠ cdcMuxProtocolVersion ∨ handshakeStatus ≠ 0 ∨ payloadSize = 0 ∨
          config.maximumPayloadSize < payloadSize.toNat ∨
          capabilities &&& cdcMuxMandatoryCapabilities ≠ cdcMuxMandatoryCapabilities then
        (⟨.invalidConfiguration, "CDC mux device rejected or malformed the handshake"⟩,
          reset callbacks decoder session s)
      else
        (.success, decoder,
          { session with
            negotiatedPayloadSize := payloadSize
            handshakePending := false
            established := true }, s)
    else if !session.established ∨ frame.sequence ≠ session.expectedReceiveSequence then
      (sequenceMismatch, reset callbacks decoder session s)
    else
      let session := { session with expectedReceiveSequence := session.expectedReceiveSequence + 1 }
      if frame.type = .streamData then
        if !session.channelOpen frame.channel then (closedChannelWritten, decoder, session, s)
        else
          let (status, s) := callbacks.dataCallback s frame.channel frame.payload
          (status, decoder, session, s)
      else if frame.type = .error then
        (.success, decoder, { session with lastPeerError := readU16 frame.payload 0 }, s)
      else if frame.type = .reset then (.success, reset callbacks decoder session s)
      else (⟨.ioError, "unexpected CDC mux device frame"⟩, reset callbacks decoder session s)

def ingestWire (decoder : CdcMuxStreamDecoder) (session : CdcMuxHostSession) (s : σ)
    (bytes : List UInt8) : Status × CdcMuxStreamDecoder × CdcMuxHostSession × σ :=
  decoder.ingest config (handlePacket config callbacks) (session, s) bytes

end CdcMuxHostSession

/-! ## The device's session -/

structure CdcMuxDeviceSession extends CdcMuxSession
  deriving DecidableEq, Repr

namespace CdcMuxDeviceSession

open CdcMuxSession (sendFrame)

def sendStream (session : CdcMuxDeviceSession) (s : σ) (channel : CdcMuxChannel)
    (bytes : List UInt8) : Status × CdcMuxDeviceSession × σ :=
  if !session.established || !session.channelOpen channel then
    (⟨.unavailable, "CDC mux device channel is closed"⟩, session, s)
  else
    let (status, shared, s) := CdcMuxSession.sendChunks config callbacks
      session.negotiatedPayloadSize.toNat channel session.toCdcMuxSession s bytes
    (status, { session with toCdcMuxSession := shared }, s)

def sendError (session : CdcMuxDeviceSession) (s : σ) (errorCode : UInt16) :
    Status × CdcMuxDeviceSession × σ :=
  let (status, s) := sendFrame config callbacks s
    ⟨.error, .link, session.nextTransmitSequence, le16 errorCode⟩
  (status,
    if status.isOk then
      { session with nextTransmitSequence := session.nextTransmitSequence + 1 }
    else session, s)

def updateChannel (session : CdcMuxDeviceSession) (s : σ) (channel : CdcMuxChannel)
    (isOpen : Bool) : Status × CdcMuxDeviceSession × σ :=
  if 5 ≤ channel.value.toNat then sendError config callbacks session s errorUnsupportedChannel
  else if session.channelOpen channel = isOpen then (.success, session, s)
  else
    let (status, s) := callbacks.stateCallback s channel isOpen
    (status,
      { session with
        toCdcMuxSession := session.setChannel channel (if status.isOk then isOpen else !isOpen) }, s)

def abandonSession (session : CdcMuxDeviceSession) (s : σ) : CdcMuxDeviceSession × σ :=
  let wasEstablished := session.established
  let (shared, s) := session.clearChannels callbacks s
  ({ toCdcMuxSession := { shared with
      established := false
      negotiatedPayloadSize := 0
      nextTransmitSequence := 1
      expectedReceiveSequence := 1 } },
    if wasEstablished then callbacks.linkStateCallback s false else s)

def acceptHello (session : CdcMuxDeviceSession) (s : σ) (frame : CdcMuxFrameView) :
    Status × CdcMuxDeviceSession × σ :=
  let (session, s) := abandonSession callbacks session s
  let minimumVersion := frame.payload.getD 0 0
  let maximumVersion := frame.payload.getD 1 0
  let hostPayloadSize := readU16 frame.payload 2
  let hostCapabilities := readU32 frame.payload 4
  let accepted := decide (minimumVersion ≤ cdcMuxProtocolVersion) &&
    decide (cdcMuxProtocolVersion ≤ maximumVersion) && decide (hostPayloadSize ≠ 0) &&
    decide (hostCapabilities &&& cdcMuxMandatoryCapabilities = cdcMuxMandatoryCapabilities)
  let session :=
    { session with
      negotiatedPayloadSize := .ofNat (min hostPayloadSize.toNat config.maximumPayloadSize) }
  let payload := [cdcMuxProtocolVersion, if accepted then 0 else 1] ++
    le16 (if accepted then session.negotiatedPayloadSize else 0) ++
    le32 (if accepted then cdcMuxMandatoryCapabilities else 0)
  let (status, s) := sendFrame config callbacks s ⟨.helloAck, .link, 0, payload⟩
  if status.isOk && accepted then
    (status,
      { session with
        established := true
        nextTransmitSequence := 1
        expectedReceiveSequence := 1 }, callbacks.linkStateCallback s true)
  else (status, session, s)

/-- `handle_packet`. It does not touch the decoder. -/
def handlePacket (packet : CdcMuxDecodedPacket) (session : CdcMuxDeviceSession) (s : σ) :
    Status × CdcMuxDeviceSession × σ :=
  if !packet.valid then
    let errorCode := decodeErrorCode packet.error
    if session.established ∧ errorCode ≠ 0 then sendError config callbacks session s errorCode
    else (.success, session, s)
  else
    let frame := packet.frame
    if frame.type = .hello ∧ frame.sequence = 0 then acceptHello config callbacks session s frame
    else if !session.established then (.success, session, s)
    else if frame.sequence ≠ session.expectedReceiveSequence then
      let (status, session, s) := sendError config callbacks session s errorSequence
      (status, abandonSession callbacks session s)
    else
      let session := { session with expectedReceiveSequence := session.expectedReceiveSequence + 1 }
      if frame.type = .channelOpen then
        if !applicationChannel frame.channel then
          sendError config callbacks session s errorServiceUnavailable
        else updateChannel config callbacks session s frame.channel true
      else if frame.type = .channelClose then
        if !applicationChannel frame.channel then
          sendError config callbacks session s errorUnsupportedChannel
        else updateChannel config callbacks session s frame.channel false
      else if frame.type = .streamData then
        if !session.channelOpen frame.channel then
          sendError config callbacks session s errorChannelClosed
        else
          let (status, s) := callbacks.dataCallback s frame.channel frame.payload
          (status, session, s)
      else if frame.type = .reset then (.success, abandonSession callbacks session s)
      else if frame.type = .error then (.success, session, s)
      else sendError config callbacks session s errorUnsupportedType

/-- `receive_packet`. -/
def receivePacket : CdcMuxPacketCallback (CdcMuxDeviceSession × σ) :=
  fun packet decoder (session, s) =>
  let (status, session, s) := handlePacket config callbacks packet session s
  (status, decoder, session, s)

def ingestWire (decoder : CdcMuxStreamDecoder) (session : CdcMuxDeviceSession) (s : σ)
    (bytes : List UInt8) : Status × CdcMuxStreamDecoder × CdcMuxDeviceSession × σ :=
  decoder.ingest config (receivePacket config callbacks) (session, s) bytes

end CdcMuxDeviceSession

end WaveformGenerator.Dd008
