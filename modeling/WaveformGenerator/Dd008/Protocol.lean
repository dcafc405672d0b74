import WaveformGenerator.Common.Status
import WaveformGenerator.Lib.Bytes

/-!
# DD-008 frames (`common/dd008/cdc_mux_protocol.cpp`)

A frame is a header, a payload and a CRC-32C, stuffed so that no byte of it is zero and closed by
one that is. The stuffing loops work on the caller's buffers, whose bounds they check themselves.
-/

namespace WaveformGenerator.Dd008

/-- `CdcMuxFrameType`. Any byte can be cast to the enumeration. -/
structure CdcMuxFrameType where
  value : UInt8
  deriving DecidableEq, Repr

namespace CdcMuxFrameType

@[match_pattern] def hello : CdcMuxFrameType := ⟨0x01⟩
@[match_pattern] def helloAck : CdcMuxFrameType := ⟨0x02⟩
@[match_pattern] def channelOpen : CdcMuxFrameType := ⟨0x10⟩
@[match_pattern] def channelClose : CdcMuxFrameType := ⟨0x11⟩
@[match_pattern] def streamData : CdcMuxFrameType := ⟨0x12⟩
@[match_pattern] def reset : CdcMuxFrameType := ⟨0x13⟩
@[match_pattern] def error : CdcMuxFrameType := ⟨0x14⟩

end CdcMuxFrameType

/-- `CdcMuxChannel`. Any byte can be cast to the enumeration. -/
structure CdcMuxChannel where
  value : UInt8
  deriving DecidableEq, Repr

namespace CdcMuxChannel

@[match_pattern] def link : CdcMuxChannel := ⟨0x00⟩
@[match_pattern] def controlStatus : CdcMuxChannel := ⟨0x01⟩
@[match_pattern] def binaryData : CdcMuxChannel := ⟨0x02⟩
@[match_pattern] def provisioning : CdcMuxChannel := ⟨0x03⟩
@[match_pattern] def diagnostic : CdcMuxChannel := ⟨0x04⟩

end CdcMuxChannel

inductive CdcMuxDecodeError
  | none
  | packetTooLarge
  | malformedCobs
  | frameTooShort
  | badMagic
  | unsupportedVersion
  | unsupportedFlags
  | lengthMismatch
  | badCrc
  | unsupportedType
  | unsupportedChannel
  | invalidTypeChannel
  deriving DecidableEq, Repr

structure CdcMuxFrameView where
  type : CdcMuxFrameType := ⟨0⟩
  channel : CdcMuxChannel := ⟨0⟩
  sequence : UInt32 := 0
  payload : List UInt8 := []
  deriving DecidableEq, Repr

structure CdcMuxDecodedPacket where
  error : CdcMuxDecodeError := .none
  frame : CdcMuxFrameView := {}
  deriving DecidableEq, Repr

/-- The packet of a frame that was accepted. -/
def CdcMuxDecodedPacket.accepted (frame : CdcMuxFrameView) : CdcMuxDecodedPacket := { frame }

def CdcMuxDecodedPacket.valid (packet : CdcMuxDecodedPacket) : Bool := packet.error == .none

/-! ## Sizes -/

/-- The build's `M110_CDC_MUX_MAXIMUM_PAYLOAD_SIZE`, within what the header asserts of it. -/
structure CdcMuxConfig where
  maximumPayloadSize : Nat := 256
  least : 256 ≤ maximumPayloadSize := by decide
  most : maximumPayloadSize ≤ 65535 := by decide

def cdcMuxProtocolVersion : UInt8 := 1
def cdcMuxHeaderSize : Nat := 12
def cdcMuxCrcSize : Nat := 4

namespace CdcMuxConfig

variable (config : CdcMuxConfig)

def maximumDecodedFrameSize : Nat := cdcMuxHeaderSize + config.maximumPayloadSize + cdcMuxCrcSize

def maximumCobsPacketSize : Nat :=
  config.maximumDecodedFrameSize + config.maximumDecodedFrameSize / 254 + 1

def maximumWireFrameSize : Nat := config.maximumCobsPacketSize + 1

end CdcMuxConfig

/-! ## Which frames there are -/

def knownType : CdcMuxFrameType → Bool
  | .hello | .helloAck | .channelOpen | .channelClose | .streamData | .reset | .error => true
  | _ => false

def knownChannel : CdcMuxChannel → Bool
  | .link | .controlStatus | .binaryData | .provisioning | .diagnostic => true
  | _ => false

def validTypeChannel (type : CdcMuxFrameType) (channel : CdcMuxChannel) (payloadSize : Nat) :
    Bool :=
  match type with
  | .hello | .helloAck => channel = .link && payloadSize = 8
  | .channelOpen | .channelClose => channel ≠ .link && payloadSize = 0
  | .streamData => channel ≠ .link
  | .reset => channel = .link && payloadSize = 0
  | .error => channel = .link && 2 ≤ payloadSize
  | _ => false

/-! ## CRC-32C -/

def crc32cPolynomial : UInt32 := 0x82F63B78

def crc32cBit (crc : UInt32) : UInt32 :=
  let mask := 0 - (crc &&& 1)
  (crc >>> 1) ^^^ (crc32cPolynomial &&& mask)

def crc32cByte (crc : UInt32) (byte : UInt8) : UInt32 :=
  Nat.repeat crc32cBit 8 (crc ^^^ byte.toUInt32)

def cdcMuxCrc32c (bytes : List UInt8) : UInt32 :=
  bytes.foldl crc32cByte 0xFFFFFFFF ^^^ 0xFFFFFFFF

/-! ## Stuffing -/

def cobsOutputTooSmall : Status := ⟨.bufferTooSmall, "COBS output buffer is too small"⟩

/-- The loop of `cobs_encode` over the input that is left to read. -/
def cobsEncodeLoop (output : Buffer) (writeIndex codeIndex : Nat) (code : UInt8) :
    List UInt8 → Result Nat × Buffer
  | [] =>
    if output.size ≤ codeIndex then (.error cobsOutputTooSmall, output)
    else (.ok writeIndex, output.store codeIndex code)
  | value :: input =>
    if value = 0 then
      if output.size ≤ codeIndex then (.error cobsOutputTooSmall, output)
      else cobsEncodeLoop (output.store codeIndex code) (writeIndex + 1) writeIndex 1 input
    else if output.size ≤ writeIndex then (.error cobsOutputTooSmall, output)
    else
      let output := output.store writeIndex value
      if code + 1 = 0xFF then
        cobsEncodeLoop (output.store codeIndex (code + 1)) (writeIndex + 2) (writeIndex + 1) 1 input
      else cobsEncodeLoop output (writeIndex + 1) codeIndex (code + 1) input

def cobsEncode (input : List UInt8) (output : Buffer) : Result Nat × Buffer :=
  if output.size = 0 then (.error ⟨.bufferTooSmall, "COBS output buffer is empty"⟩, output)
  else cobsEncodeLoop output 1 0 1 input

/-- The loop of `cobs_decode` over the input that is left to read. -/
def cobsDecodeLoop (output : Buffer) (writeIndex : Nat) (input : List UInt8) :
    Result Nat × Buffer :=
  match input with
  | [] => (.ok writeIndex, output)
  | code :: input =>
    if code = 0 then (.error ⟨.invalidArgument, "zero code in COBS packet"⟩, output)
    else
      let copySize := code.toNat - 1
      if input.length < copySize ∨ output.size - writeIndex < copySize then
        (.error ⟨.invalidArgument, "truncated or oversized COBS packet"⟩, output)
      else
        let output := output.copy writeIndex (input.take copySize)
        let writeIndex := writeIndex + copySize
        let input := input.drop copySize
        if code ≠ 0xFF ∧ input ≠ [] then
          if output.size ≤ writeIndex then
            (.error ⟨.bufferTooSmall, "decoded COBS packet is too large"⟩, output)
          else cobsDecodeLoop (output.store writeIndex 0) (writeIndex + 1) input
        else cobsDecodeLoop output writeIndex input
termination_by input.length
decreasing_by
  all_goals
    simp +zetaDelta only [List.length_drop, List.length_cons]
    omega

def cobsDecode (input : List UInt8) (output : Buffer) : Result Nat × Buffer :=
  cobsDecodeLoop output 0 input

/-! ## Frames -/

def magic0 : UInt8 := 0x4D
def magic1 : UInt8 := 0x31

/-- A frame before its stuffing, up to its checksum. -/
def frameBody (frame : CdcMuxFrameView) : List UInt8 :=
  [magic0, magic1, cdcMuxProtocolVersion, frame.type.value, frame.channel.value, 0] ++
    le16 (.ofNat frame.payload.length) ++ le32 frame.sequence ++ frame.payload

/-- A frame before its stuffing. -/
def decodedFrame (frame : CdcMuxFrameView) : List UInt8 :=
  frameBody frame ++ le32 (cdcMuxCrc32c (frameBody frame))

variable (config : CdcMuxConfig)

def parseFrame (decoded : List UInt8) : CdcMuxDecodedPacket :=
  if decoded.length < cdcMuxHeaderSize + cdcMuxCrcSize then { error := .frameTooShort }
  else if decoded.getD 0 0 ≠ magic0 ∨ decoded.getD 1 0 ≠ magic1 then { error := .badMagic }
  else if decoded.getD 2 0 ≠ cdcMuxProtocolVersion then { error := .unsupportedVersion }
  else if decoded.getD 5 0 ≠ 0 then { error := .unsupportedFlags }
  else
    let payloadSize := (readU16 decoded 6).toNat
    if config.maximumPayloadSize < payloadSize ∨
        decoded.length ≠ cdcMuxHeaderSize + payloadSize + cdcMuxCrcSize then
      { error := .lengthMismatch }
    else
      let crcOffset := cdcMuxHeaderSize + payloadSize
      if readU32 decoded crcOffset ≠ cdcMuxCrc32c (decoded.take crcOffset) then
        { error := .badCrc }
      else
        let type : CdcMuxFrameType := ⟨decoded.getD 3 0⟩
        let channel : CdcMuxChannel := ⟨decoded.getD 4 0⟩
        if !knownType type then { error := .unsupportedType }
        else if !knownChannel channel then { error := .unsupportedChannel }
        else if !validTypeChannel type channel payloadSize then { error := .invalidTypeChannel }
        else
          .accepted
            { type
              channel
              sequence := readU32 decoded 8
              payload := (decoded.drop cdcMuxHeaderSize).take payloadSize }

def encodeCdcMuxFrame (frame : CdcMuxFrameView) (output : Buffer) : Result Nat × Buffer :=
  if !knownType frame.type || !knownChannel frame.channel ||
      !validTypeChannel frame.type frame.channel frame.payload.length then
    (.error ⟨.invalidArgument, "invalid DD-008 frame type, channel, or payload"⟩, output)
  else if config.maximumPayloadSize < frame.payload.length then
    (.error ⟨.invalidArgument, "DD-008 payload is too large"⟩, output)
  else if output.size < 2 then
    (.error ⟨.bufferTooSmall, "DD-008 wire output is too small"⟩, output)
  else
    match cobsEncode (decodedFrame frame) (output.first (output.size - 1)) with
    | (.error status, span) => (.error status, output.withFirst span)
    | (.ok encodedSize, span) =>
      let output := output.withFirst span
      if output.size ≤ encodedSize then
        (.error ⟨.bufferTooSmall, "DD-008 wire output lacks delimiter space"⟩, output)
      else (.ok (encodedSize + 1), output.store encodedSize 0)

/-- The bytes that `send_frame` writes: those of the frame in a buffer of the maximum wire size. -/
def encodeFrame (frame : CdcMuxFrameView) : Result (List UInt8) :=
  match encodeCdcMuxFrame config frame (.zeros config.maximumWireFrameSize) with
  | (.error status, _) => .error status
  | (.ok size, wire) => .ok (wire.bytes.take size)

/-! ## The stream decoder -/

structure CdcMuxDecoderStatistics where
  validFrames : UInt32 := 0
  emptyPackets : UInt32 := 0
  rejectedPackets : UInt32 := 0
  oversizedPackets : UInt32 := 0
  deriving DecidableEq, Repr

structure CdcMuxStreamDecoder where
  encoded : Buffer
  decoded : Buffer
  encodedSize : Nat := 0
  statistics : CdcMuxDecoderStatistics := {}
  discardingOversizedPacket : Bool := false
  deriving DecidableEq, Repr

/-- `CdcMuxPacketCallback`, which is never null here. Its context may own the decoder, so it is
handed that as well. -/
abbrev CdcMuxPacketCallback (σ : Type u) : Type u :=
  CdcMuxDecodedPacket → CdcMuxStreamDecoder → σ → Status × CdcMuxStreamDecoder × σ

namespace CdcMuxStreamDecoder

/-- A decoder as it is built. -/
def initial : CdcMuxStreamDecoder where
  encoded := .zeros config.maximumCobsPacketSize
  decoded := .zeros config.maximumDecodedFrameSize

def reset (decoder : CdcMuxStreamDecoder) : CdcMuxStreamDecoder :=
  { decoder with encodedSize := 0, discardingOversizedPacket := false }

def countRejected (decoder : CdcMuxStreamDecoder) : CdcMuxStreamDecoder :=
  { decoder with
    statistics.rejectedPackets := decoder.statistics.rejectedPackets + 1 }

def countOversized (decoder : CdcMuxStreamDecoder) : CdcMuxStreamDecoder :=
  { decoder with
    statistics.oversizedPackets := decoder.statistics.oversizedPackets + 1 }

def countEmpty (decoder : CdcMuxStreamDecoder) : CdcMuxStreamDecoder :=
  { decoder with statistics.emptyPackets := decoder.statistics.emptyPackets + 1 }

def countValid (decoder : CdcMuxStreamDecoder) : CdcMuxStreamDecoder :=
  { decoder with statistics.validFrames := decoder.statistics.validFrames + 1 }

variable {σ : Type u} (callback : CdcMuxPacketCallback σ)

def finishPacket (decoder : CdcMuxStreamDecoder) (context : σ) :
    Status × CdcMuxStreamDecoder × σ :=
  if decoder.discardingOversizedPacket then
    let decoder := { decoder with discardingOversizedPacket := false, encodedSize := 0 }
    callback { error := .packetTooLarge } decoder.countRejected.countOversized context
  else if decoder.encodedSize = 0 then (.success, decoder.countEmpty, context)
  else
    let (result, decoded) :=
      cobsDecode (decoder.encoded.bytes.take decoder.encodedSize) decoder.decoded
    let decoder := { decoder with decoded, encodedSize := 0 }
    match result with
    | .error _ => callback { error := .malformedCobs } decoder.countRejected context
    | .ok size =>
      let packet := parseFrame config (decoded.bytes.take size)
      let decoder := if packet.valid then decoder.countValid else decoder.countRejected
      callback packet decoder context

/-- What the loop of `ingest` does with a byte that is no delimiter. -/
def takeByte (decoder : CdcMuxStreamDecoder) (byte : UInt8) : CdcMuxStreamDecoder :=
  if decoder.discardingOversizedPacket then decoder
  else if decoder.encodedSize = decoder.encoded.size then
    { decoder with discardingOversizedPacket := true, encodedSize := 0 }
  else
    { decoder with
      encoded := decoder.encoded.store decoder.encodedSize byte
      encodedSize := decoder.encodedSize + 1 }

def ingest (decoder : CdcMuxStreamDecoder) (context : σ) :
    List UInt8 → Status × CdcMuxStreamDecoder × σ
  | [] => (.success, decoder, context)
  | byte :: bytes =>
    if byte = 0 then
      let (status, decoder, context) := finishPacket config callback decoder context
      if !status.isOk then (status, decoder, context) else ingest decoder context bytes
    else ingest (decoder.takeByte byte) context bytes

/-- Chunk after chunk, until one is refused. -/
def ingestChunks (decoder : CdcMuxStreamDecoder) (context : σ) :
    List (List UInt8) → Status × CdcMuxStreamDecoder × σ
  | [] => (.success, decoder, context)
  | chunk :: chunks =>
    let (status, decoder, context) := ingest config callback decoder context chunk
    if !status.isOk then (status, decoder, context) else ingestChunks decoder context chunks

end CdcMuxStreamDecoder

end WaveformGenerator.Dd008
