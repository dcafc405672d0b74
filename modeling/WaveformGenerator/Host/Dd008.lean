import WaveformGenerator.Lib.Bytes

/-!
# The host's DD-008 codec (`host/dd008.py`)

The host has stuffing loops, a checksum and a stream decoder of its own. Its integers are unbounded,
and a malformed packet is an exception that leaves the decoder as it stands.
-/

namespace WaveformGenerator.Host.Dd008

/-- The exceptions that the codec raises. -/
inductive HostError
  | muxError (message : String)
  | structError (message : String)
  deriving DecidableEq, Repr

def version : Nat := 1
def maxPayload : Nat := 1024
def mandatoryCapabilities : Nat := 3

def hello : Nat := 0x01
def helloAck : Nat := 0x02

def link : Nat := 0x00

/-- `b"M1"`. -/
def magic : List UInt8 := [0x4D, 0x31]

structure Frame where
  frameType : Nat
  channel : Nat
  sequence : Nat
  payload : List UInt8
  deriving DecidableEq, Repr

/-! ## CRC-32C -/

/-- `n & 0xFFFFFFFF` of an integer that may be negative. -/
def low32 (n : Int) : Nat := (n % 2 ^ 32).toNat

def crc32cBit (crc : Nat) : Nat :=
  let mask := low32 (-(crc &&& 1 : Nat))
  low32 ((crc >>> 1) ^^^ (0x82F63B78 &&& mask) : Nat)

def crc32cByte (crc : Nat) (value : UInt8) : Nat := Nat.repeat crc32cBit 8 (crc ^^^ value.toNat)

def crc32c (payload : List UInt8) : Nat := payload.foldl crc32cByte 0xFFFFFFFF ^^^ 0xFFFFFFFF

/-! ## Stuffing -/

/-- `output`, `code_index` and `code` of the loop of `cobs_encode`. -/
structure Stuffing where
  output : List UInt8 := [0]
  codeIndex : Nat := 0
  code : Nat := 1
  deriving DecidableEq, Repr

namespace Stuffing

def setCode (s : Stuffing) : List UInt8 := s.output.set s.codeIndex (.ofNat s.code)

def closeBlock (s : Stuffing) : Stuffing where
  output := s.setCode ++ [0]
  codeIndex := s.setCode.length
  code := 1

def push (s : Stuffing) (value : UInt8) : Stuffing :=
  if value = 0 then s.closeBlock
  else
    let s := { s with output := s.output ++ [value], code := s.code + 1 }
    if s.code = 0xFF then s.closeBlock else s

end Stuffing

def cobsEncode (payload : List UInt8) : List UInt8 :=
  (payload.foldl Stuffing.push {}).setCode

/-- The loop of `cobs_decode` over the packet behind `offset`. -/
def cobsDecodeLoop (output : List UInt8) (packet : List UInt8) : Except HostError (List UInt8) :=
  match packet with
  | [] => .ok output
  | code :: packet =>
    if code = 0 then .error (.muxError "zero code in COBS packet")
    else
      let count := code.toNat - 1
      if packet.length < count then .error (.muxError "truncated COBS packet")
      else
        let output := output ++ packet.take count
        let packet := packet.drop count
        cobsDecodeLoop (if code ≠ 0xFF ∧ packet ≠ [] then output ++ [0] else output) packet
termination_by packet.length
decreasing_by
  simp +zetaDelta only [List.length_drop, List.length_cons]
  omega

def cobsDecode (packet : List UInt8) : Except HostError (List UInt8) := cobsDecodeLoop [] packet

/-! ## Frames -/

/-- `struct.pack` of a field of some bytes, which refuses what does not fit. -/
def pack (width n : Nat) : Except HostError (List UInt8) :=
  if n < 256 ^ width then .ok (le width n) else .error (.structError "argument out of range")

def encodeFrame (frameType channel sequence : Nat) (payload : List UInt8) :
    Except HostError (List UInt8) :=
  if maxPayload < payload.length then
    .error (.muxError "DD-008 payload exceeds 1024 bytes")
  else do
    let header := magic ++ (← pack 1 version) ++ (← pack 1 frameType) ++ (← pack 1 channel) ++
      (← pack 1 0) ++ (← pack 2 payload.length) ++ (← pack 4 sequence)
    let decoded := header ++ payload
    let decoded := decoded ++ (← pack 4 (crc32c decoded))
    return cobsEncode decoded ++ [0]

/-- `decode_frame` of an unstuffed packet. -/
def parseFrame (decoded : List UInt8) : Except HostError Frame :=
  if decoded.length < 16 then .error (.muxError "DD-008 frame is too short")
  else
    let field (offset width : Nat) := ofLe ((decoded.drop offset).take width)
    if decoded.take 2 ≠ magic then .error (.muxError "DD-008 magic mismatch")
    else if field 2 1 ≠ version then
      .error (.muxError ("unsupported DD-008 version " ++ toString (field 2 1)))
    else if field 5 1 ≠ 0 then .error (.muxError "unsupported DD-008 flags")
    else if maxPayload < field 6 2 ∨ decoded.length ≠ 12 + field 6 2 + 4 then
      .error (.muxError "DD-008 length mismatch")
    else if crc32c (decoded.take (decoded.length - 4)) ≠ ofLe (decoded.drop (decoded.length - 4)) then
      .error (.muxError "DD-008 CRC-32C mismatch")
    else
      .ok
        { frameType := field 3 1
          channel := field 4 1
          sequence := field 8 4
          payload := (decoded.take (decoded.length - 4)).drop 12 }

def decodeFrame (packet : List UInt8) : Except HostError Frame := cobsDecode packet >>= parseFrame

/-! ## The stream decoder -/

def maxPacket : Nat := 1045

structure StreamDecoder where
  packet : List UInt8 := []
  discarding : Bool := false
  deriving DecidableEq, Repr

namespace StreamDecoder

/-- The loop of `feed`. An exception leaves the decoder as it stands, and drops the frames. -/
def feedLoop (decoder : StreamDecoder) (frames : List Frame) :
    List UInt8 → Except HostError (List Frame) × StreamDecoder
  | [] => (.ok frames, decoder)
  | value :: payload =>
    if value = 0 then
      if decoder.discarding then feedLoop { packet := [], discarding := false } frames payload
      else if decoder.packet ≠ [] then
        match decodeFrame decoder.packet with
        | .error error => (.error error, decoder)
        | .ok frame => feedLoop { decoder with packet := [] } (frames ++ [frame]) payload
      else feedLoop decoder frames payload
    else if decoder.discarding then feedLoop decoder frames payload
    else if decoder.packet.length = maxPacket then
      feedLoop { packet := [], discarding := true } frames payload
    else feedLoop { decoder with packet := decoder.packet ++ [value] } frames payload

theorem feedLoop_nil (decoder : StreamDecoder) (frames : List Frame) :
    decoder.feedLoop frames [] = (.ok frames, decoder) := by
  rw [feedLoop]

def feed (decoder : StreamDecoder) (payload : List UInt8) :
    Except HostError (List Frame) × StreamDecoder :=
  decoder.feedLoop [] payload

/-- Chunk after chunk, until one raises. -/
def feedChunks (decoder : StreamDecoder) :
    List (List UInt8) → Except HostError (List Frame) × StreamDecoder
  | [] => (.ok [], decoder)
  | chunk :: chunks =>
    match decoder.feed chunk with
    | (.error error, decoder) => (.error error, decoder)
    | (.ok frames, decoder) =>
      match decoder.feedChunks chunks with
      | (.error error, decoder) => (.error error, decoder)
      | (.ok rest, decoder) => (.ok (frames ++ rest), decoder)

end StreamDecoder

/-! ## The handshake of `CdcMuxSerialSession` -/

structure CdcMuxSerialSession where
  decoder : StreamDecoder := {}
  negotiatedPayload : Nat := 0
  deriving DecidableEq, Repr

/-- The chunks that `SerialTransport.poll` makes of the bytes it read. -/
def pollOf (read : List UInt8) : List (List UInt8) := if read = [] then [] else [read]

/-- The polls that are left once the port was found idle, or polled `n` times. -/
def drain : Nat → List (List (List UInt8)) → List (List (List UInt8))
  | 0, polls => polls
  | _ + 1, [] => []
  | n + 1, poll :: polls => if poll = [] then polls else drain n polls

/-- What the session writes for its HELLO: an empty packet and the frame. -/
def helloWire : Except HostError (List UInt8) := do
  let payload := (← pack 1 version) ++ (← pack 1 version) ++ (← pack 2 maxPayload) ++
    (← pack 4 mandatoryCapabilities)
  return 0 :: (← encodeFrame hello link 0 payload)

def isAck (frame : Frame) : Bool :=
  frame.frameType == helloAck && frame.channel == link && frame.sequence == 0

/-- The payload limit of a HELLO_ACK, unless it is malformed or a refusal. -/
def ackLimit (frame : Frame) : Except HostError Nat :=
  if frame.payload.length ≠ 8 then .error (.muxError "malformed DD-008 HELLO_ACK")
  else
    let field (offset width : Nat) := ofLe ((frame.payload.drop offset).take width)
    let maximum := field 2 2
    if field 0 1 ≠ version ∨ field 1 1 ≠ 0 ∨ ¬(0 < maximum ∧ maximum ≤ maxPayload) ∨
        field 4 4 &&& mandatoryCapabilities ≠ mandatoryCapabilities then
      .error (.muxError "device rejected the DD-008 handshake")
    else .ok maximum

namespace CdcMuxSerialSession

/-- The chunks of one poll: how the handshake ends in them, if it does. Frames that are no
HELLO_ACK are passed by; those behind it in its chunk are dropped. -/
def handshakeChunks (session : CdcMuxSerialSession) :
    List (List UInt8) → Option (Except HostError Unit) × CdcMuxSerialSession
  | [] => (none, session)
  | chunk :: chunks =>
    match session.decoder.feed chunk with
    | (.error error, decoder) => (some (.error error), { session with decoder })
    | (.ok frames, decoder) =>
      match frames.find? isAck with
      | none => handshakeChunks { session with decoder } chunks
      | some frame =>
        match ackLimit frame with
        | .error error => (some (.error error), { session with decoder })
        | .ok maximum => (some (.ok ()), { decoder, negotiatedPayload := maximum })

/-- Polls for the HELLO_ACK until the deadline, which comes after the last poll. With the outcome
are the polls that are left. -/
def awaitAck (session : CdcMuxSerialSession) :
    List (List (List UInt8)) →
      Except HostError Unit × CdcMuxSerialSession × List (List (List UInt8))
  | [] => (.error (.muxError "timed out waiting for DD-008 HELLO_ACK"), session, [])
  | poll :: polls =>
    match session.handshakeChunks poll with
    | (none, session) => session.awaitAck polls
    | (some outcome, session) => (outcome, session, polls)

theorem handshakeChunks_pollOf_nil (session : CdcMuxSerialSession) :
    session.handshakeChunks (pollOf []) = (none, session) := by
  rw [pollOf, if_pos rfl, handshakeChunks]

theorem awaitAck_of_none {session mid : CdcMuxSerialSession} {poll : List (List UInt8)}
    (h : session.handshakeChunks poll = (none, mid)) (polls : List (List (List UInt8))) :
    session.awaitAck (poll :: polls) = mid.awaitAck polls := by
  rw [awaitAck, h]

/-- `_handshake`: the bytes it writes, and how it ends. -/
def handshake (session : CdcMuxSerialSession) (polls : List (List (List UInt8))) :
    Except HostError (List UInt8) × Except HostError Unit × CdcMuxSerialSession ×
      List (List (List UInt8)) :=
  (helloWire, session.awaitAck (drain 16 polls))

end CdcMuxSerialSession

end WaveformGenerator.Host.Dd008
