import WaveformGenerator.Dd008.Frames
import WaveformGenerator.Lib.Delimited

/-!
# The DD-008 stream decoder

What the decoder knows is the packet that is open; what it reports is a function of the packets
that its input closes. Neither depends on how the input was cut.
-/

namespace WaveformGenerator.Dd008

open Delimited

variable (config : CdcMuxConfig)

/-! ## Reports -/

/-- What a packet is reported as, unless it is empty. -/
def report (packet : List UInt8) : CdcMuxDecodedPacket :=
  if config.maximumCobsPacketSize < packet.length then { error := .packetTooLarge }
  else
    match Cobs.decode packet with
    | none => { error := .malformedCobs }
    | some body =>
      if config.maximumDecodedFrameSize < body.length then { error := .malformedCobs }
      else parseFrame config body

/-- The reports of a stream. -/
def reports (stream : List UInt8) : List CdcMuxDecodedPacket :=
  ((closed 0 [] stream).filter (· ≠ [])).map (report config)

/-- The counters after one more packet. -/
def countPacket (statistics : CdcMuxDecoderStatistics) (packet : List UInt8) :
    CdcMuxDecoderStatistics :=
  if packet = [] then { statistics with emptyPackets := statistics.emptyPackets + 1 }
  else if (report config packet).valid then
    { statistics with validFrames := statistics.validFrames + 1 }
  else if config.maximumCobsPacketSize < packet.length then
    { statistics with
      rejectedPackets := statistics.rejectedPackets + 1
      oversizedPackets := statistics.oversizedPackets + 1 }
  else { statistics with rejectedPackets := statistics.rejectedPackets + 1 }

variable {config}

/-- The packet of an admitted frame is reported as the frame. -/
theorem report_packetOf {frame : CdcMuxFrameView} (h : config.Admits frame) :
    report config (packetOf frame) = .accepted frame := by
  rw [report, if_neg (Nat.not_lt.mpr (length_packetOf_le h)), decode_packetOf]
  simp only
  rw [if_neg (Nat.not_lt.mpr (length_decodedFrame_le h)), parseFrame_decodedFrame h]

/-- Nothing that came before an empty open packet matters for what is reported after it. -/
theorem reports_append {before : List UInt8} (h : opened 0 [] before = []) (after : List UInt8) :
    reports config (before ++ after) = reports config before ++ reports config after := by
  rw [reports, closed_append, h, List.filter_append, List.map_append]
  rfl

theorem flatMap_wireOf (frames : List CdcMuxFrameView) :
    frames.flatMap wireOf = (frames.map packetOf).flatMap (· ++ [0]) := by
  rw [List.flatMap_map]
  rfl

theorem opened_flatMap_wireOf (frames : List CdcMuxFrameView) :
    opened 0 [] (frames.flatMap wireOf) = [] := by
  rw [flatMap_wireOf]
  exact opened_flatMap _

theorem closed_flatMap_wireOf (frames : List CdcMuxFrameView) :
    closed 0 [] (frames.flatMap wireOf) = frames.map packetOf := by
  rw [flatMap_wireOf]
  refine closed_flatMap fun body hbody => ?_
  obtain ⟨frame, -, rfl⟩ := List.mem_map.mp hbody
  exact zero_not_mem_packetOf frame

/-- The wire of admitted frames is reported as these. -/
theorem reports_flatMap_wireOf {frames : List CdcMuxFrameView}
    (h : ∀ frame ∈ frames, config.Admits frame) :
    reports config (frames.flatMap wireOf) = frames.map .accepted := by
  have hfilter : (frames.map packetOf).filter (· ≠ []) = frames.map packetOf := by
    refine List.filter_eq_self.mpr fun body hbody => ?_
    obtain ⟨frame, -, rfl⟩ := List.mem_map.mp hbody
    exact decide_eq_true (packetOf_ne_nil frame)
  rw [reports, closed_flatMap_wireOf, hfilter, List.map_map]
  exact List.map_congr_left fun frame hframe => report_packetOf (h frame hframe)

/-! ## The decoder follows the open packet -/

variable (config)

/-- The decoder holds the open packet, or is discarding it since it grew too long. -/
structure Follows (decoder : CdcMuxStreamDecoder) (packet : List UInt8) : Prop where
  encodedSpace : decoder.encoded.size = config.maximumCobsPacketSize
  decodedSpace : decoder.decoded.size = config.maximumDecodedFrameSize
  encodedIn : decoder.encoded.overrun = false
  decodedIn : decoder.decoded.overrun = false
  discards : decoder.discardingOversizedPacket = decide (config.maximumCobsPacketSize < packet.length)
  size : decoder.encodedSize = if config.maximumCobsPacketSize < packet.length then 0 else packet.length
  held : packet.length ≤ config.maximumCobsPacketSize →
    decoder.encoded.bytes.take packet.length = packet

variable {config} {decoder : CdcMuxStreamDecoder} {packet : List UInt8}

theorem follows_initial : Follows config (.initial config) [] where
  encodedSpace := Buffer.size_zeros _
  decodedSpace := Buffer.size_zeros _
  encodedIn := rfl
  decodedIn := rfl
  discards := rfl
  size := rfl
  held _ := rfl

namespace Follows

/-- Between packets there is nothing to reset. -/
theorem reset_eq (h : Follows config decoder []) : decoder.reset = decoder := by
  have hdiscards : decoder.discardingOversizedPacket = false := h.discards
  have hsize : decoder.encodedSize = 0 := h.size
  rw [CdcMuxStreamDecoder.reset, ← hdiscards, ← hsize]

theorem takeByte (h : Follows config decoder packet) (byte : UInt8) :
    Follows config (decoder.takeByte byte) (packet ++ [byte]) ∧
      (decoder.takeByte byte).statistics = decoder.statistics := by
  have hlength : (packet ++ [byte]).length = packet.length + 1 := by simp
  unfold CdcMuxStreamDecoder.takeByte
  by_cases hlong : config.maximumCobsPacketSize < packet.length
  · rw [if_pos (by rw [h.discards, decide_eq_true hlong])]
    refine ⟨{ h with discards := ?_, size := ?_, held := ?_ }, rfl⟩
    · rw [h.discards, hlength, decide_eq_true hlong, decide_eq_true (by omega)]
    · rw [h.size, hlength, if_pos hlong, if_pos (by omega)]
    · rw [hlength]
      omega
  · have hsize : decoder.encodedSize = packet.length := by rw [h.size, if_neg hlong]
    rw [if_neg (by rw [h.discards, decide_eq_false hlong]; simp), h.encodedSpace, hsize]
    by_cases hfull : packet.length = config.maximumCobsPacketSize
    · rw [if_pos hfull]
      refine ⟨{ h with discards := ?_, size := ?_, held := ?_ }, rfl⟩
      · rw [hlength, decide_eq_true (by omega)]
      · rw [hlength, if_pos (by omega)]
      · rw [hlength]
        omega
    · rw [if_neg hfull]
      have hplace : packet.length < decoder.encoded.size := by rw [h.encodedSpace]; omega
      refine ⟨{ h with encodedSpace := ?_, encodedIn := ?_, discards := ?_, size := ?_, held := ?_ }, rfl⟩
      · rw [Buffer.size_store, h.encodedSpace]
      · rw [Buffer.store_of_lt hplace]
        exact h.encodedIn
      · rw [h.discards, hlength, decide_eq_false hlong, decide_eq_false (by omega)]
      · rw [hlength, if_neg (by omega)]
      · intro _
        rw [hlength, take_store hplace, h.held (by omega)]

variable {σ : Type u} {callback : CdcMuxPacketCallback σ}

/-- An empty packet is counted and not reported. -/
theorem finishPacket_nil (h : Follows config decoder []) (context : σ) :
    decoder.finishPacket config callback context = (.success, decoder.countEmpty, context) := by
  have hdiscards : decoder.discardingOversizedPacket = false := h.discards
  have hsize : decoder.encodedSize = 0 := h.size
  rw [CdcMuxStreamDecoder.finishPacket, hdiscards, if_neg Bool.false_ne_true, if_pos hsize]

/-- The decoder once a packet is closed: nothing is open, and the packet is counted. -/
theorem finishPacket (h : Follows config decoder packet) (hpacket : packet ≠ []) (context : σ) :
    ∃ decoder', Follows config decoder' [] ∧
      decoder'.statistics = countPacket config decoder.statistics packet ∧
      decoder.finishPacket config callback context =
        callback (report config packet) decoder' context := by
  unfold CdcMuxStreamDecoder.finishPacket
  by_cases hlong : config.maximumCobsPacketSize < packet.length
  · rw [if_pos (by rw [h.discards, decide_eq_true hlong])]
    have hreport : report config packet = { error := .packetTooLarge } := if_pos hlong
    have hvalid : (report config packet).valid = false := by rw [hreport]; rfl
    refine ⟨CdcMuxStreamDecoder.countOversized <| CdcMuxStreamDecoder.countRejected
        { decoder with discardingOversizedPacket := false, encodedSize := 0 },
      { h with discards := rfl, size := rfl, held := fun _ => rfl }, ?_, by rw [hreport]⟩
    rw [countPacket, if_neg hpacket, hvalid, if_neg Bool.false_ne_true, if_pos hlong]
    rfl
  · have hsize : decoder.encodedSize = packet.length := by rw [h.size, if_neg hlong]
    rw [if_neg (by rw [h.discards, decide_eq_false hlong]; simp), hsize,
      if_neg (by simpa using hpacket), h.held (Nat.not_lt.mp hlong)]
    have hloads := cobsDecode_loads packet h.decodedIn
    rw [countPacket, if_neg hpacket, if_neg hlong]
    generalize cobsDecode packet decoder.decoded = outcome at hloads ⊢
    rcases outcome with ⟨status | size, decoded⟩
    · obtain ⟨hspace, hin, hbody⟩ := hloads
      have hreport : report config packet = { error := .malformedCobs } := by
        rw [report, if_neg hlong]
        cases hdecode : Cobs.decode packet with
        | none => rfl
        | some body =>
          have hbig := hbody body hdecode
          rw [h.decodedSpace, Nat.zero_add] at hbig
          exact if_pos hbig
      have hvalid : (report config packet).valid = false := by rw [hreport]; rfl
      refine ⟨CdcMuxStreamDecoder.countRejected { decoder with decoded, encodedSize := 0 },
        { h with
          decodedSpace := hspace.trans h.decodedSpace
          decodedIn := hin
          discards := by simp [CdcMuxStreamDecoder.countRejected, h.discards, hlong]
          size := rfl
          held := fun _ => rfl }, ?_, by rw [hreport]⟩
      rw [hvalid, if_neg Bool.false_ne_true]
      rfl
    · obtain ⟨hspace, hin, hle, body, hbody, hlength, hbytes⟩ := hloads
      rw [h.decodedSpace] at hle
      rw [Nat.zero_add] at hlength
      rw [List.take_zero, List.nil_append] at hbytes
      have hreport : report config packet = parseFrame config (decoded.bytes.take size) := by
        rw [report, if_neg hlong, hbody, hbytes]
        exact if_neg (by omega)
      have hfollows : Follows config { decoder with decoded, encodedSize := 0 } [] :=
        { h with
          decodedSpace := hspace.trans h.decodedSpace
          decodedIn := hin
          discards := by simp [h.discards, hlong]
          size := rfl
          held := fun _ => rfl }
      refine ⟨if (report config packet).valid then
          CdcMuxStreamDecoder.countValid { decoder with decoded, encodedSize := 0 }
        else CdcMuxStreamDecoder.countRejected { decoder with decoded, encodedSize := 0 },
        ?_, ?_, by rw [hreport]⟩
      · split
        · exact { hfollows with }
        · exact { hfollows with }
      · split <;> rfl

end Follows

/-! ## What a stream does to the decoder -/

variable {σ : Type u}

/-- A callback that does its work and succeeds. -/
def succeeding (handle : CdcMuxDecodedPacket → σ → σ) : CdcMuxPacketCallback σ :=
  fun packet decoder context => (.success, decoder, handle packet context)

namespace CdcMuxStreamDecoder

variable {callback : CdcMuxPacketCallback σ}

theorem ingest_empty (callback : CdcMuxPacketCallback σ) (h : Follows config decoder []) (context : σ)
    (rest : List UInt8) :
    Follows config decoder.countEmpty [] ∧
      decoder.countEmpty.statistics = countPacket config decoder.statistics [] ∧
      decoder.ingest config callback context (0 :: rest) =
        decoder.countEmpty.ingest config callback context rest := by
  refine ⟨{ h with }, rfl, ?_⟩
  rw [ingest, if_pos rfl, h.finishPacket_nil]
  rfl

/-- A delimiter hands the open packet to the callback, which may refuse the rest of the bytes. -/
theorem ingest_packet (callback : CdcMuxPacketCallback σ) (h : Follows config decoder packet) (hpacket : packet ≠ []) (context : σ) :
    ∃ decoder', Follows config decoder' [] ∧
      decoder'.statistics = countPacket config decoder.statistics packet ∧
      ∀ rest, decoder.ingest config callback context (0 :: rest) =
        match callback (report config packet) decoder' context with
        | (status, decoder, context) =>
          if !status.isOk then (status, decoder, context)
          else decoder.ingest config callback context rest := by
  obtain ⟨decoder', hfollows, hstatistics, hfinish⟩ := h.finishPacket hpacket context
  refine ⟨decoder', hfollows, hstatistics, fun rest => ?_⟩
  rw [ingest, if_pos rfl, hfinish]

/-- Bytes are ingested one after the other, until a callback refuses. -/
theorem ingest_cons (decoder : CdcMuxStreamDecoder) (context : σ) (byte : UInt8)
    (bytes : List UInt8) :
    decoder.ingest config callback context (byte :: bytes) =
      match decoder.ingest config callback context [byte] with
      | (status, decoder, context) =>
        if !status.isOk then (status, decoder, context)
        else decoder.ingest config callback context bytes := by
  rw [ingest]
  split
  case isTrue hzero =>
    rw [ingest, if_pos hzero]
    dsimp only
    split <;> rfl
  case isFalse hbyte =>
    rw [ingest, if_neg hbyte]
    rfl

variable (config callback) in
/-- What one byte does behind an open packet. -/
inductive IngestsByte (packet : List UInt8) (context : σ) :
    UInt8 → Status × CdcMuxStreamDecoder × σ → Prop
  | more {byte : UInt8} {decoder : CdcMuxStreamDecoder} : byte ≠ 0 →
    Follows config decoder (packet ++ [byte]) →
    IngestsByte packet context byte (.success, decoder, context)
  | empty {decoder : CdcMuxStreamDecoder} : packet = [] → Follows config decoder [] →
    IngestsByte packet context 0 (.success, decoder, context)
  | packet {decoder decoder' : CdcMuxStreamDecoder} {status : Status} {context' : σ} :
    packet ≠ [] → Follows config decoder [] →
    callback (report config packet) decoder context = (status, decoder', context') →
    IngestsByte packet context 0 (if status.isOk then .success else status, decoder', context')

theorem ingestsByte (callback : CdcMuxPacketCallback σ) (h : Follows config decoder packet)
    (context : σ) (byte : UInt8) :
    IngestsByte config callback packet context byte
      (decoder.ingest config callback context [byte]) := by
  by_cases hbyte : byte = 0
  · subst hbyte
    by_cases hpacket : packet = []
    · subst hpacket
      obtain ⟨hempty, -, hingest⟩ := ingest_empty callback h context []
      rw [hingest]
      exact .empty rfl hempty
    · obtain ⟨closing, hclosing, -, hingest⟩ := ingest_packet callback h hpacket context
      rw [hingest []]
      generalize hcall : callback (report config packet) closing context = outcome
      obtain ⟨status, decoder', context'⟩ := outcome
      have hresult := IngestsByte.packet hpacket hclosing hcall
      cases hok : status.isOk with
      | true => simpa [hok, ingest] using hresult
      | false => simpa [hok] using hresult
  · rw [ingest, if_neg hbyte]
    exact .more hbyte (h.takeByte byte).1

/-- A stream under a succeeding callback: every packet that it closes is counted, and reported
unless it is empty. -/
theorem ingest_succeeding (handle : CdcMuxDecodedPacket → σ → σ) (stream : List UInt8)
    (h : Follows config decoder packet) (context : σ) :
    ∃ decoder', Follows config decoder' (opened 0 packet stream) ∧
      decoder'.statistics =
        (closed 0 packet stream).foldl (countPacket config) decoder.statistics ∧
      decoder.ingest config (succeeding handle) context stream =
        (.success, decoder', (((closed 0 packet stream).filter (· ≠ [])).map
          (report config)).foldl (fun context packet => handle packet context) context) := by
  induction stream generalizing decoder packet context with
  | nil => exact ⟨decoder, h, rfl, rfl⟩
  | cons byte stream ih =>
    by_cases hbyte : byte = 0
    · subst hbyte
      rw [closed_delimiter, opened_delimiter, List.foldl_cons]
      by_cases hpacket : packet = []
      · subst hpacket
        obtain ⟨hempty, hcount, hrest⟩ := ingest_empty (succeeding handle) h context stream
        obtain ⟨decoder', hfollows, hstatistics, hingest⟩ := ih hempty context
        rw [hcount] at hstatistics
        exact ⟨decoder', hfollows, hstatistics, hrest.trans hingest⟩
      · obtain ⟨closing, hclosing, hcount, hrest⟩ :=
          ingest_packet (succeeding handle) h hpacket context
        obtain ⟨decoder', hfollows, hstatistics, hingest⟩ :=
          ih hclosing (handle (report config packet) context)
        rw [hcount] at hstatistics
        refine ⟨decoder', hfollows, hstatistics, (hrest stream).trans ?_⟩
        rw [List.filter_cons_of_pos (by simpa using hpacket)]
        exact hingest
    · obtain ⟨hfollows, hsame⟩ := h.takeByte byte
      obtain ⟨decoder', hfollows, hstatistics, hingest⟩ := ih hfollows context
      rw [hsame] at hstatistics
      rw [closed, opened, if_neg hbyte, if_neg hbyte]
      refine ⟨decoder', hfollows, hstatistics, ?_⟩
      rw [ingest, if_neg hbyte, hingest]

/-- However a stream is cut, the chunks do what the stream does. -/
theorem ingestChunks_succeeding (handle : CdcMuxDecodedPacket → σ → σ) (chunks : List (List UInt8))
    (h : Follows config decoder packet) (context : σ) :
    ∃ decoder', Follows config decoder' (opened 0 packet chunks.flatten) ∧
      decoder'.statistics =
        (closed 0 packet chunks.flatten).foldl (countPacket config) decoder.statistics ∧
      decoder.ingestChunks config (succeeding handle) context chunks =
        (.success, decoder', (((closed 0 packet chunks.flatten).filter (· ≠ [])).map
          (report config)).foldl (fun context packet => handle packet context) context) := by
  induction chunks generalizing decoder packet context with
  | nil => exact ⟨decoder, h, rfl, rfl⟩
  | cons chunk chunks ih =>
    obtain ⟨mid, hmid, hcount, hchunk⟩ := ingest_succeeding handle chunk h context
    obtain ⟨decoder', hfollows, hstatistics, hrest⟩ := ih hmid _
    rw [hcount, ← List.foldl_append, ← closed_append] at hstatistics
    rw [← opened_append] at hfollows
    refine ⟨decoder', hfollows, hstatistics, ?_⟩
    rw [ingestChunks, hchunk]
    refine hrest.trans ?_
    rw [← List.foldl_append, ← List.map_append, ← List.filter_append, ← closed_append,
      ← List.flatten_cons]

end CdcMuxStreamDecoder

/-! ## The counters -/

variable (config)

/-- A packet that is reported and valid. -/
def Accepted (packet : List UInt8) : Prop := packet ≠ [] ∧ (report config packet).valid

/-- A packet that is reported with an error. -/
def Rejected (packet : List UInt8) : Prop := packet ≠ [] ∧ ¬(report config packet).valid

/-- A packet that is longer than the decoder's buffer. -/
def Oversized (packet : List UInt8) : Prop := config.maximumCobsPacketSize < packet.length

instance : DecidablePred (Accepted config) := fun _ => inferInstanceAs (Decidable (_ ∧ _))
instance : DecidablePred (Rejected config) := fun _ => inferInstanceAs (Decidable (_ ∧ _))
instance : DecidablePred (Oversized config) := fun _ => inferInstanceAs (Decidable (_ < _))

/-- The counters that some packets come to, modulo `2 ^ 32` as they are. -/
def statisticsOf (packets : List (List UInt8)) : CdcMuxDecoderStatistics where
  validFrames := .ofNat (packets.countP (Accepted config))
  emptyPackets := .ofNat (packets.count [])
  rejectedPackets := .ofNat (packets.countP (Rejected config))
  oversizedPackets := .ofNat (packets.countP (Oversized config))

variable {config}

theorem Oversized.rejected {packet : List UInt8} (h : Oversized config packet) :
    Rejected config packet := by
  refine ⟨fun hnil => ?_, ?_⟩
  · rw [hnil] at h
    exact absurd h (Nat.not_lt_zero _)
  · have hreport : report config packet = { error := .packetTooLarge } := if_pos h
    rw [hreport]
    exact Bool.false_ne_true

theorem countPacket_statisticsOf (packets : List (List UInt8)) (packet : List UInt8) :
    countPacket config (statisticsOf config packets) packet =
      statisticsOf config (packets ++ [packet]) := by
  simp only [statisticsOf, List.countP_append, List.count_append, List.countP_singleton,
    List.count_singleton, countPacket, decide_eq_true_eq, UInt32.ofNat_add]
  by_cases hnil : packet = []
  · subst hnil
    simp [Accepted, Rejected, Oversized]
  · by_cases hvalid : (report config packet).valid = true
    · have hsmall : ¬Oversized config packet := fun h => h.rejected.2 hvalid
      simp [Accepted, Rejected, hnil, hvalid, hsmall]
    · by_cases hbig : Oversized config packet
      · have hlong : config.maximumCobsPacketSize < packet.length := hbig
        simp [Accepted, Rejected, hnil, hvalid, hbig, hlong]
      · have hlong : ¬config.maximumCobsPacketSize < packet.length := hbig
        simp [Accepted, Rejected, hnil, hvalid, hbig, hlong]

theorem foldl_countPacket (before packets : List (List UInt8)) :
    packets.foldl (countPacket config) (statisticsOf config before) =
      statisticsOf config (before ++ packets) := by
  induction packets generalizing before with
  | nil => rw [List.append_nil, List.foldl_nil]
  | cons packet packets ih =>
    rw [List.foldl_cons, countPacket_statisticsOf, ih, List.append_assoc, List.singleton_append]

/-- Every packet is accepted, rejected or empty, and is so once. -/
theorem countP_packets (packets : List (List UInt8)) :
    packets.countP (Accepted config) + packets.countP (Rejected config) + packets.count [] =
      packets.length := by
  induction packets with
  | nil => rfl
  | cons packet packets ih =>
    rw [List.countP_cons, List.countP_cons, List.count_cons, List.length_cons, ← ih]
    by_cases hnil : packet = [] <;> by_cases hvalid : (report config packet).valid = true <;>
      simp [Accepted, Rejected, hnil, hvalid] <;> omega

/-! ## From a decoder as it is built -/

/-- Whatever the stream and however it is cut, a decoder stores within its buffers, reports every
packet that is not empty, and counts every packet once. What follows a delimiter is reported as if
nothing had come before: frames whose wires follow one are delivered. -/
theorem ingestChunks_initial (handle : CdcMuxDecodedPacket → σ → σ) (context : σ)
    (chunks : List (List UInt8)) :
    (∃ decoder, CdcMuxStreamDecoder.ingestChunks config (succeeding handle) (.initial config)
        context chunks = (.success, decoder, (reports config chunks.flatten).foldl
          (fun context packet => handle packet context) context) ∧
      decoder.encoded.overrun = false ∧ decoder.decoded.overrun = false ∧
      decoder.statistics = statisticsOf config (closed 0 [] chunks.flatten)) ∧
    (∀ packets : List (List UInt8), packets.countP (Accepted config) +
      packets.countP (Rejected config) + packets.count [] = packets.length) ∧
    (∀ packet, Oversized config packet → Rejected config packet) ∧
    ∀ (junk after : List UInt8) (frames : List CdcMuxFrameView),
      (∀ frame ∈ frames, config.Admits frame) →
        chunks.flatten = junk ++ 0 :: (frames.flatMap wireOf ++ after) →
          reports config chunks.flatten = reports config (junk ++ [0]) ++
            frames.map .accepted ++ reports config after := by
  refine ⟨?_, countP_packets, fun _ => Oversized.rejected, fun junk after frames hframes hsplit => ?_⟩
  · obtain ⟨decoder, hfollows, hstatistics, hingest⟩ :=
      CdcMuxStreamDecoder.ingestChunks_succeeding handle chunks follows_initial context
    exact ⟨decoder, hingest, hfollows.encodedIn, hfollows.decodedIn,
      hstatistics.trans (foldl_countPacket [] _)⟩
  · rw [hsplit, ← List.singleton_append, ← List.append_assoc,
      reports_append (opened_append_delimiter [] junk),
      reports_append (opened_flatMap_wireOf frames), reports_flatMap_wireOf hframes,
      List.append_assoc]

end WaveformGenerator.Dd008
