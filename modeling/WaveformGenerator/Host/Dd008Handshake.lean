import WaveformGenerator.Host.Dd008Agreement

/-!
# The host's handshake behind stale bytes

Bytes of an earlier session come before the HELLO_ACK. The handshake passes by whole stale frames;
a packet that was cut raises in the decoder, which is outside what it passes by.
-/

namespace WaveformGenerator.Host.Dd008

open Delimited
open WaveformGenerator.Dd008 (CdcMuxConfig CdcMuxFrameView closed_flatMap_wireOf
  opened_flatMap_wireOf packetOf wireOf)

/-! ## Acknowledgements among packets -/

/-- The first HELLO_ACK among packets. -/
def firstAck (packets : List (List UInt8)) : Option Frame :=
  packets.findSome? fun body =>
    match decodeFrame body with
    | .ok frame => if isAck frame then some frame else none
    | .error _ => none

theorem firstAck_append (a b : List (List UInt8)) :
    firstAck (a ++ b) = (firstAck a).or (firstAck b) :=
  List.findSome?_append

theorem Decode.find?_isAck {packets : List (List UInt8)} {frames : List Frame}
    (h : Decode packets frames) : frames.find? isAck = firstAck packets := by
  induction h with
  | nil => rfl
  | cons hframe _ ih =>
    rw [List.find?_cons, ih, firstAck, firstAck, List.findSome?_cons, hframe]
    simp only
    split <;> rename_i hack <;> simp [hack]

/-- Every packet decodes. -/
def WellFormed (packets : List (List UInt8)) : Prop :=
  ∀ body ∈ packets, ∃ frame, decodeFrame body = .ok frame

theorem WellFormed.decode {packets : List (List UInt8)} (h : WellFormed packets) :
    ∃ frames, Decode packets frames := by
  induction packets with
  | nil => exact ⟨[], .nil⟩
  | cons body packets ih =>
    obtain ⟨frame, hframe⟩ := h body List.mem_cons_self
    obtain ⟨frames, hframes⟩ := ih fun body hbody => h body (List.mem_cons_of_mem _ hbody)
    exact ⟨frame :: frames, .cons hframe hframes⟩

theorem exists_malformed {packets : List (List UInt8)} (h : ¬WellFormed packets) :
    ∃ body ∈ packets, ∃ error, decodeFrame body = .error error := by
  simp only [WellFormed, not_forall] at h
  obtain ⟨body, hbody, hnone⟩ := h
  refine ⟨body, hbody, ?_⟩
  cases hdecode : decodeFrame body with
  | error error => exact ⟨error, rfl⟩
  | ok frame => exact absurd ⟨frame, hdecode⟩ hnone

/-! ## One read -/

namespace CdcMuxSerialSession

variable {session : CdcMuxSerialSession} {packet : List UInt8}

/-- Frames without a HELLO_ACK are passed by. -/
theorem handshakeChunks_pass (h : Follows session.decoder packet) {read : List UInt8}
    (hformed : WellFormed (kept packet read)) (hack : firstAck (kept packet read) = none) :
    ∃ decoder, Follows decoder (opened 0 packet read) ∧
      session.handshakeChunks (pollOf read) = (none, { session with decoder }) := by
  by_cases hread : read = []
  · subst hread
    exact ⟨session.decoder, h, session.handshakeChunks_pollOf_nil⟩
  · obtain ⟨frames, hframes⟩ := hformed.decode
    obtain ⟨decoder, hfollows, hfeed⟩ := feedLoop_of_decode h hframes []
    refine ⟨decoder, hfollows, ?_⟩
    rw [pollOf, if_neg hread, handshakeChunks, StreamDecoder.feed, hfeed]
    simp only [List.nil_append, hframes.find?_isAck, hack, handshakeChunks]

/-- The first HELLO_ACK decides. -/
theorem handshakeChunks_ack (h : Follows session.decoder packet) {read : List UInt8}
    (hformed : WellFormed (kept packet read)) {frame : Frame}
    (hack : firstAck (kept packet read) = some frame) :
    ∃ decoder, Follows decoder (opened 0 packet read) ∧
      session.handshakeChunks (pollOf read) =
        match ackLimit frame with
        | .error error => (some (.error error), { session with decoder })
        | .ok maximum => (some (.ok ()), { decoder, negotiatedPayload := maximum }) := by
  have hread : read ≠ [] := by
    rintro rfl
    cases hack
  obtain ⟨frames, hframes⟩ := hformed.decode
  obtain ⟨decoder, hfollows, hfeed⟩ := feedLoop_of_decode h hframes []
  refine ⟨decoder, hfollows, ?_⟩
  rw [pollOf, if_neg hread, handshakeChunks, StreamDecoder.feed, hfeed]
  cases hlimit : ackLimit frame <;>
    simp only [List.nil_append, hframes.find?_isAck, hack, hlimit]

/-- A malformed packet ends the handshake. -/
theorem handshakeChunks_raise (h : Follows session.decoder packet) {read : List UInt8}
    (hformed : ¬WellFormed (kept packet read)) :
    ∃ error session', session.handshakeChunks (pollOf read) = (some (.error error), session') := by
  have hread : read ≠ [] := by
    rintro rfl
    exact hformed fun body hbody => absurd hbody List.not_mem_nil
  obtain ⟨body, hbody, error, herror⟩ := exists_malformed hformed
  obtain ⟨raised, decoder, hfeed⟩ := feedLoop_of_malformed h hbody herror []
  refine ⟨raised, { session with decoder }, ?_⟩
  rw [pollOf, if_neg hread, handshakeChunks, StreamDecoder.feed, hfeed]

/-! ## Read after read -/

/-- Reads without a HELLO_ACK are passed by. -/
theorem awaitAck_pass {early : List (List UInt8)} (h : Follows session.decoder packet)
    (hformed : WellFormed (kept packet early.flatten))
    (hack : firstAck (kept packet early.flatten) = none) :
    ∃ decoder, Follows decoder (opened 0 packet early.flatten) ∧ ∀ polls,
      session.awaitAck (early.map pollOf ++ polls) =
        awaitAck { session with decoder } polls := by
  induction early generalizing session packet with
  | nil => exact ⟨session.decoder, h, fun _ => rfl⟩
  | cons read early ih =>
    rw [List.flatten_cons, kept_append] at hformed hack
    rw [firstAck_append, Option.or_eq_none_iff] at hack
    obtain ⟨mid, hmid, hread⟩ := handshakeChunks_pass h
      (fun body hbody => hformed body (List.mem_append_left _ hbody)) hack.1
    have hsession : Follows (CdcMuxSerialSession.decoder { session with decoder := mid }) _ := hmid
    obtain ⟨decoder, hfollows, hrest⟩ := ih hsession
      (fun body hbody => hformed body (List.mem_append_right _ hbody)) hack.2
    refine ⟨decoder, by rwa [List.flatten_cons, opened_append], fun polls => ?_⟩
    rw [List.map_cons, List.cons_append, awaitAck_of_none hread]
    exact hrest polls

/-- A handshake that ends well leaves fewer polls than there were. -/
theorem length_lt_of_awaitAck {session session' : CdcMuxSerialSession}
    {polls rest : List (List (List UInt8))}
    (h : session.awaitAck polls = (.ok (), session', rest)) : rest.length < polls.length := by
  induction polls generalizing session with
  | nil => cases h
  | cons poll polls ih =>
    rw [awaitAck] at h
    rcases hpoll : session.handshakeChunks poll with ⟨_ | outcome, mid⟩ <;> rw [hpoll] at h
    · exact Nat.lt_succ_of_lt (ih h)
    · cases h
      exact Nat.lt_succ_self _

/-- A handshake that ends well in a read met no malformed packet up to it, no HELLO_ACK before it,
and in it an acceptable one first. -/
theorem of_awaitAck_ok {early later : List (List UInt8)} {read : List UInt8}
    {session' : CdcMuxSerialSession} (h : Follows session.decoder packet)
    (hok : session.awaitAck ((early ++ read :: later).map pollOf) =
      (.ok (), session', later.map pollOf)) :
    WellFormed (kept packet early.flatten) ∧ firstAck (kept packet early.flatten) = none ∧
      WellFormed (kept (opened 0 packet early.flatten) read) ∧
        ∃ frame, firstAck (kept (opened 0 packet early.flatten) read) = some frame ∧
          ackLimit frame = .ok session'.negotiatedPayload := by
  induction early generalizing session packet with
  | nil =>
    rw [List.nil_append, List.map_cons, awaitAck] at hok
    refine ⟨fun body hbody => absurd hbody List.not_mem_nil, rfl, ?_⟩
    change WellFormed (kept packet read) ∧ ∃ frame, firstAck (kept packet read) = some frame ∧ _
    by_cases hformed : WellFormed (kept packet read)
    · refine ⟨hformed, ?_⟩
      cases hack : firstAck (kept packet read) with
      | none =>
        obtain ⟨decoder, -, hread⟩ := handshakeChunks_pass h hformed hack
        rw [hread] at hok
        exact absurd (length_lt_of_awaitAck hok) (Nat.lt_irrefl _)
      | some frame =>
        obtain ⟨decoder, -, hread⟩ := handshakeChunks_ack h hformed hack
        rw [hread] at hok
        cases hlimit : ackLimit frame with
        | error error =>
          rw [hlimit] at hok
          cases hok
        | ok maximum =>
          rw [hlimit] at hok
          cases hok
          exact ⟨frame, rfl, hlimit⟩
    · obtain ⟨error, mid, hread⟩ := handshakeChunks_raise h hformed
      rw [hread] at hok
      cases hok
  | cons first early ih =>
    rw [List.cons_append, List.map_cons, awaitAck] at hok
    rw [List.flatten_cons, kept_append, firstAck_append, opened_append]
    by_cases hformed : WellFormed (kept packet first)
    · cases hack : firstAck (kept packet first) with
      | none =>
        obtain ⟨decoder, hfollows, hread⟩ := handshakeChunks_pass h hformed hack
        rw [hread] at hok
        have hmid : Follows (CdcMuxSerialSession.decoder { session with decoder }) _ := hfollows
        obtain ⟨hrest, hnone, hlast⟩ := ih hmid hok
        refine ⟨fun body hbody => ?_, by rw [Option.none_or, hnone], hlast⟩
        rcases List.mem_append.mp hbody with hbody | hbody
        · exact hformed body hbody
        · exact hrest body hbody
      | some frame =>
        obtain ⟨decoder, -, hread⟩ := handshakeChunks_ack h hformed hack
        rw [hread] at hok
        -- the handshake ended before the read it is said to have ended in
        have hlength : ((early ++ read :: later).map pollOf).length ≠ (later.map pollOf).length := by
          simp only [List.length_map, List.length_append, List.length_cons]
          omega
        cases hlimit : ackLimit frame with
        | error error =>
          rw [hlimit] at hok
          cases hok
        | ok maximum =>
          rw [hlimit] at hok
          simp only [Prod.mk.injEq] at hok
          exact absurd (congrArg List.length hok.2.2) hlength
    · obtain ⟨error, mid, hread⟩ := handshakeChunks_raise h hformed
      rw [hread] at hok
      cases hok

end CdcMuxSerialSession

/-! ## The acknowledgement behind stale bytes -/

/-- The HELLO_ACK by which a device accepts a payload limit. -/
def ackFrame (limit : UInt16) : CdcMuxFrameView where
  type := .helloAck
  channel := .link
  sequence := 0
  payload := [1, 0] ++ le16 limit ++ le32 3

/-- The reads that bring stale bytes, the acknowledgement and the frames of the new session: its
last byte comes in the read of `front` and `back`, and the bytes before the polls of the handshake
were drained. -/
structure Arrives (stale : List UInt8) (limit : UInt16) (frames : List CdcMuxFrameView)
    (early : List (List UInt8)) (front back : List UInt8) (later : List (List UInt8)) : Prop where
  upToAck : stale ++ wireOf (ackFrame limit) = early.flatten ++ front
  ackHere : front ≠ []
  behindAck : back ++ later.flatten = frames.flatMap wireOf

/-- The handshake completes with the acknowledgement and its payload limit, and the frames that end
in later reads are decoded once and in order. -/
def Survives (drained : List (List (List UInt8))) (limit : UInt16) (frames : List CdcMuxFrameView)
    (early : List (List UInt8)) (front back : List UInt8) (later : List (List UInt8)) : Prop :=
  ∃ session, (CdcMuxSerialSession.handshake {}
      (drained ++ (early ++ (front ++ back) :: later).map pollOf)).2 =
        (.ok (), session, later.map pollOf) ∧
    session.negotiatedPayload = limit.toNat ∧
      ∃ decoder, session.decoder.feedChunks later =
        (.ok ((frames.drop (back.count 0)).map .ofView), decoder)

variable {config : CdcMuxConfig} {stale front back : List UInt8} {limit : UInt16}
  {frames : List CdcMuxFrameView} {early later : List (List UInt8)}

theorem admits_ackFrame (config : CdcMuxConfig) (limit : UInt16) : config.Admits (ackFrame limit) :=
  ⟨rfl, rfl, rfl, Nat.le_trans (show 8 ≤ 256 by decide) config.least⟩

theorem decodeFrame_ackFrame (limit : UInt16) :
    decodeFrame (packetOf (ackFrame limit)) = .ok (.ofView (ackFrame limit)) :=
  decodeFrame_packetOf (admits_ackFrame {} limit) (show 8 ≤ maxPayload by decide)

theorem firstAck_ackFrame (limit : UInt16) :
    firstAck [packetOf (ackFrame limit)] = some (.ofView (ackFrame limit)) := by
  rw [firstAck, List.findSome?_cons, decodeFrame_ackFrame]
  rfl

theorem ackLimit_ackFrame (hlimit : 0 < limit.toNat ∧ limit.toNat ≤ maxPayload) :
    ackLimit (.ofView (ackFrame limit)) = .ok limit.toNat := by
  have hmaximum : ofLe (((Frame.ofView (ackFrame limit)).payload.drop 2).take 2) =
      limit.toNat := by
    change ofLe (le16 limit) = _
    rw [le16_eq, ofLe_le limit.toNat_lt]
  have hversion : ofLe (((Frame.ofView (ackFrame limit)).payload.drop 0).take 1) = version := rfl
  have hstatus : ofLe (((Frame.ofView (ackFrame limit)).payload.drop 1).take 1) = 0 := rfl
  have hcapabilities : ofLe (((Frame.ofView (ackFrame limit)).payload.drop 4).take 4) =
      mandatoryCapabilities := rfl
  have hlength : (Frame.ofView (ackFrame limit)).payload.length = 8 := rfl
  rw [ackLimit, if_neg (not_not.mpr hlength)]
  simp only [hmaximum, hversion, hstatus, hcapabilities, Nat.and_self]
  rw [if_neg (by simpa using hlimit)]

namespace Arrives

variable (h : Arrives stale limit frames early front back later)
include h

/-- The packets up to the acknowledgement are the stale ones and its own. -/
theorem kept_eq (hstale : opened 0 [] stale = []) :
    kept [] early.flatten ++ kept (opened 0 [] early.flatten) front =
      kept [] stale ++ [packetOf (ackFrame limit)] := by
  have hsmall : CdcMuxConfig.maximumPayloadSize {} ≤ maxPayload := by decide
  have hadmits : ∀ frame ∈ [ackFrame limit], CdcMuxConfig.Admits {} frame := by
    simp [admits_ackFrame]
  have hack := kept_flatMap_wireOf hsmall hadmits
  rw [← kept_append, ← h.upToAck, kept_append, hstale]
  simpa using hack

/-- With the acknowledgement a packet ends. -/
theorem opened_front : opened 0 (opened 0 [] early.flatten) front = [] := by
  rw [← opened_append, ← h.upToAck, wireOf, ← List.append_assoc, opened_append_delimiter]

theorem closed_behind :
    closed 0 [] back = (frames.take (back.count 0)).map packetOf ∧
      closed 0 (opened 0 [] back) later.flatten = (frames.drop (back.count 0)).map packetOf := by
  have hclosed : closed 0 [] back ++ closed 0 (opened 0 [] back) later.flatten =
      frames.map packetOf := by
    rw [← closed_append, h.behindAck, closed_flatMap_wireOf]
  have hlength : (closed 0 [] back).length = back.count 0 := length_closed [] back
  rw [List.map_take, List.map_drop, ← hclosed]
  exact ⟨(List.take_left' hlength).symm, (List.drop_left' hlength).symm⟩

end Arrives

theorem wellFormed_map_packetOf (hsize : config.maximumPayloadSize ≤ maxPayload)
    (hframes : ∀ frame ∈ frames, config.Admits frame) : WellFormed (frames.map packetOf) := by
  intro body hbody
  obtain ⟨frame, hframe, rfl⟩ := List.mem_map.mp hbody
  exact ⟨_, decodeFrame_packetOf (hframes frame hframe)
    (length_le_of_admits hsize (hframes frame hframe))⟩

/-- A handshake that survives stale bytes met no malformed packet and no HELLO_ACK but one that says
what the awaited one says. -/
theorem clean_of_survives (h : Arrives stale limit frames early front back later)
    (hstale : opened 0 [] stale = []) {drained : List (List (List UInt8))}
    (hdrained : ∀ polls, drain 16 (drained ++ polls) = polls)
    (hsurvives : Survives drained limit frames early front back later) :
    WellFormed (kept [] stale) ∧ firstAck (kept [] early.flatten) = none ∧
      ∀ frame, firstAck (kept (opened 0 [] early.flatten) front) = some frame →
        ackLimit frame = .ok limit.toNat := by
  have hnew : Follows (CdcMuxSerialSession.decoder {}) [] := rfl
  obtain ⟨session, hok, hnegotiated, -⟩ := hsurvives
  rw [CdcMuxSerialSession.handshake, hdrained] at hok
  obtain ⟨hearly, hnone, hread, frame, hack, haccept⟩ :=
    CdcMuxSerialSession.of_awaitAck_ok hnew hok
  rw [kept_append] at hread hack
  refine ⟨fun body hbody => ?_, hnone, fun first hfirst => ?_⟩
  · have hmem := List.mem_append_left [packetOf (ackFrame limit)] hbody
    rw [← h.kept_eq hstale] at hmem
    rcases List.mem_append.mp hmem with hbody | hbody
    · exact hearly body hbody
    · exact hread body (List.mem_append_left _ hbody)
  · rw [firstAck_append, hfirst, Option.some_or, Option.some.injEq] at hack
    rw [hack, haccept, hnegotiated]

/-- Among the packets that end in the read of the acknowledgement, itself at the latest, there is a
HELLO_ACK. -/
theorem Arrives.exists_ack (h : Arrives stale limit frames early front back later)
    (hstale : opened 0 [] stale = []) (hnone : firstAck (kept [] early.flatten) = none) :
    ∃ frame, firstAck (kept (opened 0 [] early.flatten) front) = some frame := by
  have hfirst := congrArg firstAck (h.kept_eq hstale)
  rw [firstAck_append, firstAck_append, hnone, Option.none_or, firstAck_ackFrame] at hfirst
  rw [hfirst]
  cases firstAck (kept [] stale) with
  | none => exact ⟨_, rfl⟩
  | some stale => exact ⟨stale, rfl⟩

theorem survives_of_clean (h : Arrives stale limit frames early front back later)
    (hstale : opened 0 [] stale = []) (hsize : config.maximumPayloadSize ≤ maxPayload)
    (hframes : ∀ frame ∈ frames, config.Admits frame) {drained : List (List (List UInt8))}
    (hdrained : ∀ polls, drain 16 (drained ++ polls) = polls)
    (hformed : WellFormed (kept [] stale)) (hnone : firstAck (kept [] early.flatten) = none)
    (haccept : ∀ frame, firstAck (kept (opened 0 [] early.flatten) front) = some frame →
      ackLimit frame = .ok limit.toNat) :
    Survives drained limit frames early front back later := by
  have hnew : Follows (CdcMuxSerialSession.decoder {}) [] := rfl
  obtain ⟨hback, hlater⟩ := h.closed_behind
  have htake : ∀ frame ∈ frames.take (back.count 0), config.Admits frame :=
    fun frame hframe => hframes frame (List.mem_of_mem_take hframe)
  have hdrop : ∀ frame ∈ frames.drop (back.count 0), config.Admits frame :=
    fun frame hframe => hframes frame (List.mem_of_mem_drop hframe)
  have hreadKept : kept (opened 0 [] early.flatten) (front ++ back) =
      kept (opened 0 [] early.flatten) front ++ kept [] back := by
    rw [kept_append, h.opened_front]
  have hall : WellFormed (kept [] early.flatten ++ kept (opened 0 [] early.flatten) front) := by
    intro body hbody
    rw [h.kept_eq hstale] at hbody
    rcases List.mem_append.mp hbody with hbody | hbody
    · exact hformed body hbody
    · rw [List.mem_singleton.mp hbody]
      exact ⟨_, decodeFrame_ackFrame limit⟩
  have hread : WellFormed (kept (opened 0 [] early.flatten) (front ++ back)) := by
    intro body hbody
    rw [hreadKept] at hbody
    rcases List.mem_append.mp hbody with hbody | hbody
    · exact hall body (List.mem_append_right _ hbody)
    · rw [kept_of_closed hsize htake hback] at hbody
      exact wellFormed_map_packetOf hsize htake body hbody
  obtain ⟨frame, hack⟩ := h.exists_ack hstale hnone
  -- the early reads are passed by, and the next one holds an acceptable HELLO_ACK
  obtain ⟨mid, hmid, hearly⟩ := CdcMuxSerialSession.awaitAck_pass hnew
    (fun body hbody => hall body (List.mem_append_left _ hbody)) hnone
  have hsession : Follows (CdcMuxSerialSession.decoder { decoder := mid }) _ := hmid
  obtain ⟨decoder, hfollows, hchunks⟩ := CdcMuxSerialSession.handshakeChunks_ack hsession hread
    (by rw [hreadKept, firstAck_append, hack, Option.some_or])
  rw [haccept frame hack] at hchunks
  refine ⟨⟨decoder, limit.toNat⟩, ?_, rfl, ?_⟩
  · rw [CdcMuxSerialSession.handshake, hdrained, List.map_append, List.map_cons, hearly,
      CdcMuxSerialSession.awaitAck, hchunks]
  · have hdecoder : Follows decoder (opened 0 [] back) := by
      rwa [opened_append, h.opened_front] at hfollows
    have hdecode := decode_map_packetOf hsize hdrop
    rw [← kept_of_closed hsize hdrop hlater] at hdecode
    obtain ⟨last, -, hfeed⟩ := feedChunks_of_decode hdecoder hdecode
    exact ⟨last, hfeed⟩

/-- The handshake survives stale bytes exactly when each of their packets that is kept decodes, none
in a read before the acknowledgement's is itself a HELLO_ACK, and the first HELLO_ACK in that read
is one that gives the same limit. -/
theorem handshake_survives_iff (h : Arrives stale limit frames early front back later)
    (hstale : opened 0 [] stale = []) (hsize : config.maximumPayloadSize ≤ maxPayload)
    (hframes : ∀ frame ∈ frames, config.Admits frame) {drained : List (List (List UInt8))}
    (hdrained : ∀ polls, drain 16 (drained ++ polls) = polls) :
    Survives drained limit frames early front back later ↔
      WellFormed (kept [] stale) ∧ firstAck (kept [] early.flatten) = none ∧
        ∀ frame, firstAck (kept (opened 0 [] early.flatten) front) = some frame →
          ackLimit frame = .ok limit.toNat :=
  ⟨clean_of_survives h hstale hdrained, fun ⟨hformed, hnone, haccept⟩ =>
    survives_of_clean h hstale hsize hframes hdrained hformed hnone haccept⟩

/-- A device's answer in an earlier session. -/
def staleAnswer : CdcMuxFrameView where
  type := .streamData
  channel := .controlStatus
  sequence := 1
  payload := [79, 75, 10]

/-- A whole stale frame is passed by. -/
theorem handshake_survives_wholeFrame :
    Survives [[]] 256 [] [] (wireOf staleAnswer ++ wireOf (ackFrame 256)) [] [] := by
  have hsmall : CdcMuxConfig.maximumPayloadSize {} ≤ maxPayload := by decide
  have hopened : opened 0 [] (wireOf staleAnswer) = [] := opened_append_delimiter [] _
  have hstale : kept [] (wireOf staleAnswer) = [staleAnswer].map packetOf := by decide +kernel
  have hack : firstAck (kept [] (wireOf staleAnswer ++ wireOf (ackFrame 256))) =
      some (.ofView (ackFrame 256)) := by decide +kernel
  have harrives : Arrives (wireOf staleAnswer) 256 [] []
      (wireOf staleAnswer ++ wireOf (ackFrame 256)) [] [] :=
    ⟨rfl, by decide +kernel, rfl⟩
  refine (handshake_survives_iff harrives hopened hsmall (by simp) fun _ => rfl).mpr
    ⟨?_, rfl, fun frame hframe => ?_⟩
  · rw [hstale]
    exact wellFormed_map_packetOf hsmall (by decide)
  · rw [← Option.some.inj (hack.symm.trans hframe)]
    exact ackLimit_ackFrame (by decide)

/-- The last bytes of an earlier answer, cut behind its header, end the handshake. -/
theorem stale_tail_raises :
    ¬∀ (old frames : List CdcMuxFrameView) (cut : Nat) (limit : UInt16)
      (early later : List (List UInt8)) (front back : List UInt8)
      (drained : List (List (List UInt8))),
      (∀ frame ∈ old ++ frames, CdcMuxConfig.Admits {} frame) →
        0 < limit.toNat ∧ limit.toNat ≤ maxPayload →
          opened 0 [] ((old.flatMap wireOf).drop cut) = [] →
            Arrives ((old.flatMap wireOf).drop cut) limit frames early front back later →
              (∀ polls, drain 16 (drained ++ polls) = polls) →
                Survives drained limit frames early front back later := by
  intro hclaim
  have hsurvives := hclaim [staleAnswer] [] 16 256 [] []
    (([staleAnswer].flatMap wireOf).drop 16 ++ wireOf (ackFrame 256)) [] [[]] (by decide) (by decide)
    (by decide +kernel) ⟨by simp, by decide +kernel, rfl⟩ (fun _ => rfl)
  obtain ⟨session, hok, -⟩ := hsurvives
  have hraises : (match (CdcMuxSerialSession.handshake {} ([[]] ++ ([] ++
      (([staleAnswer].flatMap wireOf).drop 16 ++ wireOf (ackFrame 256) ++ []) :: []).map
        pollOf)).2.1 with
      | .ok _ => true
      | .error _ => false) = false := by decide +kernel
  rw [hok] at hraises
  cases hraises

end WaveformGenerator.Host.Dd008
