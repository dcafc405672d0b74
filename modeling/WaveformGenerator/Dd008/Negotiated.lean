import WaveformGenerator.Dd008.SessionFrames

/-!
# The negotiated payload size

Whatever a peer puts on the wire and whatever the callbacks answer, an established session has
negotiated a size that is not zero and is within both ends' limits.
-/

namespace WaveformGenerator.Dd008

variable (config : CdcMuxConfig) {σ : Type u} (callbacks : CdcMuxCallbacks σ)

/-! ## What a session may be in -/

/-- The payload size that the peer's last frame of a type with sequence 0 gives. -/
def offered (type : CdcMuxFrameType) (packet : CdcMuxDecodedPacket) (limit : UInt16) : UInt16 :=
  if packet.valid ∧ packet.frame.type = type ∧ packet.frame.sequence = 0 then
    readU16 packet.frame.payload 2
  else limit

namespace CdcMuxHostSession

/-- The states a host session reaches: its callers call as they like, its peer sends what it likes.
The size is the one the last HELLO_ACK gave. -/
inductive Reached : UInt16 → CdcMuxHostSession → σ → Prop
  | initial (isInitialized : Bool) (s : σ) : Reached 0 { initialized := isInitialized } s
  | beginHandshake {limit session s} (decoder : CdcMuxStreamDecoder) : Reached limit session s →
    Reached limit (beginHandshake config callbacks decoder session s).2.2.1
      (beginHandshake config callbacks decoder session s).2.2.2
  | packet {limit session s} (packet : CdcMuxDecodedPacket) (decoder : CdcMuxStreamDecoder) :
    Reached limit session s →
    Reached (offered .helloAck packet limit)
      (handlePacket config callbacks packet decoder (session, s)).2.2.1
      (handlePacket config callbacks packet decoder (session, s)).2.2.2
  | openChannel {limit session s} (channel : CdcMuxChannel) : Reached limit session s →
    Reached limit (openChannel config callbacks session s channel).2.1
      (openChannel config callbacks session s channel).2.2
  | closeChannel {limit session s} (channel : CdcMuxChannel) : Reached limit session s →
    Reached limit (closeChannel config callbacks session s channel).2.1
      (closeChannel config callbacks session s channel).2.2
  | sendStream {limit session s} (channel : CdcMuxChannel) (bytes : List UInt8) :
    Reached limit session s →
    Reached limit (sendStream config callbacks session s channel bytes).2.1
      (sendStream config callbacks session s channel bytes).2.2
  | reset {limit session s} (decoder : CdcMuxStreamDecoder) : Reached limit session s →
    Reached limit (reset callbacks decoder session s).2.1 (reset callbacks decoder session s).2.2

end CdcMuxHostSession

namespace CdcMuxDeviceSession

/-- `reset`, but for the decoder. -/
def reset (session : CdcMuxDeviceSession) (s : σ) : CdcMuxDeviceSession × σ :=
  abandonSession callbacks session s

/-- The states a device session reaches. The size is the one the last HELLO gave. -/
inductive Reached : UInt16 → CdcMuxDeviceSession → σ → Prop
  | initial (isInitialized : Bool) (s : σ) : Reached 0 { initialized := isInitialized } s
  | packet {limit session s} (packet : CdcMuxDecodedPacket) : Reached limit session s →
    Reached (offered .hello packet limit) (handlePacket config callbacks packet session s).2.1
      (handlePacket config callbacks packet session s).2.2
  | sendStream {limit session s} (channel : CdcMuxChannel) (bytes : List UInt8) :
    Reached limit session s →
    Reached limit (sendStream config callbacks session s channel bytes).2.1
      (sendStream config callbacks session s channel bytes).2.2
  | reset {limit session s} : Reached limit session s →
    Reached limit (reset callbacks session s).1 (reset callbacks session s).2

end CdcMuxDeviceSession

section
variable {config callbacks}

/-- What holds of a context before it holds after, when it does over each packet. -/
theorem CdcMuxStreamDecoder.ingest_keeps {callback : CdcMuxPacketCallback σ} {holds : σ → Prop}
    (hpacket : ∀ packet decoder context, holds context →
      holds (callback packet decoder context).2.2)
    (decoder : CdcMuxStreamDecoder) {context : σ} (h : holds context) (bytes : List UInt8) :
    holds (decoder.ingest config callback context bytes).2.2 := by
  have hfinish : ∀ decoder context, holds context →
      holds (finishPacket config callback decoder context).2.2 := by
    intro decoder context h
    unfold finishPacket
    split
    · exact hpacket _ _ _ h
    · split
      · exact h
      · dsimp only
        split <;> exact hpacket _ _ _ h
  induction bytes generalizing decoder context with
  | nil => exact h
  | cons byte bytes ih =>
    rw [ingest]
    split
    · dsimp only
      split
      · exact hfinish _ _ h
      · exact ih _ (hfinish _ _ h)
    · exact ih _ h

/-- Bytes from the wire take a host session through reached states. -/
theorem CdcMuxHostSession.Reached.ingestWire {limit : UInt16} {session : CdcMuxHostSession} {s : σ}
    (h : Reached config callbacks limit session s) (decoder : CdcMuxStreamDecoder)
    (bytes : List UInt8) :
    ∃ limit', Reached config callbacks limit'
      (CdcMuxHostSession.ingestWire config callbacks decoder session s bytes).2.2.1
      (CdcMuxHostSession.ingestWire config callbacks decoder session s bytes).2.2.2 := by
  have hkeeps := @CdcMuxStreamDecoder.ingest_keeps config (CdcMuxHostSession × σ)
    (handlePacket config callbacks)
    (fun context => ∃ limit, Reached config callbacks limit context.1 context.2)
    (fun packet decoder _ ⟨_, h⟩ => ⟨_, h.packet packet decoder⟩) decoder (session, s) ⟨limit, h⟩
  exact hkeeps bytes

theorem CdcMuxDeviceSession.Reached.ingestWire {limit : UInt16} {session : CdcMuxDeviceSession}
    {s : σ} (h : Reached config callbacks limit session s) (decoder : CdcMuxStreamDecoder)
    (bytes : List UInt8) :
    ∃ limit', Reached config callbacks limit'
      (CdcMuxDeviceSession.ingestWire config callbacks decoder session s bytes).2.2.1
      (CdcMuxDeviceSession.ingestWire config callbacks decoder session s bytes).2.2.2 := by
  have hkeeps := @CdcMuxStreamDecoder.ingest_keeps config (CdcMuxDeviceSession × σ)
    (receivePacket config callbacks)
    (fun context => ∃ limit, Reached config callbacks limit context.1 context.2)
    (fun packet _ _ ⟨_, h⟩ => ⟨_, h.packet packet⟩) decoder (session, s) ⟨limit, h⟩
  exact hkeeps bytes

/-! ## The negotiated size -/

/-- A session within the limits of both ends. -/
structure CdcMuxSession.Within (config : CdcMuxConfig) (limit : UInt16) (session : CdcMuxSession) :
    Prop where
  applied : session.Applied
  positive : session.established → 0 < session.negotiatedPayloadSize.toNat
  own : session.established → session.negotiatedPayloadSize.toNat ≤ config.maximumPayloadSize
  peer : session.established → session.negotiatedPayloadSize.toNat ≤ limit.toNat

namespace CdcMuxSession

variable {limit : UInt16} {session : CdcMuxSession}

theorem within_of_not_established (happlied : session.Applied)
    (h : session.established = false) (limit : UInt16) : session.Within config limit where
  applied := happlied
  positive hestablished := absurd hestablished (by rw [h]; exact Bool.false_ne_true)
  own hestablished := absurd hestablished (by rw [h]; exact Bool.false_ne_true)
  peer hestablished := absurd hestablished (by rw [h]; exact Bool.false_ne_true)

/-- A session that was left is within any limits. -/
theorem Applied.left (h : session.Applied) (config : CdcMuxConfig) (limit : UInt16) :
    Within config limit { session with
      established := false
      negotiatedPayloadSize := 0
      nextTransmitSequence := 1
      expectedReceiveSequence := 1 } :=
  ⟨h, (nomatch ·), (nomatch ·), (nomatch ·)⟩

theorem Within.setChannel (h : session.Within config limit) {channel : CdcMuxChannel}
    (hchannel : applicationChannel channel) (isOpen : Bool) :
    (session.setChannel channel isOpen).Within config limit :=
  ⟨h.applied.setChannel hchannel isOpen, h.positive, h.own, h.peer⟩

/-- A sequence number is no part of what is negotiated. -/
theorem Within.sequences (h : session.Within config limit) (next expected : UInt32) :
    Within config limit
      { session with nextTransmitSequence := next, expectedReceiveSequence := expected } :=
  ⟨h.applied, h.positive, h.own, h.peer⟩

/-- Clearing opens no channel. -/
theorem Applied.clearChannels (h : session.Applied) (callbacks : CdcMuxCallbacks σ) (s : σ) :
    (session.clearChannels callbacks s).1.Applied := by
  have hone : ∀ (channel : CdcMuxChannel) (session : CdcMuxSession) (s : σ),
      channel.value.toNat < 5 → session.Applied →
      (session.clearChannel callbacks s channel).1.Applied := by
    intro channel session s hindex h
    unfold clearChannel
    split
    · intro other hother
      rw [channelOpen_setChannel session hindex] at hother
      by_cases hsame : other = channel
      · rw [hsame, Function.update_self] at hother
        exact absurd hother Bool.false_ne_true
      · rw [Function.update_of_ne hsame] at hother
        exact h other hother
    · exact h
  have hall : ∀ (channels : List CdcMuxChannel) (session : CdcMuxSession) (s : σ),
      (∀ channel ∈ channels, channel.value.toNat < 5) → session.Applied →
      (channels.foldl (fun held channel => held.1.clearChannel callbacks held.2 channel)
        (session, s)).1.Applied := by
    intro channels
    induction channels with
    | nil => exact fun session s _ h => h
    | cons channel channels ih =>
      intro session s hindices h
      rw [List.forall_mem_cons] at hindices
      exact ih _ _ hindices.2 (hone channel session s hindices.1 h)
  exact hall [⟨1⟩, ⟨2⟩, ⟨3⟩, ⟨4⟩] session s (by decide) h

/-- Sending moves the sequence number only. -/
theorem sendChunks_keeps (maximum : Nat) (channel : CdcMuxChannel) (session : CdcMuxSession) (s : σ)
    (bytes : List UInt8) : ∃ next, (sendChunks config callbacks maximum channel session s bytes).2.1 =
      { session with nextTransmitSequence := next } := by
  induction session, s, bytes using sendChunks.induct config callbacks maximum channel with
  | case1 session s bytes hend =>
    unfold sendChunks
    rw [dif_pos hend]
    exact ⟨_, rfl⟩
  | case2 session s bytes hend status s' hsent hfailed =>
    unfold sendChunks
    rw [dif_neg hend, hsent]
    dsimp only
    rw [if_pos hfailed]
    exact ⟨_, rfl⟩
  | case3 session s bytes hend status s' hsent hok ih =>
    unfold sendChunks
    rw [dif_neg hend, hsent]
    dsimp only
    rw [if_neg hok]
    obtain ⟨next, hnext⟩ := ih
    exact ⟨next, hnext⟩

end CdcMuxSession

open CdcMuxSession

theorem offered_of_not {type : CdcMuxFrameType} {packet : CdcMuxDecodedPacket}
    (h : ¬(packet.valid ∧ packet.frame.type = type ∧ packet.frame.sequence = 0)) (limit : UInt16) :
    offered type packet limit = limit := if_neg h

namespace CdcMuxHostSession

variable {limit : UInt16} {session : CdcMuxHostSession}

theorem within_reset (session : CdcMuxHostSession) (h : session.Applied) (limit : UInt16)
    (decoder : CdcMuxStreamDecoder) (s : σ) :
    (reset callbacks decoder session s).2.1.Within config limit := by
  have hleft := (h.clearChannels callbacks s).left config limit
  unfold reset
  generalize session.clearChannels callbacks s = cleared at hleft ⊢
  exact hleft

theorem within_beginHandshake (h : session.Within config limit) (decoder : CdcMuxStreamDecoder)
    (s : σ) : (beginHandshake config callbacks decoder session s).2.2.1.Within config limit := by
  have hleft := (h.applied.clearChannels callbacks s).left config limit
  unfold beginHandshake
  split
  · exact h
  · dsimp only
    split
    · exact hleft
    · split
      · exact hleft
      · exact hleft

theorem within_updateChannel (session : CdcMuxHostSession) (h : session.Within config limit)
    (s : σ) {channel : CdcMuxChannel} (hchannel : applicationChannel channel)
    (isOpen : Bool) :
    (updateChannel callbacks session s channel isOpen).2.1.Within config limit := by
  unfold updateChannel
  split
  · exact h
  · exact h.setChannel hchannel _

theorem within_switchChannel (h : session.Within config limit) (s : σ) {channel : CdcMuxChannel}
    (hchannel : applicationChannel channel) (type : CdcMuxFrameType) (isOpen : Bool) :
    (switchChannel config callbacks type isOpen session s channel).2.1.Within config limit := by
  unfold switchChannel
  split
  · exact h
  · dsimp only
    split
    · exact within_updateChannel
        { session with nextTransmitSequence := session.nextTransmitSequence + 1 }
        (h.sequences _ _) _ hchannel isOpen
    · exact h

theorem within_openChannel (h : session.Within config limit) (s : σ) (channel : CdcMuxChannel) :
    (openChannel config callbacks session s channel).2.1.Within config limit := by
  unfold openChannel
  split
  · exact h
  · rename_i hguard
    rw [Bool.or_eq_true, not_or, Bool.not_eq_true', Bool.not_eq_false, Bool.not_eq_true',
      Bool.not_eq_false] at hguard
    exact within_switchChannel h s hguard.2 _ _

theorem within_closeChannel (h : session.Within config limit) (s : σ) (channel : CdcMuxChannel) :
    (closeChannel config callbacks session s channel).2.1.Within config limit := by
  unfold closeChannel
  split
  · exact h
  · rename_i hguard
    rw [Bool.or_eq_true, not_or, Bool.not_eq_true', Bool.not_eq_false, Bool.not_eq_true',
      Bool.not_eq_false] at hguard
    exact within_switchChannel h s hguard.2 _ _

theorem within_sendStream (h : session.Within config limit) (s : σ) (channel : CdcMuxChannel)
    (bytes : List UInt8) :
    (sendStream config callbacks session s channel bytes).2.1.Within config limit := by
  unfold sendStream
  split
  · exact h
  · obtain ⟨next, hnext⟩ := @sendChunks_keeps config σ callbacks
      session.negotiatedPayloadSize.toNat channel session.toCdcMuxSession s bytes
    dsimp only
    rw [hnext]
    exact h.sequences _ _

theorem within_handlePacket (h : session.Within config limit) (packet : CdcMuxDecodedPacket)
    (decoder : CdcMuxStreamDecoder) (s : σ) :
    (handlePacket config callbacks packet decoder (session, s)).2.2.1.Within config
      (offered .helloAck packet limit) := by
  unfold handlePacket
  dsimp only
  by_cases hvalid : packet.valid = true
  · rw [if_neg (by simp [hvalid])]
    split
    · rename_i hack
      obtain ⟨-, htype, hsequence⟩ := hack
      split
      · exact within_reset session h.applied _ decoder s
      · rename_i hgood
        rw [not_or, not_or, not_or, not_or, Nat.not_lt] at hgood
        obtain ⟨-, -, hpositive, hown, -⟩ := hgood
        have hoffered : offered .helloAck packet limit = readU16 packet.frame.payload 2 :=
          if_pos ⟨hvalid, htype, hsequence⟩
        rw [hoffered]
        refine ⟨h.applied, fun _ => ?_, fun _ => hown, fun _ => Nat.le_refl _⟩
        exact Nat.pos_of_ne_zero fun hzero => hpositive (UInt16.toNat_inj.mp hzero)
    · split
      · exact within_reset session h.applied _ decoder s
      · have hsame : ∀ type : CdcMuxFrameType, type ≠ .helloAck → packet.frame.type = type →
            offered .helloAck packet limit = limit := fun type hne htype =>
          offered_of_not (fun hack => hne (htype.symm.trans hack.2.1)) limit
        split
        · rename_i htype
          rw [hsame _ (by decide) htype]
          split
          · exact h.sequences _ _
          · exact h.sequences _ _
        · split
          · rename_i htype
            rw [hsame _ (by decide) htype]
            exact h.sequences _ _
          · split
            · exact within_reset
                { session with expectedReceiveSequence := session.expectedReceiveSequence + 1 }
                h.applied _ decoder s
            · exact within_reset
                { session with expectedReceiveSequence := session.expectedReceiveSequence + 1 }
                h.applied _ decoder s
  · rw [if_pos (by simpa using hvalid), offered_of_not (fun hack => hvalid hack.1)]
    exact h

theorem Reached.within {s : σ} (h : Reached config callbacks limit session s) :
    session.Within config limit := by
  induction h with
  | initial isInitialized s =>
    exact within_of_not_established (applied_initial isInitialized) rfl 0
  | beginHandshake decoder _ ih => exact within_beginHandshake ih decoder _
  | packet packet decoder _ ih => exact within_handlePacket ih packet decoder _
  | openChannel channel _ ih => exact within_openChannel ih _ channel
  | closeChannel channel _ ih => exact within_closeChannel ih _ channel
  | sendStream channel bytes _ ih => exact within_sendStream ih _ channel bytes
  | reset decoder _ ih => exact within_reset _ ih.applied _ decoder _

end CdcMuxHostSession

namespace CdcMuxDeviceSession

variable {limit : UInt16}

theorem within_sendError (session : CdcMuxDeviceSession) (h : session.Within config limit) (s : σ)
    (errorCode : UInt16) : (sendError config callbacks session s errorCode).2.1.Within config limit := by
  unfold sendError
  dsimp only
  split
  · exact h.sequences _ _
  · exact h

theorem within_updateChannel (session : CdcMuxDeviceSession) (h : session.Within config limit)
    (s : σ) {channel : CdcMuxChannel} (hchannel : applicationChannel channel) (isOpen : Bool) :
    (updateChannel config callbacks session s channel isOpen).2.1.Within config limit := by
  unfold updateChannel
  split
  · exact within_sendError session h s _
  · split
    · exact h
    · exact h.setChannel hchannel _

theorem within_abandonSession (session : CdcMuxDeviceSession) (h : session.Applied) (limit : UInt16)
    (s : σ) : (abandonSession callbacks session s).1.Within config limit := by
  have hleft := (h.clearChannels callbacks s).left config limit
  unfold abandonSession
  generalize session.clearChannels callbacks s = cleared at hleft ⊢
  exact hleft

/-- What is negotiated is the smaller of the limits. -/
theorem within_acceptHello (session : CdcMuxDeviceSession) (h : session.Applied) (s : σ)
    (frame : CdcMuxFrameView) :
    (acceptHello config callbacks session s frame).2.1.Within config (readU16 frame.payload 2) := by
  have hleft := @within_abandonSession config σ callbacks session h (readU16 frame.payload 2) s
  have hestablished : (abandonSession callbacks session s).1.established = false := rfl
  unfold acceptHello
  generalize abandonSession callbacks session s = abandoned at hleft hestablished
  obtain ⟨abandoned, s⟩ := abandoned
  dsimp only at hleft hestablished ⊢
  generalize haccepted : (decide (frame.payload.getD 0 0 ≤ cdcMuxProtocolVersion) &&
    decide (cdcMuxProtocolVersion ≤ frame.payload.getD 1 0) &&
    decide (readU16 frame.payload 2 ≠ 0) &&
    decide (readU32 frame.payload 4 &&& cdcMuxMandatoryCapabilities = cdcMuxMandatoryCapabilities)) =
      accepted
  generalize sendFrame config callbacks s _ = sent
  obtain ⟨status, s⟩ := sent
  by_cases hboth : (status.isOk && accepted) = true
  · rw [if_pos hboth]
    rw [Bool.and_eq_true] at hboth
    rw [hboth.2, Bool.and_eq_true, Bool.and_eq_true, decide_eq_true_eq] at haccepted
    have hpositive : readU16 frame.payload 2 ≠ 0 := haccepted.1.2
    have hleast := config.least
    have hmost := config.most
    have hhost : 0 < (readU16 frame.payload 2).toNat :=
      Nat.pos_of_ne_zero fun hzero => hpositive (UInt16.toNat_inj.mp hzero)
    have hsize : (UInt16.ofNat (min (readU16 frame.payload 2).toNat config.maximumPayloadSize)).toNat =
        min (readU16 frame.payload 2).toNat config.maximumPayloadSize :=
      UInt16.toNat_ofNat_of_lt' (Nat.lt_of_le_of_lt (Nat.min_le_right ..)
        (Nat.lt_of_le_of_lt hmost (by decide)))
    refine ⟨hleft.applied, fun _ => ?_, fun _ => ?_, fun _ => ?_⟩ <;>
    · rw [hsize]
      omega
  · rw [if_neg hboth]
    exact ⟨hleft.applied, (absurd · (by simp [hestablished])), (absurd · (by simp [hestablished])),
      (absurd · (by simp [hestablished]))⟩

theorem within_handlePacket (session : CdcMuxDeviceSession) (h : session.Within config limit)
    (packet : CdcMuxDecodedPacket) (s : σ) :
    (handlePacket config callbacks packet session s).2.1.Within config
      (offered .hello packet limit) := by
  unfold handlePacket
  by_cases hvalid : packet.valid = true
  · rw [if_neg (by simp [hvalid])]
    dsimp only
    by_cases hhello : packet.frame.type = .hello ∧ packet.frame.sequence = 0
    · have hoffered : offered .hello packet limit = readU16 packet.frame.payload 2 :=
        if_pos ⟨hvalid, hhello⟩
      rw [if_pos hhello, hoffered]
      exact within_acceptHello session h.applied s packet.frame
    · rw [if_neg hhello, offered_of_not fun hgiven => hhello hgiven.2]
      split
      · exact h
      · split
        · have hsend := @within_sendError config σ callbacks limit session h s errorSequence
          generalize sendError config callbacks session s errorSequence = sent at hsend
          exact within_abandonSession sent.2.1 hsend.applied limit sent.2.2
        · have hnext : Within config limit { session.toCdcMuxSession with
              expectedReceiveSequence := session.expectedReceiveSequence + 1 } := h.sequences _ _
          split
          · split
            · exact within_sendError _ hnext s _
            · rename_i hchannel
              exact within_updateChannel _ hnext s (by simpa using hchannel) true
          · split
            · split
              · exact within_sendError _ hnext s _
              · rename_i hchannel
                exact within_updateChannel _ hnext s (by simpa using hchannel) false
            · split
              · split
                · exact within_sendError _ hnext s _
                · exact hnext
              · split
                · exact within_abandonSession _ hnext.applied limit s
                · split
                  · exact hnext
                  · exact within_sendError _ hnext s _
  · rw [if_pos (by simpa using hvalid), offered_of_not (fun hgiven => hvalid hgiven.1)]
    dsimp only
    split
    · exact within_sendError session h s _
    · exact h

theorem within_sendStream (session : CdcMuxDeviceSession) (h : session.Within config limit) (s : σ)
    (channel : CdcMuxChannel) (bytes : List UInt8) :
    (sendStream config callbacks session s channel bytes).2.1.Within config limit := by
  unfold sendStream
  split
  · exact h
  · obtain ⟨next, hnext⟩ := @sendChunks_keeps config σ callbacks
      session.negotiatedPayloadSize.toNat channel session.toCdcMuxSession s bytes
    dsimp only
    rw [hnext]
    exact h.sequences _ _

theorem Reached.within {session : CdcMuxDeviceSession} {s : σ}
    (h : Reached config callbacks limit session s) : session.Within config limit := by
  induction h with
  | initial isInitialized s =>
    exact within_of_not_established (applied_initial isInitialized) rfl 0
  | packet packet _ ih => exact within_handlePacket _ ih packet _
  | sendStream channel bytes _ ih => exact within_sendStream _ ih _ channel bytes
  | reset _ ih => exact within_abandonSession _ ih.applied _ _

end CdcMuxDeviceSession
end

end WaveformGenerator.Dd008
