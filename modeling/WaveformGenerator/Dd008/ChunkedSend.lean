import WaveformGenerator.Dd008.Negotiated

/-!
# Sending a stream in chunks

With a size that is not zero the loop of `send_stream` ends, and its transmit sequence counts the
frames that were written when it does, all of them or those before the one that failed.
-/

namespace WaveformGenerator.Dd008

open CdcMuxSession (sendFrame sendChunks)

variable (config : CdcMuxConfig) {σ : Type u} (callbacks : CdcMuxCallbacks σ)

/-- Runs of the loop of `send_stream` that end. With a size of 0 there is none that sends a byte. -/
inductive SendLoop (maximum : Nat) (channel : CdcMuxChannel) :
    CdcMuxSession → σ → List UInt8 → Status × CdcMuxSession × σ → Prop
  | done {session s} : SendLoop maximum channel session s [] (.success, session, s)
  | failed {session s bytes status s'} : bytes ≠ [] →
    sendFrame config callbacks s
      ⟨.streamData, channel, session.nextTransmitSequence, bytes.take maximum⟩ = (status, s') →
    status.isOk = false → SendLoop maximum channel session s bytes (status, session, s')
  | next {session s bytes status s' result} : bytes ≠ [] →
    sendFrame config callbacks s
      ⟨.streamData, channel, session.nextTransmitSequence, bytes.take maximum⟩ = (status, s') →
    status.isOk = true →
    SendLoop maximum channel
      { session with nextTransmitSequence := session.nextTransmitSequence + 1 } s'
      (bytes.drop maximum) result →
    SendLoop maximum channel session s bytes result

/-- Data frames that were written one after another, numbered from a sequence on. -/
inductive Written (channel : CdcMuxChannel) : UInt32 → σ → List (List UInt8) → σ → Prop
  | nil {sequence s} : Written channel sequence s [] s
  | cons {sequence s piece pieces status s' s''} :
    callbacks.wireWriter s (wireOf ⟨.streamData, channel, sequence, piece⟩) = (status, s') →
    status.isOk = true → Written channel (sequence + 1) s' pieces s'' →
    Written channel sequence s (piece :: pieces) s''

/-- What a send has done when it ends: of the pieces of its input the first were written, and are
counted; the next one failed, if there is one. -/
def Sent (maximum : Nat) (channel : CdcMuxChannel) (session : CdcMuxSession) (s : σ)
    (bytes : List UInt8) (result : Status × CdcMuxSession × σ) : Prop :=
  ∃ (written rest : List (List UInt8)) (s' : σ), (written ++ rest).flatten = bytes ∧
    (∀ piece ∈ written ++ rest, piece ≠ [] ∧ piece.length ≤ maximum) ∧
    Written callbacks channel session.nextTransmitSequence s written s' ∧
    result.2.1 = { session with
      nextTransmitSequence := session.nextTransmitSequence + .ofNat written.length } ∧
    match rest with
    | [] => result.1 = .success ∧ result.2.2 = s'
    | piece :: _ => result.1.isOk = false ∧
      callbacks.wireWriter s' (wireOf ⟨.streamData, channel,
        session.nextTransmitSequence + .ofNat written.length, piece⟩) = (result.1, result.2.2)

section
variable {config callbacks} {maximum : Nat} {channel : CdcMuxChannel}

theorem SendLoop.unique {session : CdcMuxSession} {s : σ} {bytes : List UInt8}
    {result other : Status × CdcMuxSession × σ}
    (h : SendLoop config callbacks maximum channel session s bytes result)
    (hother : SendLoop config callbacks maximum channel session s bytes other) : other = result := by
  induction h with
  | done =>
    cases hother with
    | done => rfl
    | failed hne => exact absurd rfl hne
    | next hne => exact absurd rfl hne
  | failed hne hsent hfailed =>
    cases hother with
    | done => exact absurd rfl hne
    | failed _ hsent' => cases hsent.symm.trans hsent'; rfl
    | next _ hsent' hok =>
      cases hsent.symm.trans hsent'
      exact absurd (hok.symm.trans hfailed) (by decide)
  | next hne hsent hok _ ih =>
    cases hother with
    | done => exact absurd rfl hne
    | failed _ hsent' hfailed =>
      cases hsent.symm.trans hsent'
      exact absurd (hok.symm.trans hfailed) (by decide)
    | next _ hsent' _ hrest =>
      cases hsent.symm.trans hsent'
      exact ih hrest

/-- An admitted frame is encoded, so only its writer can fail. -/
theorem sendFrame_of_admits {frame : CdcMuxFrameView} (h : config.Admits frame) (s : σ) :
    sendFrame config callbacks s frame = callbacks.wireWriter s (wireOf frame) := by
  rw [sendFrame, encodeFrame_of_admits h]

theorem add_ofNat_zero (sequence : UInt32) : sequence + .ofNat 0 = sequence :=
  UInt32.add_zero sequence

/-- With a size of at least 1 the loop ends. -/
theorem sendChunks_sent (hpositive : 0 < maximum) (hmaximum : maximum ≤ config.maximumPayloadSize)
    (hchannel : applicationChannel channel) (session : CdcMuxSession) (s : σ)
    (bytes : List UInt8) :
    SendLoop config callbacks maximum channel session s bytes
        (sendChunks config callbacks maximum channel session s bytes) ∧
      Sent callbacks maximum channel session s bytes
        (sendChunks config callbacks maximum channel session s bytes) := by
  induction hlength : bytes.length using Nat.strongRecOn generalizing bytes session s with
  | ind length ih =>
    unfold sendChunks
    by_cases hend : bytes = []
    · subst hend
      rw [dif_pos (.inl rfl)]
      refine ⟨.done, [], [], s, rfl, (fun _ h => nomatch h), .nil, ?_, rfl, rfl⟩
      rw [List.length_nil, add_ofNat_zero]
    · have hpiece : bytes.take maximum ≠ [] ∧ (bytes.take maximum).length ≤ maximum := by
        refine ⟨fun hnil => ?_, List.length_take_le ..⟩
        rcases List.take_eq_nil_iff.mp hnil with hzero | hnil
        · omega
        · exact hend hnil
      have hcarriable : Carriable config (channel, bytes.take maximum) :=
        ⟨hchannel, Nat.le_trans hpiece.2 hmaximum⟩
      have hadmits := admits_streamData hcarriable session.nextTransmitSequence
      have hframe := @sendFrame_of_admits config σ callbacks _ hadmits s
      have hshorter : (bytes.drop maximum).length < length := by
        have := List.length_pos_of_ne_nil hend
        rw [List.length_drop]
        omega
      rw [dif_neg (by simp [hend, Nat.ne_of_gt hpositive])]
      cases hsent : sendFrame config callbacks s
          ⟨.streamData, channel, session.nextTransmitSequence, bytes.take maximum⟩ with
      | mk status s' =>
        dsimp only
        have hwriter := hframe.symm.trans hsent
        by_cases hok : status.isOk = true
        · rw [if_neg (by simp [hok])]
          obtain ⟨hloop, written, rest, last, hflatten, hpieces, hwritten, hsession, hlast⟩ :=
            ih _ hshorter
              { session with nextTransmitSequence := session.nextTransmitSequence + 1 } s'
              (bytes.drop maximum) rfl
          have hcount : session.nextTransmitSequence + .ofNat (bytes.take maximum :: written).length =
              session.nextTransmitSequence + 1 + .ofNat written.length := by
            rw [List.length_cons, UInt32.ofNat_add, UInt32.add_assoc, UInt32.add_comm 1]
            rfl
          refine ⟨.next hend hsent hok hloop, bytes.take maximum :: written, rest, last, ?_, ?_,
            .cons hwriter hok hwritten, ?_, ?_⟩
          · rw [List.cons_append, List.flatten_cons, hflatten, List.take_append_drop]
          · rw [List.cons_append]
            exact List.forall_mem_cons.mpr ⟨hpiece, hpieces⟩
          · rw [hcount]
            exact hsession
          · rw [hcount]
            exact hlast
        · have hfailed := eq_false_of_ne_true hok
          rw [if_pos (by simp [hfailed])]
          -- the pieces behind the one that failed are never looked at
          obtain ⟨-, written, rest, -, hflatten, hpieces, -⟩ := ih _ hshorter session s'
            (bytes.drop maximum) rfl
          have hcount : session.nextTransmitSequence + UInt32.ofNat ([] : List (List UInt8)).length =
              session.nextTransmitSequence := by
            rw [List.length_nil, add_ofNat_zero]
          refine ⟨.failed hend hsent hfailed, [], bytes.take maximum :: (written ++ rest), s, ?_, ?_,
            .nil, ?_, hfailed, ?_⟩
          · rw [List.nil_append, List.flatten_cons, hflatten, List.take_append_drop]
          · exact List.forall_mem_cons.mpr ⟨hpiece, hpieces⟩
          · rw [hcount]
          · rw [hcount]
            exact hwriter

end

/-- A send of a session within its limits ends, has done what `Sent` says, and changes nothing
but the transmit sequence. -/
def SendEnds (session : CdcMuxSession) (s : σ) (channel : CdcMuxChannel) (bytes : List UInt8)
    (result : Status × CdcMuxSession × σ) : Prop :=
  SendLoop config callbacks session.negotiatedPayloadSize.toNat channel session s bytes result ∧
    (∀ other, SendLoop config callbacks session.negotiatedPayloadSize.toNat channel session s bytes
      other → other = result) ∧
    Sent callbacks session.negotiatedPayloadSize.toNat channel session s bytes result

theorem CdcMuxSession.Within.sendEnds {config : CdcMuxConfig} {limit : UInt16}
    {session : CdcMuxSession} (h : session.Within config limit)
    (hestablished : session.established) {channel : CdcMuxChannel}
    (hopen : session.channelOpen channel) (callbacks : CdcMuxCallbacks σ) (s : σ)
    (bytes : List UInt8) :
    SendEnds config callbacks session s channel bytes (sendChunks config callbacks
      session.negotiatedPayloadSize.toNat channel session s bytes) := by
  obtain ⟨hloop, hsent⟩ := @sendChunks_sent config σ callbacks _ channel (h.positive hestablished)
    (h.own hestablished) (h.applied channel hopen) session s bytes
  exact ⟨hloop, fun _ => hloop.unique, hsent⟩

/-- **Chunked sends.** Whatever the peers send and the callbacks answer, an established session has a
size of at least 1 within both ends' limits; so every send ends, its frames are its input in order,
and its transmit sequence has counted the frames that were written. -/
theorem chunkedSend :
    (∀ limit session s, CdcMuxHostSession.Reached config callbacks limit session s →
      (∀ decoder bytes, ∃ limit', CdcMuxHostSession.Reached config callbacks limit'
        (CdcMuxHostSession.ingestWire config callbacks decoder session s bytes).2.2.1
        (CdcMuxHostSession.ingestWire config callbacks decoder session s bytes).2.2.2) ∧
      (session.established → 1 ≤ session.negotiatedPayloadSize.toNat ∧
        session.negotiatedPayloadSize.toNat ≤ config.maximumPayloadSize ∧
        session.negotiatedPayloadSize.toNat ≤ limit.toNat) ∧
      ∀ channel bytes, if session.established ∧ session.channelOpen channel then
        ∃ result, SendEnds config callbacks session.toCdcMuxSession s channel bytes result ∧
          CdcMuxHostSession.sendStream config callbacks session s channel bytes =
            (result.1, { session with toCdcMuxSession := result.2.1 }, result.2.2)
      else CdcMuxHostSession.sendStream config callbacks session s channel bytes =
        (⟨.unavailable, "CDC mux host channel is closed"⟩, session, s)) ∧
    (∀ limit session s, CdcMuxDeviceSession.Reached config callbacks limit session s →
      (∀ decoder bytes, ∃ limit', CdcMuxDeviceSession.Reached config callbacks limit'
        (CdcMuxDeviceSession.ingestWire config callbacks decoder session s bytes).2.2.1
        (CdcMuxDeviceSession.ingestWire config callbacks decoder session s bytes).2.2.2) ∧
      (session.established → 1 ≤ session.negotiatedPayloadSize.toNat ∧
        session.negotiatedPayloadSize.toNat ≤ config.maximumPayloadSize ∧
        session.negotiatedPayloadSize.toNat ≤ limit.toNat) ∧
      ∀ channel bytes, if session.established ∧ session.channelOpen channel then
        ∃ result, SendEnds config callbacks session.toCdcMuxSession s channel bytes result ∧
          CdcMuxDeviceSession.sendStream config callbacks session s channel bytes =
            (result.1, { session with toCdcMuxSession := result.2.1 }, result.2.2)
      else CdcMuxDeviceSession.sendStream config callbacks session s channel bytes =
        (⟨.unavailable, "CDC mux device channel is closed"⟩, session, s)) := by
  refine ⟨fun limit session s h => ⟨h.ingestWire, fun hestablished => ?_, fun channel bytes => ?_⟩,
    fun limit session s h => ⟨h.ingestWire, fun hestablished => ?_, fun channel bytes => ?_⟩⟩
  · exact ⟨h.within.positive hestablished, h.within.own hestablished, h.within.peer hestablished⟩
  · split
    · rename_i hready
      refine ⟨_, h.within.sendEnds hready.1 hready.2 callbacks s bytes, ?_⟩
      rw [CdcMuxHostSession.sendStream, if_neg (by simp [hready])]
    · rename_i hclosed
      rw [CdcMuxHostSession.sendStream, if_pos (by
        rw [not_and_or, Bool.not_eq_true, Bool.not_eq_true] at hclosed
        simpa using hclosed)]
  · exact ⟨h.within.positive hestablished, h.within.own hestablished, h.within.peer hestablished⟩
  · split
    · rename_i hready
      refine ⟨_, h.within.sendEnds hready.1 hready.2 callbacks s bytes, ?_⟩
      rw [CdcMuxDeviceSession.sendStream, if_neg (by simp [hready])]
    · rename_i hclosed
      rw [CdcMuxDeviceSession.sendStream, if_pos (by
        rw [not_and_or, Bool.not_eq_true, Bool.not_eq_true] at hclosed
        simpa using hclosed)]

end WaveformGenerator.Dd008
