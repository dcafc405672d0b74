import WaveformGenerator.Dd008.Frames
import WaveformGenerator.Dd008.SessionPair

/-!
# What sessions write

The frames of the sessions are all admitted, so over a writer that succeeds each goes out as its
wire.
-/

namespace WaveformGenerator.Dd008

variable (config : CdcMuxConfig)

def helloFrame : CdcMuxFrameView :=
  ⟨.hello, .link, 0, CdcMuxHostSession.helloPayload config⟩

/-- The acknowledgement of a host built with the device's payload size. -/
def ackFrame : CdcMuxFrameView :=
  ⟨.helloAck, .link, 0, [cdcMuxProtocolVersion, 0] ++ le16 (.ofNat config.maximumPayloadSize) ++
    le32 cdcMuxMandatoryCapabilities⟩

/-- Data in frames numbered from `sequence` on. -/
def numbered (sequence : UInt32) : List (CdcMuxChannel × List UInt8) → List CdcMuxFrameView
  | [] => []
  | (channel, payload) :: data =>
    ⟨.streamData, channel, sequence, payload⟩ :: numbered (sequence + 1) data

/-- Data that a frame can carry. -/
def Carriable (data : CdcMuxChannel × List UInt8) : Prop :=
  applicationChannel data.1 ∧ data.2.length ≤ config.maximumPayloadSize

variable {config}

theorem eq_of_applicationChannel {channel : CdcMuxChannel} (h : applicationChannel channel) :
    channel = .controlStatus ∨ channel = .binaryData := by
  simpa [applicationChannel] using h

theorem length_le_maximum {n : Nat} (h : n ≤ 256) : n ≤ config.maximumPayloadSize :=
  Nat.le_trans h config.least

theorem toNat_maximumPayloadSize :
    (UInt16.ofNat config.maximumPayloadSize).toNat = config.maximumPayloadSize :=
  UInt16.toNat_ofNat_of_lt' (Nat.lt_of_le_of_lt config.most (by decide))

theorem maximumPayloadSize_ne_zero : UInt16.ofNat config.maximumPayloadSize ≠ 0 := by
  have hleast := config.least
  rw [Ne, ← UInt16.toNat_inj, toNat_maximumPayloadSize, UInt16.toNat_zero]
  omega

theorem admits_helloFrame : config.Admits (helloFrame config) :=
  ⟨rfl, rfl, rfl, length_le_maximum (by decide : 8 ≤ 256)⟩

theorem admits_ackFrame : config.Admits (ackFrame config) :=
  ⟨rfl, rfl, rfl, length_le_maximum (by decide : 8 ≤ 256)⟩

theorem admits_streamData {channel : CdcMuxChannel} {payload : List UInt8}
    (h : Carriable config (channel, payload)) (sequence : UInt32) :
    config.Admits ⟨.streamData, channel, sequence, payload⟩ := by
  obtain ⟨hchannel, hlength⟩ := h
  rcases eq_of_applicationChannel hchannel with rfl | rfl <;> exact ⟨rfl, rfl, rfl, hlength⟩

theorem admits_channelOpen {channel : CdcMuxChannel} (h : applicationChannel channel)
    (sequence : UInt32) : config.Admits ⟨.channelOpen, channel, sequence, []⟩ := by
  rcases eq_of_applicationChannel h with rfl | rfl <;> exact ⟨rfl, rfl, rfl, Nat.zero_le _⟩

theorem admits_channelClose {channel : CdcMuxChannel} (h : applicationChannel channel)
    (sequence : UInt32) : config.Admits ⟨.channelClose, channel, sequence, []⟩ := by
  rcases eq_of_applicationChannel h with rfl | rfl <;> exact ⟨rfl, rfl, rfl, Nat.zero_le _⟩

theorem numbered_append (sequence : UInt32) (a b : List (CdcMuxChannel × List UInt8)) :
    numbered sequence (a ++ b) = numbered sequence a ++ numbered (sequence + .ofNat a.length) b := by
  induction a generalizing sequence with
  | nil => simp [numbered]
  | cons data a ih =>
    have hnext : sequence + UInt32.ofNat (data :: a).length =
        sequence + 1 + UInt32.ofNat a.length := by
      rw [List.length_cons, UInt32.ofNat_add, UInt32.add_assoc, UInt32.add_comm 1]
      rfl
    rw [List.cons_append, numbered, numbered, ih, hnext, List.cons_append]

theorem exists_of_mem_numbered {sequence : UInt32} {data : List (CdcMuxChannel × List UInt8)}
    {frame : CdcMuxFrameView} (h : frame ∈ numbered sequence data) :
    ∃ sent ∈ data, ∃ sequence', frame = ⟨.streamData, sent.1, sequence', sent.2⟩ := by
  induction data generalizing sequence with
  | nil => exact nomatch h
  | cons sent data ih =>
    rcases List.mem_cons.mp h with rfl | h
    · exact ⟨sent, List.mem_cons_self, sequence, rfl⟩
    · obtain ⟨sent', hsent', hframe⟩ := ih h
      exact ⟨sent', List.mem_cons_of_mem _ hsent', hframe⟩

/-- Bytes cut into pieces are the same bytes. -/
theorem bytesOn_pieces (on channel : CdcMuxChannel) (pieces : List (List UInt8)) :
    bytesOn on (pieces.map (channel, ·)) = bytesOn on [(channel, pieces.flatten)] := by
  induction pieces with
  | nil => simp [bytesOn]
  | cons piece pieces ih =>
    have hsplit : bytesOn on [(channel, (piece :: pieces).flatten)] =
        bytesOn on [(channel, piece)] ++ bytesOn on [(channel, pieces.flatten)] := by
      by_cases hon : channel = on <;> simp [bytesOn, hon]
    rw [List.map_cons, ← List.singleton_append, bytesOn_append, ih, hsplit]

/-! ## Channels -/

namespace CdcMuxSession

/-- A channel that is set is open or not as it is set, the others as they were. -/
theorem channelOpen_setChannel (session : CdcMuxSession) {channel : CdcMuxChannel}
    (h : channel.value.toNat < 5) (isOpen : Bool) :
    (session.setChannel channel isOpen).channelOpen =
      Function.update session.channelOpen channel isOpen := by
  funext other
  by_cases hother : other = channel
  · subst hother
    simp [channelOpen, setChannel, h]
  · have hindex : channel.value.toNat ≠ other.value.toNat := by
      intro hsame
      obtain ⟨value⟩ := channel
      obtain ⟨value'⟩ := other
      exact hother (congrArg CdcMuxChannel.mk (UInt8.toNat_inj.mp hsame).symm)
    simp [channelOpen, setChannel, hother, hindex]

/-- A session whose only open channels are for applications. -/
def Applied (session : CdcMuxSession) : Prop :=
  ∀ channel, session.channelOpen channel → applicationChannel channel

theorem lt_of_applicationChannel {channel : CdcMuxChannel} (h : applicationChannel channel) :
    channel.value.toNat < 5 := by
  rcases eq_of_applicationChannel h with rfl | rfl <;> decide

theorem Applied.setChannel {session : CdcMuxSession} (h : session.Applied)
    {channel : CdcMuxChannel} (hchannel : applicationChannel channel) (isOpen : Bool) :
    (session.setChannel channel isOpen).Applied := by
  intro other hother
  rw [channelOpen_setChannel session (lt_of_applicationChannel hchannel)] at hother
  by_cases hsame : other = channel
  · exact hsame ▸ hchannel
  · rw [Function.update_of_ne hsame] at hother
    exact h other hother

/-- What clearing leaves: the other members, the bytes written, the data received. -/
structure Clears (session session' : CdcMuxSession) (r r' : CallRecord) : Prop where
  same : session' = { session with channels := session'.channels }
  written : r'.written = r.written
  received : r'.received = r.received

theorem clearChannel_recording (session : CdcMuxSession) (r : CallRecord) {channel : CdcMuxChannel}
    (h : channel.value.toNat < 5) :
    Clears session (session.clearChannel recording r channel).1 r
        (session.clearChannel recording r channel).2 ∧
      (session.clearChannel recording r channel).1.channelOpen =
        Function.update session.channelOpen channel false := by
  unfold clearChannel
  split
  case isTrue hopen => exact ⟨⟨rfl, rfl, rfl⟩, channelOpen_setChannel session h false⟩
  case isFalse hclosed =>
    refine ⟨⟨rfl, rfl, rfl⟩, (Function.update_eq_self_iff.mpr ?_).symm⟩
    exact ((Bool.not_eq_true _).mp hclosed).symm

theorem Clears.trans {a b c : CdcMuxSession} {r s t : CallRecord} (h : Clears a b r s)
    (h' : Clears b c s t) : Clears a c r t where
  same := by rw [h'.same, h.same]
  written := h'.written.trans h.written
  received := h'.received.trans h.received

theorem Clears.refl (session : CdcMuxSession) (r : CallRecord) : Clears session session r r :=
  ⟨rfl, rfl, rfl⟩

theorem foldl_clearChannel {channels : List CdcMuxChannel}
    (hchannels : ∀ channel ∈ channels, channel.value.toNat < 5) (session : CdcMuxSession)
    (r : CallRecord) :
    ∃ session' r', channels.foldl (fun (session, r) channel =>
        clearChannel recording session r channel) (session, r) = (session', r') ∧
      Clears session session' r r' ∧
      ∀ other, session'.channelOpen other → session.channelOpen other ∧ other ∉ channels := by
  induction channels generalizing session r with
  | nil => exact ⟨session, r, rfl, .refl .., fun other hother => ⟨hother, List.not_mem_nil⟩⟩
  | cons channel channels ih =>
    rw [List.forall_mem_cons] at hchannels
    obtain ⟨hclears, hopen⟩ := clearChannel_recording session r hchannels.1
    obtain ⟨session', r', hfold, hrest, hleft⟩ := ih hchannels.2
      (session.clearChannel recording r channel).1 (session.clearChannel recording r channel).2
    refine ⟨session', r', hfold, hclears.trans hrest, fun other hother => ?_⟩
    obtain ⟨hstill, hnot⟩ := hleft other hother
    rw [hopen] at hstill
    by_cases hsame : other = channel
    · simp [hsame] at hstill
    · rw [Function.update_of_ne hsame] at hstill
      exact ⟨hstill, by simp [hsame, hnot]⟩

/-- Clearing closes every channel. -/
theorem clearChannels_recording {session : CdcMuxSession} (h : session.Applied) (r : CallRecord) :
    ∃ session' r', session.clearChannels recording r = (session', r') ∧
      Clears session session' r r' ∧ session'.channelOpen = fun _ => false := by
  have hindices : ∀ channel ∈ ([⟨1⟩, ⟨2⟩, ⟨3⟩, ⟨4⟩] : List CdcMuxChannel),
      channel.value.toNat < 5 := by decide
  obtain ⟨session', r', hfold, hclears, hleft⟩ := foldl_clearChannel hindices session r
  refine ⟨session', r', hfold, hclears, funext fun other => ?_⟩
  by_contra hother
  obtain ⟨hopen, hnot⟩ := hleft other (by simpa using hother)
  rcases eq_of_applicationChannel (h other hopen) with rfl | rfl
  · exact hnot (by decide)
  · exact hnot (by decide)

/-- An admitted frame goes out as its wire. -/
theorem sendFrame_recording {frame : CdcMuxFrameView} (h : config.Admits frame) (r : CallRecord) :
    sendFrame config recording r frame = (.success, { r with written := r.written ++ wireOf frame }) := by
  rw [sendFrame, encodeFrame_of_admits h]
  rfl

/-- Data goes out in numbered frames, cut to the negotiated size. -/
theorem sendChunks_recording {maximum : Nat} (hpos : 0 < maximum)
    (hmaximum : maximum ≤ config.maximumPayloadSize) {channel : CdcMuxChannel}
    (hchannel : applicationChannel channel) (session : CdcMuxSession) (r : CallRecord)
    (bytes : List UInt8) :
    ∃ pieces : List (List UInt8), pieces.flatten = bytes ∧
      (∀ piece ∈ pieces, piece.length ≤ config.maximumPayloadSize) ∧
      sendChunks config recording maximum channel session r bytes = (.success,
        { session with
          nextTransmitSequence := session.nextTransmitSequence + .ofNat pieces.length },
        { r with
          written := r.written ++
            (numbered session.nextTransmitSequence (pieces.map (channel, ·))).flatMap wireOf }) := by
  induction hlength : bytes.length using Nat.strongRecOn generalizing bytes session r with
  | ind length ih =>
    unfold sendChunks
    by_cases hend : bytes = []
    · refine ⟨[], hend.symm, (fun piece hpiece => nomatch hpiece), ?_⟩
      simp [hend, numbered]
    · have hpiece : (bytes.take maximum).length ≤ config.maximumPayloadSize :=
        Nat.le_trans (List.length_take_le ..) hmaximum
      have hcarriable : Carriable config (channel, bytes.take maximum) := ⟨hchannel, hpiece⟩
      have hadmits := admits_streamData hcarriable session.nextTransmitSequence
      have hshorter : (bytes.drop maximum).length < length := by
        have := List.length_pos_of_ne_nil hend
        rw [List.length_drop]
        omega
      obtain ⟨pieces, hflatten, hpieces, hrest⟩ := ih _ hshorter
        { session with nextTransmitSequence := session.nextTransmitSequence + 1 }
        { r with
          written := r.written ++
            wireOf ⟨.streamData, channel, session.nextTransmitSequence, bytes.take maximum⟩ }
        (bytes.drop maximum) rfl
      refine ⟨bytes.take maximum :: pieces, ?_, List.forall_mem_cons.mpr ⟨hpiece, hpieces⟩, ?_⟩
      · rw [List.flatten_cons, hflatten, List.take_append_drop]
      · rw [dif_neg (by simp [hend, Nat.ne_of_gt hpos]), sendFrame_recording hadmits]
        simp only [Status.isOk_success, Bool.not_true, Bool.false_eq_true, if_false, hrest]
        simp [numbered, UInt32.ofNat_add, UInt32.add_assoc, UInt32.add_comm 1]

end CdcMuxSession

theorem channelOpen_initial (initialized : Bool) :
    CdcMuxSession.channelOpen { initialized } = fun _ => false := by
  funext channel
  by_cases h : channel.value.toNat < 5 <;> simp [CdcMuxSession.channelOpen, h]

theorem applied_initial (initialized : Bool) : CdcMuxSession.Applied { initialized } := by
  intro channel h
  simp [channelOpen_initial] at h

end WaveformGenerator.Dd008
