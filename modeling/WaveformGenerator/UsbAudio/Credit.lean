import WaveformGenerator.UsbAudio.Queueing

/-!
# What a play is credited with

The play's counts are those of the frames whose completion has come. Its CRCs run ahead: each
record carries them as they will be once its chunk is sent, so a completion only copies them.
-/

namespace WaveformGenerator.UsbAudio

theorem length_framesFor_le (play : Nat) (c : QueuedChunk) : (c.framesFor play).length ≤ 48 := by
  unfold QueuedChunk.framesFor
  split
  · rw [List.length_take, Vector.length_toList]
    exact Nat.min_le_right ..
  · exact Nat.zero_le _

/-- The frames of the current play still queued. -/
def History.pendingFrames (h : History) : List StereoFrame :=
  h.pending.flatMap (QueuedChunk.framesFor h.plays)

/-- The chunks of the current play's frames whose completion has come. -/
def History.credited (h : History) : List QueuedChunk :=
  h.sent.filter fun c => !(c.framesFor h.plays).isEmpty

/-- The stream index of each frame in `sentFrames`. -/
def History.sentIndexes (h : History) : List Nat :=
  h.sent.flatMap fun c => List.range' (48 * c.place) (c.framesFor h.plays).length

theorem History.sentIndexes_eq (h : History) :
    h.sentIndexes =
      h.credited.flatMap fun c => List.range' (48 * c.place) (c.framesFor h.plays).length := by
  unfold sentIndexes credited
  induction h.sent with
  | nil => rfl
  | cons c cs ih =>
    rw [List.flatMap_cons, ih, List.filter_cons]
    split
    · rfl
    · rename_i hframes
      rw [Bool.not_eq_true, Bool.not_eq_false', List.isEmpty_iff] at hframes
      rw [hframes]
      rfl

/-- A credited chunk carries frames of the play. -/
theorem History.length_pos_of_credited {h : History} {c : QueuedChunk} (hc : c ∈ h.credited) :
    0 < (c.framesFor h.plays).length := by
  have hframes := (List.mem_filter.mp hc).2
  rw [Bool.not_eq_true', List.isEmpty_eq_false_iff] at hframes
  exact List.length_pos_iff.mpr hframes

theorem History.head?_sentIndexes (h : History) :
    h.sentIndexes.head? = h.credited.head?.map fun c => 48 * c.place := by
  rw [sentIndexes_eq]
  cases hcredited : h.credited with
  | nil => rfl
  | cons c cs =>
    have hc : c ∈ h.credited := hcredited ▸ List.mem_cons_self ..
    obtain ⟨n, hn⟩ := Nat.exists_eq_add_one.mpr (length_pos_of_credited hc)
    rw [List.flatMap_cons, hn, List.range'_succ]
    rfl

theorem History.getLast?_sentIndexes (h : History) :
    h.sentIndexes.getLast? =
      h.credited.getLast?.map fun c => 48 * c.place + (c.framesFor h.plays).length - 1 := by
  rw [sentIndexes_eq]
  rcases List.eq_nil_or_concat h.credited with hcredited | ⟨cs, c, hcredited⟩
  · rw [hcredited]
    rfl
  · rw [List.concat_eq_append] at hcredited
    have hc : c ∈ h.credited := by simp [hcredited]
    obtain ⟨n, hn⟩ := Nat.exists_eq_add_one.mpr (length_pos_of_credited hc)
    rw [hcredited, List.flatMap_append, List.flatMap_singleton, List.getLast?_concat, hn,
      List.range'_concat, ← List.append_assoc, List.getLast?_concat, Option.map_some, hn,
      Nat.one_mul, Nat.add_succ_sub_one]

theorem length_flatMap_framesFor_le (play : Nat) (cs : List QueuedChunk) :
    (cs.flatMap (QueuedChunk.framesFor play)).length ≤ 48 * cs.length := by
  induction cs with
  | nil => exact Nat.zero_le _
  | cons c cs ih =>
    have hc := length_framesFor_le play c
    rw [List.flatMap_cons, List.length_append, List.length_cons]
    omega

/-- The CRCs of a play's frames, each channel's. -/
def crcsOf (frames : List StereoFrame) : ChannelCrcs := frames.foldl UacStream.addFrame {}

theorem crcsOf_append (a b : List StereoFrame) :
    crcsOf (a ++ b) = b.foldl UacStream.addFrame (crcsOf a) :=
  List.foldl_append

example : (crcsOf [⟨0x100, 0x200⟩]).left ≠ (crcsOf [⟨0x100, 0x200⟩]).right := by decide +kernel

/-- The CRC of a channel is that of its samples' PCM24 bytes. -/
theorem crcsOf_eq (frames : List StereoFrame) :
    (crcsOf frames).left = Crc32.update {} (frames.flatMap fun frame => pcm24Bytes frame.left) ∧
      (crcsOf frames).right =
        Crc32.update {} (frames.flatMap fun frame => pcm24Bytes frame.right) := by
  induction frames using List.reverseRecOn with
  | nil => exact ⟨rfl, rfl⟩
  | append_singleton frames frame ih =>
    rw [crcsOf_append, List.flatMap_append, List.flatMap_append, Crc32.update_append,
      Crc32.update_append, ← ih.1, ← ih.2]
    simp only [List.flatMap_cons, List.flatMap_nil, List.append_nil]
    exact ⟨rfl, rfl⟩

/-- Each record that carries frames carries the CRCs over those up to and with its own. -/
def CrcsFrom (play : Nat) : List StereoFrame → List ChunkRecord → List QueuedChunk → Prop
  | before, r :: rs, c :: cs =>
    (c.framesFor play ≠ [] →
      r.crc32Left = (crcsOf (before ++ c.framesFor play)).left.value ∧
        r.crc32Right = (crcsOf (before ++ c.framesFor play)).right.value) ∧
      CrcsFrom play (before ++ c.framesFor play) rs cs
  | _, [], [] => True
  | _, _, _ => False

theorem CrcsFrom.concat {play : Nat} {before : List StereoFrame} {rs : List ChunkRecord}
    {cs : List QueuedChunk} (h : CrcsFrom play before rs cs) {r : ChunkRecord} {c : QueuedChunk}
    (left : r.crc32Left = (crcsOf (before ++ cs.flatMap (QueuedChunk.framesFor play) ++
      c.framesFor play)).left.value)
    (right : r.crc32Right = (crcsOf (before ++ cs.flatMap (QueuedChunk.framesFor play) ++
      c.framesFor play)).right.value) :
    CrcsFrom play before (rs ++ [r]) (cs ++ [c]) := by
  induction rs generalizing before cs with
  | nil =>
    cases cs with
    | nil =>
      rw [List.flatMap_nil, List.append_nil] at left right
      exact ⟨fun _ => ⟨left, right⟩, trivial⟩
    | cons c' cs => exact absurd h id
  | cons r' rs ih =>
    cases cs with
    | nil => exact absurd h id
    | cons c' cs =>
      rw [List.flatMap_cons, ← List.append_assoc] at left right
      exact ⟨h.1, ih h.2 left right⟩

/-- Without frames of the play there are no CRCs to carry. -/
theorem CrcsFrom.of_none {play : Nat} {before : List StereoFrame} {rs : List ChunkRecord}
    {cs : List QueuedChunk} (length : rs.length = cs.length)
    (none : ∀ c ∈ cs, c.framesFor play = []) : CrcsFrom play before rs cs := by
  induction rs generalizing before cs with
  | nil =>
    cases cs with
    | nil => trivial
    | cons c cs => cases length
  | cons r rs ih =>
    cases cs with
    | nil => cases length
    | cons c cs =>
      rw [List.forall_mem_cons] at none
      exact ⟨fun hne => absurd none.1 hne, ih (by simpa using length) none.2⟩

/-! ## The invariant -/

/-- The stream the play was accepted on is still open. -/
def Ledger.Whole (l : Ledger) (h : History) : Prop :=
  l.state ≠ .closed ∧ h.openings = h.acceptedAt

/-- The play's CRCs and prefix, while the count of openings has not come round since its
acceptance. -/
structure CrcCredit (l : Ledger) (h : History) : Prop where
  armed : l.armed = true → l.Whole h
  left : l.crc32Left = (crcsOf h.sentFrames).left.value
  right : l.crc32Right = (crcsOf h.sentFrames).right.value
  order : h.sentFrames <+: h.taken
  taken : l.Whole h → h.taken = h.sentFrames ++ h.pendingFrames
  queued : l.Whole h → l.queuedCrcs = crcsOf h.taken
  records : l.Whole h → CrcsFrom h.plays h.sentFrames l.records.toList h.pending
  lost : ¬ l.Whole h → ∀ c ∈ h.pending, c.framesFor h.plays = []

structure Credit (l : Ledger) (h : History) : Prop where
  plays_le : ∀ c ∈ h.pending ++ h.sent, c.play ≤ h.plays
  opens : l.opens = .ofNat h.openings
  playOpens : l.playOpens = .ofNat h.acceptedAt
  accepted : h.acceptedAt ≤ h.openings
  rejected : l.rejectedChunks = 0
  fileFrames : l.fileFrames = .ofNat h.sentFrames.length
  pending : l.pendingFrames.toNat = h.pendingFrames.length
  first : h.sentFrames.length < 2 ^ 32 →
    l.firstFrameIndex = (h.credited.head?.map fun c => .ofNat (48 * c.place)).getD 0
  last : l.lastFrameIndex = (h.credited.getLast?.map fun c =>
    .ofNat (48 * c.place + (c.framesFor h.plays).length - 1)).getD 0
  crc : h.openings < h.acceptedAt + 2 ^ 32 → CrcCredit l h

namespace Credit

variable {l : Ledger} {h : History} {fifo : TinyUsbFifo} {loaded : Option (List UInt8)}

/-- A chunk of the play is written. -/
theorem write (p : Credit l h) (q : Queueing l fifo loaded h)
    (chunk : WrittenChunk) (le : chunk.fileFrames.toNat ≤ 48)
    (armed : chunk.fileFrames ≠ 0 → l.armed = true) :
    Credit (l.queueChunk chunk.frames chunk.fileFrames) (h.write chunk) := by
  have hpending : (h.write chunk).pending = h.pending ++ [⟨chunk, h.plays, h.places⟩] := by
    simp [History.write, History.pending]
  have hframes : (⟨chunk, h.plays, h.places⟩ : QueuedChunk).framesFor h.plays =
      chunk.frames.toList.take chunk.fileFrames.toNat := if_pos rfl
  have hlength : (chunk.frames.toList.take chunk.fileFrames.toNat).length =
      chunk.fileFrames.toNat := by
    rw [List.length_take, Vector.length_toList]
    omega
  have hpendingFrames : (h.write chunk).pendingFrames =
      h.pendingFrames ++ chunk.frames.toList.take chunk.fileFrames.toNat := by
    rw [History.pendingFrames, hpending, List.flatMap_append, List.flatMap_singleton]
    exact congrArg _ hframes
  have htaken : (h.write chunk).taken =
      h.taken ++ chunk.frames.toList.take chunk.fileFrames.toNat := congrArg _ hframes
  have hcount : l.records.count < 8 := by
    have := q.length_records
    have := q.length_pending_le
    omega
  refine ⟨?_, p.opens, p.playOpens, p.accepted, p.rejected, p.fileFrames, ?_, p.first, p.last,
    fun hround => ?_⟩
  · rw [hpending]
    intro c hc
    rw [List.mem_append, List.mem_append, List.mem_singleton] at hc
    rcases hc with (hc | rfl) | hc
    · exact p.plays_le c (List.mem_append_left _ hc)
    · exact Nat.le_refl _
    · exact p.plays_le c (List.mem_append_right _ hc)
  · have hbound := length_flatMap_framesFor_le h.plays h.pending
    have hthree := q.length_pending_le
    have hold := p.pending
    rw [hpendingFrames, List.length_append, hlength, ← hold]
    show (l.pendingFrames + chunk.fileFrames).toNat = _
    rw [UInt32.toNat_add]
    rw [History.pendingFrames] at hold
    omega
  · have c := p.crc hround
    refine ⟨c.armed, c.left, c.right, ?_, fun hw => ?_, fun hw => ?_, fun hw => ?_, fun hw => ?_⟩
    · rw [htaken]
      exact c.order.trans (List.prefix_append ..)
    · rw [htaken, hpendingFrames, c.taken hw]
      exact List.append_assoc ..
    · rw [htaken, crcsOf_append, ← c.queued hw]
      rfl
    · have hcrcs : crcsOf (h.sentFrames ++ h.pending.flatMap (QueuedChunk.framesFor h.plays) ++
          (⟨chunk, h.plays, h.places⟩ : QueuedChunk).framesFor h.plays) =
            (chunk.frames.toList.take chunk.fileFrames.toNat).foldl UacStream.addFrame
              l.queuedCrcs := by
        rw [crcsOf_append, hframes, c.queued hw, c.taken hw]
        rfl
      rw [hpending]
      simp only [Ledger.queueChunk, (l.records.push_of_lt _ hcount).2.1]
      exact (c.records hw).concat (by rw [hcrcs]) (by rw [hcrcs])
    · -- Only an armed play takes frames, and it is armed on the stream that accepted it.
      have hnone : chunk.fileFrames = 0 := by
        by_contra hne
        exact hw (c.armed (armed hne))
      rw [hpending]
      intro c' hc'
      rw [List.mem_append, List.mem_singleton] at hc'
      rcases hc' with hc' | rfl
      · exact c.lost hw c' hc'
      · exact hframes.trans (by rw [hnone]; rfl)

/-- A completion without a chunk in flight credits nothing. -/
theorem commit_primer (p : Credit l h) (q : Queueing l fifo loaded h) (hopen : l.state ≠ .closed)
    (hf : h.flying = none) :
    Credit (l.commit (.ofNat (⟨fifo.packets.tail⟩ : TinyUsbFifo).level)) h.load := by
  have hstate : (if l.state = .priming then StreamState.priming else .streaming) ≠ .closed := by
    split <;> nofun
  have hsent : h.load.sent = h.sent := by rw [History.load, hf]; exact List.append_nil _
  have hpending : h.load.pending = h.pending := by
    unfold History.load History.pending
    rw [hf]
    cases h.queue <;> rfl
  have hsentFrames : h.load.sentFrames = h.sentFrames := by
    rw [History.sentFrames, hsent]
    rfl
  have hcredited : h.load.credited = h.credited := by
    rw [History.credited, hsent]
    rfl
  have hpendingFrames : h.load.pendingFrames = h.pendingFrames := by
    rw [History.pendingFrames, hpending]
    rfl
  rw [q.commit_primer hf]
  refine ⟨?_, p.opens, p.playOpens, p.accepted, p.rejected, ?_, ?_, ?_, ?_, fun hround => ?_⟩
  · rw [hpending, hsent]
    exact p.plays_le
  · rw [hsentFrames]
    exact p.fileFrames
  · rw [hpendingFrames]
    exact p.pending
  · rw [hsentFrames, hcredited]
    exact p.first
  · rw [hcredited]
    exact p.last
  · have c := p.crc hround
    refine ⟨fun ha => ⟨hstate, (c.armed ha).2⟩, ?_, ?_, ?_, fun hw => ?_, fun hw => ?_, fun hw => ?_,
      fun hw => ?_⟩
    · rw [hsentFrames]
      exact c.left
    · rw [hsentFrames]
      exact c.right
    · rw [hsentFrames]
      exact c.order
    · rw [hsentFrames, hpendingFrames]
      exact c.taken ⟨hopen, hw.2⟩
    · exact c.queued ⟨hopen, hw.2⟩
    · rw [hsentFrames, hpending]
      exact c.records ⟨hopen, hw.2⟩
    · rw [hpending]
      exact c.lost fun hw' => hw ⟨hstate, hw'.2⟩

/-- What a completion moves: the chunk in flight is sent. -/
structure Completes (h : History) (c : QueuedChunk) : Prop where
  pending : h.pending = c :: h.queue
  left : h.load.pending = h.queue
  sentFrames : h.load.sentFrames = h.sentFrames ++ c.framesFor h.plays
  pendingFrames : h.pendingFrames = c.framesFor h.plays ++ h.load.pendingFrames
  credited : h.load.credited = h.credited ++ if c.framesFor h.plays = [] then [] else [c]
  plays_le : (∀ c' ∈ h.pending ++ h.sent, c'.play ≤ h.plays) →
    ∀ c' ∈ h.load.pending ++ h.load.sent, c'.play ≤ h.load.plays

theorem completes {c : QueuedChunk} (hf : h.flying = some c) : Completes h c := by
  have hpending : h.pending = c :: h.queue := by rw [History.pending, hf]; rfl
  have hleft : h.load.pending = h.queue := by
    unfold History.load History.pending
    cases h.queue <;> rfl
  have hsent : h.load.sent = h.sent ++ [c] := by rw [History.load, hf]; rfl
  refine ⟨hpending, hleft, ?_, ?_, ?_, fun hle c' hc' => ?_⟩
  · rw [History.sentFrames, hsent, List.flatMap_append, List.flatMap_singleton]
    rfl
  · rw [History.pendingFrames, History.pendingFrames, hpending, hleft, List.flatMap_cons]
    rfl
  · have hone : [c].filter (fun c => !(c.framesFor h.plays).isEmpty) =
        if c.framesFor h.plays = [] then [] else [c] := by
      split <;> rename_i hframes <;> simp [hframes]
    rw [History.credited, hsent, List.filter_append]
    exact congrArg _ hone
  · refine hle c' ?_
    rw [hleft, hsent] at hc'
    rw [hpending]
    simp only [List.mem_append, List.mem_cons] at hc' ⊢
    tauto

section

variable {c : QueuedChunk} {r : ChunkRecord} {rest : List ChunkRecord} {inFlight : Bool}
  {framesSent : UInt32}

/-- The chunk sent carries none of the play's frames, and its record says so. -/
theorem credit_other (p : Credit l h) (hopen : l.state ≠ .closed) (hc : Completes h c)
    (hr : l.records.toList = r :: rest) (hrecorded : Recorded h.plays r c)
    (hframes : c.framesFor h.plays = []) :
    Credit (Ledger.credit { l with inFlight, state := .streaming, framesSent } r) h.load := by
  have hzero : r.fileFrames = 0 := by
    have := hrecorded.fileFrames
    rw [hframes] at this
    exact UInt32.toNat_inj.mp this
  have hstreaming : StreamState.streaming ≠ .closed := by decide
  have hsentFrames := hc.sentFrames
  have hpendingFrames := hc.pendingFrames
  have hcredited := hc.credited
  rw [hframes, List.append_nil] at hsentFrames
  rw [hframes, List.nil_append] at hpendingFrames
  rw [if_pos hframes, List.append_nil] at hcredited
  rw [Ledger.credit, if_pos hzero]
  refine ⟨hc.plays_le p.plays_le, p.opens, p.playOpens, p.accepted, p.rejected, ?_, ?_, ?_, ?_,
    fun hround => ?_⟩
  · rw [hsentFrames]
    exact p.fileFrames
  · rw [← hpendingFrames]
    exact p.pending
  · rw [hsentFrames, hcredited]
    exact p.first
  · rw [hcredited]
    exact p.last
  · have k := p.crc hround
    refine ⟨fun ha => ⟨hstreaming, (k.armed ha).2⟩, ?_, ?_, ?_, fun hw => ?_, fun hw => ?_,
      fun hw => ?_, fun hw => ?_⟩
    · rw [hsentFrames]
      exact k.left
    · rw [hsentFrames]
      exact k.right
    · rw [hsentFrames]
      exact k.order
    · rw [hsentFrames, ← hpendingFrames]
      exact k.taken ⟨hopen, hw.2⟩
    · exact k.queued ⟨hopen, hw.2⟩
    · have hold := k.records ⟨hopen, hw.2⟩
      rw [hr, hc.pending] at hold
      have hnext := hold.2
      rw [hframes, List.append_nil] at hnext
      simp only [ChunkRecords.toList_pop, hr, List.tail_cons]
      rw [hsentFrames, hc.left]
      exact hnext
    · rw [hc.left]
      intro c' hc'
      exact k.lost (fun hw' => hw ⟨hstreaming, hw'.2⟩) c'
        (hc.pending ▸ List.mem_cons_of_mem _ hc')

/-- Nothing is credited yet just while the count of file frames is 0. -/
theorem fileFrames_eq_zero_iff (p : Credit l h) (hfew : h.sentFrames.length < 2 ^ 32) :
    l.fileFrames = 0 ↔ h.credited = [] := by
  rw [p.fileFrames, ← UInt32.toNat_inj, toNat_ofNat32 hfew]
  show h.sentFrames.length = 0 ↔ _
  rw [List.length_eq_zero_iff, History.sentFrames, List.flatMap_eq_nil_iff, History.credited,
    List.filter_eq_nil_iff]
  simp

/-- The chunk sent carries frames of the play: they are credited. -/
theorem credit_own (p : Credit l h) (hc : Completes h c) (hr : l.records.toList = r :: rest)
    (hrecorded : Recorded h.plays r c) (hframes : c.framesFor h.plays ≠ []) :
    Credit (Ledger.credit { l with inFlight, state := .streaming, framesSent } r) h.load := by
  have hlength := hrecorded.fileFrames
  have hpos : 0 < (c.framesFor h.plays).length := List.length_pos_iff.mpr hframes
  have hne : ¬ r.fileFrames = 0 := fun h0 => by
    rw [h0] at hlength
    exact absurd hlength.symm (Nat.ne_of_gt hpos)
  have hfile : r.fileFrames = .ofNat (c.framesFor h.plays).length := by
    rw [← hlength, UInt32.ofNat_toNat]
  have hstreaming : StreamState.streaming ≠ .closed := by decide
  have hsentFrames := hc.sentFrames
  have hpendingFrames := hc.pendingFrames
  have hcredited := hc.credited
  rw [if_neg hframes] at hcredited
  have hcount := p.pending
  rw [hpendingFrames, List.length_append] at hcount
  have hmin : min l.pendingFrames r.fileFrames = r.fileFrames := by
    rw [← UInt32.toNat_inj, toNat_min32]
    omega
  rw [Ledger.credit, if_neg hne]
  refine ⟨hc.plays_le p.plays_le, p.opens, p.playOpens, p.accepted, p.rejected, ?_, ?_,
    fun hfew => ?_, ?_, fun hround => ?_⟩
  · rw [hsentFrames, List.length_append, UInt32.ofNat_add, ← p.fileFrames, ← hfile]
  · show (l.pendingFrames - min l.pendingFrames r.fileFrames).toNat = _
    rw [hmin, UInt32.toNat_sub_of_le _ _ (UInt32.le_iff_toNat_le.mpr (by omega))]
    omega
  · rw [hsentFrames, List.length_append] at hfew
    have hzero := p.fileFrames_eq_zero_iff (by omega)
    rw [hcredited]
    dsimp only
    split
    · rename_i h0
      rw [hzero.mp h0]
      exact hrecorded.start
    · rename_i h0
      rw [p.first (by omega)]
      cases hcs : h.credited with
      | nil => exact absurd (hzero.mpr hcs) h0
      | cons c' cs => rfl
  · rw [hcredited, List.getLast?_concat]
    show r.start + r.fileFrames - 1 = UInt32.ofNat _
    have hone : UInt32.ofNat (48 * c.place + (c.framesFor h.plays).length) =
        .ofNat (48 * c.place + (c.framesFor h.plays).length - 1) + 1 := by
      show _ = _ + UInt32.ofNat 1
      rw [← UInt32.ofNat_add]
      congr 1
      omega
    rw [hrecorded.start, hfile, ← UInt32.ofNat_add, hone, UInt32.add_sub_cancel]
    rfl
  · have k := p.crc hround
    have hw : l.Whole h := by
      by_contra hw
      exact hframes (k.lost hw c (hc.pending ▸ List.mem_cons_self ..))
    have hcrcs := k.records hw
    rw [hr, hc.pending] at hcrcs
    have htaken : h.taken = h.load.sentFrames ++ h.load.pendingFrames := by
      have htaken := k.taken hw
      rwa [hpendingFrames, ← List.append_assoc, ← hsentFrames] at htaken
    refine ⟨fun _ => ⟨hstreaming, hw.2⟩, ?_, ?_, ⟨_, htaken.symm⟩, fun _ => htaken,
      fun _ => k.queued hw, fun _ => ?_, fun hn => absurd ⟨hstreaming, hw.2⟩ hn⟩
    · rw [hsentFrames]
      exact (hcrcs.1 hframes).1
    · rw [hsentFrames]
      exact (hcrcs.1 hframes).2
    · simp only [ChunkRecords.toList_pop, hr, List.tail_cons]
      rw [hsentFrames, hc.left]
      exact hcrcs.2

end

/-- A completion credits the frames of the chunk that was in flight. -/
theorem commit_data (p : Credit l h) (q : Queueing l fifo loaded h) (hopen : l.state ≠ .closed)
    {c : QueuedChunk} (hf : h.flying = some c) :
    Credit (l.commit (.ofNat (⟨fifo.packets.tail⟩ : TinyUsbFifo).level)) h.load := by
  have hc := completes hf
  have hrecords := q.records
  rw [hc.pending, List.forall₂_cons_right_iff] at hrecords
  obtain ⟨r, rest, hrecorded, -, hr⟩ := hrecords
  rw [q.commit_data hf hr]
  by_cases hframes : c.framesFor h.plays = []
  · exact p.credit_other hopen hc hr hrecorded hframes
  · exact p.credit_own hc hr hrecorded hframes

theorem commit (p : Credit l h) (q : Queueing l fifo loaded h) (hopen : l.state ≠ .closed) :
    Credit (l.commit (.ofNat (⟨fifo.packets.tail⟩ : TinyUsbFifo).level)) h.load := by
  cases hf : h.flying with
  | none => exact p.commit_primer q hopen hf
  | some c => exact p.commit_data q hopen hf

end Credit

end WaveformGenerator.UsbAudio
