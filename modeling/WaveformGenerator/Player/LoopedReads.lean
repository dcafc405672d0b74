import WaveformGenerator.Artifact.StreamCalls
import WaveformGenerator.Player.CardSource

/-!
# What a play reads of its card

The blocks of a play are its card's frames, over and over from the first, and end with the play's
input.
-/

namespace WaveformGenerator.Player

open Artifact

/-- Frame `i` of a card whose data chunk begins at `offset`. -/
def cardFrame (bytes : List UInt8) (offset i : Nat) : List UInt8 :=
  slice bytes (offset + i * pcm24BytesPerSample) pcm24BytesPerSample

/-- `n` frames of a looped card, from frame `first` on. -/
def loopedFrames (bytes : List UInt8) (offset cardFrames first n : Nat) : List UInt8 :=
  (List.range' first n).flatMap fun i => cardFrame bytes offset (i % cardFrames)

section
variable {bytes : List UInt8} {offset cardFrames : Nat}

theorem loopedFrames_add (first m n : Nat) :
    loopedFrames bytes offset cardFrames first (m + n) =
      loopedFrames bytes offset cardFrames first m ++
        loopedFrames bytes offset cardFrames (first + m) n := by
  rw [loopedFrames, ← List.range'_append_1, List.flatMap_append]
  rfl

theorem slice_add (start m n : Nat) :
    slice bytes start (m + n) = slice bytes start m ++ slice bytes (start + m) n := by
  rw [slice, slice, slice, List.take_add, List.drop_drop]

/-- Up to the end of the card the frames lie one behind another. -/
theorem loopedFrames_eq_slice {first place n : Nat} (hplace : first % cardFrames = place % cardFrames)
    (hn : place + n ≤ cardFrames) :
    loopedFrames bytes offset cardFrames first n =
      slice bytes (offset + place * pcm24BytesPerSample) (n * pcm24BytesPerSample) := by
  induction n with
  | zero => simp [loopedFrames, slice]
  | succ n ih =>
    have hlast : (first + n) % cardFrames = place + n := by
      rw [Nat.add_mod, hplace, ← Nat.add_mod, Nat.mod_eq_of_lt (by omega)]
    have hnext : offset + place * pcm24BytesPerSample + n * pcm24BytesPerSample =
        offset + (place + n) * pcm24BytesPerSample := by
      rw [Nat.add_mul, Nat.add_assoc]
    rw [loopedFrames_add, ih (by omega), Nat.succ_mul, slice_add, hnext]
    simp [loopedFrames, cardFrame, hlast]

end

/-- A read that is not cut short gives the bytes from the position on and goes behind them. -/
theorem fRead_exact {env : Nat → FatFsOutcome} {file : CardFile} {requested : Nat}
    (hok : (file.fRead env requested).1 = .ok)
    (hlength : (file.fRead env requested).2.1.length = requested) :
    (file.fRead env requested).2.1 = slice file.bytes file.position requested ∧
      (file.fRead env requested).2.2.bytes = file.bytes ∧
      (file.fRead env requested).2.2.position = file.position + requested := by
  have hdata : (file.fRead env requested).2.1 =
      slice file.bytes file.position ((env file.calls).transferred requested) := rfl
  have htransferred : (env file.calls).transferred requested = requested := by
    have hle := CardFile.transferred_le requested (env file.calls)
    have hcut : (file.fRead env requested).2.1.length ≤
        (env file.calls).transferred requested := by
      rw [hdata, slice, List.length_take]
      exact Nat.min_le_left ..
    omega
  have hafter : (file.fRead env requested).2.2.toByteFile =
      file.seek (file.position + (file.fRead env requested).2.1.length) :=
    CardFile.finishCall_of_ok hok
  rw [hlength] at hafter
  exact ⟨by rw [hdata, htransferred], (congrArg ByteFile.bytes hafter).trans rfl,
    congrArg ByteFile.position hafter⟩

theorem fRead_done {env : Nat → FatFsOutcome} (henv : ∀ call, env call = .done) {file : CardFile}
    (requested : Nat) (hinside : file.position + requested ≤ file.bytes.length) :
    (file.fRead env requested).1 = .ok ∧ (file.fRead env requested).2.1.length = requested := by
  have hlength := length_slice hinside
  simp [CardFile.fRead, CardFile.finishCall, henv, FatFsOutcome.transferred, hlength]

/-! ## One block -/

/-- The card of `bytes` that a play reads: at least one frame, all of it in the file. -/
structure LoopedCard where
  bytes : List UInt8
  offset : UInt32
  cardFrames : UInt32
  nonempty : 0 < cardFrames.toNat
  inside : offset.toNat + cardFrames.toNat * pcm24BytesPerSample ≤ bytes.length

namespace LoopedCard

variable {l : LoopedCard} {total k : Nat} {p : CardPlay} (env : Nat → FatFsOutcome)
  (clock : Nat → UInt32)

def frames (l : LoopedCard) (first n : Nat) : List UInt8 :=
  loopedFrames l.bytes l.offset.toNat l.cardFrames.toNat first n

/-- `k` of `total` frames have been read, and the file stands at the next one: `place` of its pass,
which may be the end of the card. -/
structure InStep (l : LoopedCard) (total k : Nat) (p : CardPlay) : Prop where
  bytes : p.file.bytes = l.bytes
  dataOffset : p.card.dataOffset = l.offset
  cardFrames : p.card.cardFrames = l.cardFrames
  framesLeft : k + p.card.framesLeft.toNat = total
  place : ∃ place, place + p.card.passLeft.toNat = l.cardFrames.toNat ∧
    k % l.cardFrames.toNat = place % l.cardFrames.toNat ∧
    p.file.position = l.offset.toNat + place * pcm24BytesPerSample

theorem faulted_latchFault (p : CardPlay) (error : PlayerError) :
    (p.latchFault error).faulted = true := by
  rw [CardPlay.latchFault]
  split
  · assumption
  · rfl

theorem card_latchFault (p : CardPlay) (error : PlayerError) :
    (p.latchFault error).card = p.card := by
  rw [CardPlay.latchFault]
  split <;> rfl

/-- What became of a block: it is the next frames of the looped card, or the play is faulted and no
frame is counted. -/
inductive Outcome (l : LoopedCard) (total k : Nat) (faulted : Bool) :
    Result (List UInt8) × CardPlay → Prop
  | block {n : Nat} {after : CardPlay} : 0 < n → n ≤ readBlockFrames.toNat →
      l.InStep total (k + n) after → after.faulted = faulted →
      Outcome l total k faulted (.ok (l.frames k n), after)
  | failed {status : Status} {after : CardPlay} : after.faulted = true →
      k + after.card.framesLeft.toNat = total → Outcome l total k faulted (.error status, after)

theorem InStep.readPassBlock (h : l.InStep total k p) (hleft : p.card.framesLeft ≠ 0)
    (hpass : p.card.passLeft ≠ 0) : l.Outcome total k p.faulted (p.readPassBlock env clock) := by
  obtain ⟨place, hend, hmod, hposition⟩ := h.place
  rw [CardPlay.readPassBlock]
  dsimp only
  split
  · refine .failed (faulted_latchFault ..) ?_
    rw [card_latchFault]
    exact h.framesLeft
  rename_i hread
  simp only [not_or, not_not] at hread
  obtain ⟨hdata, hbytes, hafter⟩ := fRead_exact hread.1 hread.2
  have hleftPos := toNat_pos32 hleft
  have hpassPos := toNat_pos32 hpass
  have hblock : readBlockFrames.toNat = 2048 := rfl
  generalize hframes : min (min p.card.framesLeft p.card.passLeft) readBlockFrames = frames at *
  have hcount : frames.toNat =
      min (min p.card.framesLeft.toNat p.card.passLeft.toNat) readBlockFrames.toNat := by
    rw [← hframes, toNat_min32, toNat_min32]
  have hbytesRead : (p.file.fRead env (frames.toNat * pcm24BytesPerSample)).2.1 =
      l.frames k frames.toNat := by
    rw [hdata, h.bytes, hposition]
    exact (loopedFrames_eq_slice hmod (by omega)).symm
  rw [hbytesRead]
  refine .block (by omega) (by omega) ⟨hbytes.trans h.bytes, h.dataOffset, h.cardFrames, ?_, ?_⟩ rfl
  · show k + frames.toNat + (p.card.framesLeft - frames).toNat = total
    rw [UInt32.toNat_sub_of_le _ _ (UInt32.le_iff_toNat_le.mpr (by omega))]
    have := h.framesLeft
    omega
  · refine ⟨place + frames.toNat, ?_, ?_, ?_⟩
    · show place + frames.toNat + (p.card.passLeft - frames).toNat = _
      rw [UInt32.toNat_sub_of_le _ _ (UInt32.le_iff_toNat_le.mpr (by omega))]
      omega
    · rw [Nat.add_mod, hmod, ← Nat.add_mod]
    · refine hafter.trans ?_
      rw [hposition, Nat.add_mul, Nat.add_assoc]

/-- At a seam the file goes back to the first frame, or the play is faulted. -/
theorem InStep.beginNextPass (h : l.InStep total k p) (hpass : p.card.passLeft = 0) :
    ((p.beginNextPass env).1.isOk = true → l.InStep total k (p.beginNextPass env).2 ∧
      (p.beginNextPass env).2.card.passLeft ≠ 0 ∧
      (p.beginNextPass env).2.faulted = p.faulted) ∧
    ((p.beginNextPass env).1.isOk = false → (p.beginNextPass env).2.faulted = true) ∧
    (p.beginNextPass env).2.card.framesLeft = p.card.framesLeft := by
  rw [CardPlay.beginNextPass]
  dsimp only [CardPlay.seekTo]
  by_cases hok : (p.file.fLseek env p.card.dataOffset.toNat).1 = .ok
  · have hafter : (p.file.fLseek env p.card.dataOffset.toNat).2.toByteFile =
        p.file.seek p.card.dataOffset.toNat := CardFile.finishCall_of_ok hok
    obtain ⟨place, hend, hmod, -⟩ := h.place
    rw [hpass, UInt32.toNat_zero, Nat.add_zero] at hend
    simp only [hok, if_true, Status.isOk_success, Bool.not_true, Bool.false_eq_true, if_false]
    refine ⟨fun _ => ⟨⟨?_, h.dataOffset, h.cardFrames, h.framesLeft, 0, ?_, ?_, ?_⟩, ?_, trivial⟩,
      fun hbad => absurd hbad (by decide), trivial⟩
    · exact (congrArg ByteFile.bytes hafter).trans h.bytes
    · rw [Nat.zero_add, h.cardFrames]
    · rw [hmod, hend, Nat.mod_self, Nat.zero_mod]
    · refine (congrArg ByteFile.position hafter).trans ?_
      rw [h.dataOffset, Nat.zero_mul]
      rfl
    · intro hzero
      have hpositive := l.nonempty
      rw [← h.cardFrames, hzero] at hpositive
      exact absurd hpositive (by decide)
  · have hbad : sdSeekFailed.isOk = false := rfl
    simp only [hok, if_false, hbad, Bool.not_false, if_true]
    refine ⟨fun habsurd => absurd habsurd (by decide), fun _ => faulted_latchFault .., ?_⟩
    rw [card_latchFault]

theorem InStep.readCardBlock (h : l.InStep total k p) (hleft : p.card.framesLeft ≠ 0) :
    l.Outcome total k p.faulted (p.readCardBlock env clock) := by
  rw [CardPlay.readCardBlock]
  split
  · rename_i hpass
    obtain ⟨hsought, hfailed, hframes⟩ := h.beginNextPass env hpass
    dsimp only
    split
    · rename_i hbad
      rw [Bool.not_eq_true'] at hbad
      refine .failed (hfailed hbad) ?_
      rw [hframes]
      exact h.framesLeft
    · rename_i hok
      rw [Bool.not_eq_true', Bool.not_eq_false] at hok
      obtain ⟨hstep, hnext, hfaulted⟩ := hsought hok
      rw [← hfaulted]
      exact hstep.readPassBlock env clock (hframes ▸ hleft) hnext
  · rename_i hpass
    exact h.readPassBlock env clock hleft hpass

/-- With a card that answers, a block is read. -/
theorem InStep.readPassBlock_done {env : Nat → FatFsOutcome} (henv : ∀ call, env call = .done) (h : l.InStep total k p) :
    (p.readPassBlock env clock).1.isOk = true := by
  obtain ⟨place, hend, hmod, hposition⟩ := h.place
  have hinside := l.inside
  have hframes : (min (min p.card.framesLeft p.card.passLeft) readBlockFrames).toNat ≤
      p.card.passLeft.toNat := by
    rw [toNat_min32, toNat_min32]
    omega
  have hrange : p.file.position +
      (min (min p.card.framesLeft p.card.passLeft) readBlockFrames).toNat * pcm24BytesPerSample ≤
      p.file.bytes.length := by
    rw [h.bytes, hposition, Nat.add_assoc, ← Nat.add_mul]
    refine (Nat.add_le_add_left (Nat.mul_le_mul_right _ ?_) _).trans hinside
    omega
  have hread := fRead_done henv _ hrange
  rw [CardPlay.readPassBlock]
  simp [hread.1, hread.2, Except.isOk, Except.toBool]

theorem InStep.readCardBlock_done {env : Nat → FatFsOutcome} (henv : ∀ call, env call = .done) (h : l.InStep total k p) :
    (p.readCardBlock env clock).1.isOk = true := by
  rw [CardPlay.readCardBlock]
  split
  · rename_i hpass
    have hsought : (p.beginNextPass env).1.isOk = true := by
      simp [CardPlay.beginNextPass, CardPlay.seekTo, CardFile.fLseek, CardFile.finishCall, henv]
    dsimp only
    rw [hsought]
    exact ((h.beginNextPass env hpass).1 hsought).1.readPassBlock_done clock henv
  · exact h.readPassBlock_done clock henv

/-! ## A whole play -/

/-- What `pulls` pulls of a play have read. -/
structure Reads (l : LoopedCard) (total k : Nat) (blocks : List (List UInt8)) (after : CardPlay) :
    Prop where
  frames : ∃ n, blocks.flatten = l.frames k n ∧ k + n + after.card.framesLeft.toNat = total
  sizes : ∀ block ∈ blocks, ∃ n, 0 < n ∧ n ≤ readBlockFrames.toNat ∧
    block.length = n * pcm24BytesPerSample

theorem length_cardFrame (i : Nat) :
    (cardFrame l.bytes l.offset.toNat (i % l.cardFrames.toNat)).length = pcm24BytesPerSample := by
  have hinside := l.inside
  have hlt := Nat.mod_lt i l.nonempty
  refine length_slice (Nat.le_trans ?_ hinside)
  rw [Nat.add_assoc, ← Nat.succ_mul]
  exact Nat.add_le_add_left (Nat.mul_le_mul_right _ hlt) _

theorem length_frames (k n : Nat) : (l.frames k n).length = n * pcm24BytesPerSample := by
  rw [frames, loopedFrames, List.length_flatMap]
  simp [length_cardFrame]

theorem InStep.reads (pulls : Nat) (h : l.InStep total k p) :
    l.Reads total k (p.readBlocks env clock pulls).1 (p.readBlocks env clock pulls).2 := by
  induction pulls generalizing k p with
  | zero => exact ⟨⟨0, rfl, h.framesLeft⟩, fun block hblock => absurd hblock List.not_mem_nil⟩
  | succ pulls ih =>
    rw [CardPlay.readBlocks]
    split
    · exact ⟨⟨0, rfl, h.framesLeft⟩, fun block hblock => absurd hblock List.not_mem_nil⟩
    rename_i hleft
    have hread := h.readCardBlock env clock hleft
    generalize p.readCardBlock env clock = read at hread
    cases hread with
    | failed hfaulted hframes =>
      exact ⟨⟨0, rfl, hframes⟩, fun block hblock => absurd hblock List.not_mem_nil⟩
    | block hpos hmost hstep hfaulted =>
      obtain ⟨⟨n, hflatten, htotal⟩, hsizes⟩ := ih hstep
      refine ⟨⟨_ + n, ?_, by rw [← Nat.add_assoc]; exact htotal⟩, ?_⟩
      · dsimp only
        rw [List.flatten_cons, hflatten, frames, frames, frames, loopedFrames_add]
      · intro b hb
        rcases List.mem_cons.mp hb with rfl | hb
        · exact ⟨_, hpos, hmost, length_frames _ _⟩
        · exact hsizes b hb

/-- Enough pulls read all the input, unless the card failed. -/
theorem InStep.readBlocks_ends {pulls : Nat} (h : l.InStep total k p)
    (hpulls : p.card.framesLeft.toNat ≤ pulls) :
    (p.readBlocks env clock pulls).2.card.framesLeft = 0 ∨
      (p.readBlocks env clock pulls).2.faulted = true := by
  induction pulls generalizing k p with
  | zero => exact .inl (UInt32.toNat_inj.mp (Nat.le_zero.mp hpulls))
  | succ pulls ih =>
    rw [CardPlay.readBlocks]
    split
    · rename_i hzero
      exact .inl hzero
    rename_i hleft
    have hread := h.readCardBlock env clock hleft
    have hframes := h.framesLeft
    generalize p.readCardBlock env clock = read at hread
    cases hread with
    | failed hfaulted => exact .inr hfaulted
    | block hpos hmost hstep =>
      have hafter := hstep.framesLeft
      exact ih hstep (by omega)

theorem InStep.readBlocks_done {env : Nat → FatFsOutcome} {pulls : Nat} (henv : ∀ call, env call = .done)
    (h : l.InStep total k p) : (p.readBlocks env clock pulls).2.faulted = p.faulted := by
  induction pulls generalizing k p with
  | zero => rfl
  | succ pulls ih =>
    rw [CardPlay.readBlocks]
    split
    · rfl
    rename_i hleft
    have hread := h.readCardBlock env clock hleft
    have hok := h.readCardBlock_done clock henv
    generalize p.readCardBlock env clock = read at hread hok
    cases hread with
    | failed => cases hok
    | block hpos hmost hstep hfaulted => exact (ih hstep).trans hfaulted

end LoopedCard

/-- A play about to read its card: the file stands at the data chunk's first frame. -/
def CardPlay.opened (payload : WavPayload) (duration : Option UInt32) (file : CardFile)
    (sd : SdCounters) : CardPlay :=
  { card := cardSource payload duration
    file := { file with position := payload.offset.toNat }
    sd }

/-- The card of a payload of at least one frame that lies in its file. -/
def LoopedCard.ofPayload (payload : WavPayload) (bytes : List UInt8) (hframe : 3 ≤ payload.bytes.toNat)
    (hinside : payload.offset.toNat + payload.bytes.toNat ≤ bytes.length) : LoopedCard where
  bytes
  offset := payload.offset
  cardFrames := payload.bytes / 3
  nonempty := by
    rw [UInt32.toNat_div]
    exact Nat.div_pos hframe (by decide)
  inside := by
    rw [UInt32.toNat_div]
    exact (Nat.add_le_add_left (Nat.div_mul_le_self _ _) _).trans hinside

theorem LoopedCard.inStep_opened {payload : WavPayload} {file : CardFile}
    (hframe : 3 ≤ payload.bytes.toNat)
    (hinside : payload.offset.toNat + payload.bytes.toNat ≤ file.bytes.length)
    (duration : Option UInt32) (sd : SdCounters) :
    (ofPayload payload file.bytes hframe hinside).InStep
      (duration.getD (payload.bytes / 3)).toNat 0 (.opened payload duration file sd) := by
  have hsome : payload.bytes / 3 ≠ 0 := fun hzero => by
    have hpositive := (ofPayload payload file.bytes hframe hinside).nonempty
    exact absurd (congrArg UInt32.toNat hzero) (Nat.ne_of_gt hpositive)
  refine ⟨rfl, rfl, rfl, ?_, 0, Nat.zero_add _, rfl, (Nat.add_zero _).symm⟩
  rw [Nat.zero_add]
  cases duration with
  | none => rfl
  | some frames => simp [CardPlay.opened, cardSource, playInputFrames, hsome]

/-- The blocks of a play are the frames of its card over and over, the card once without a duration;
each is an engine block or less. With the card answering they end with all of the play's input. -/
theorem looped_reads {payload : WavPayload} {file : CardFile} (hframe : 3 ≤ payload.bytes.toNat)
    (hinside : payload.offset.toNat + payload.bytes.toNat ≤ file.bytes.length)
    (duration : Option UInt32) (sd : SdCounters) (env : Nat → FatFsOutcome)
    (clock : Nat → UInt32) (pulls : Nat) :
    let cardFrames := payload.bytes / 3
    let total := (duration.getD cardFrames).toNat
    let read := (CardPlay.opened payload duration file sd).readBlocks env clock pulls
    (∃ n, n + read.2.card.framesLeft.toNat = total ∧
      read.1.flatten = (List.range n).flatMap fun i =>
        cardFrame file.bytes payload.offset.toNat (i % cardFrames.toNat)) ∧
    (∀ block ∈ read.1, ∃ n, 0 < n ∧ n ≤ 2048 ∧ block.length = 3 * n) ∧
    (total ≤ pulls → read.2.card.framesLeft = 0 ∨ read.2.faulted = true) ∧
    ((∀ call, env call = .done) → total ≤ pulls →
      read.2.faulted = false ∧ read.2.card.framesLeft = 0 ∧
        read.1.flatten = (List.range total).flatMap fun i =>
          cardFrame file.bytes payload.offset.toNat (i % cardFrames.toNat)) := by
  intro cardFrames total read
  have hstart := LoopedCard.inStep_opened hframe hinside duration sd
  obtain ⟨⟨n, hflatten, hcount⟩, hsizes⟩ :=
    hstart.reads env clock pulls
  rw [Nat.zero_add] at hcount
  have hlooped : read.1.flatten = (List.range n).flatMap fun i =>
      cardFrame file.bytes payload.offset.toNat (i % cardFrames.toNat) := by
    rw [List.range_eq_range']
    exact hflatten
  have hends : total ≤ pulls → read.2.card.framesLeft = 0 ∨ read.2.faulted = true :=
    fun hpulls => hstart.readBlocks_ends env clock ((Nat.zero_add _).symm.trans hstart.framesLeft ▸ hpulls)
  refine ⟨⟨n, hcount, hlooped⟩, fun block hblock => ?_, hends, fun henv hpulls => ?_⟩
  · obtain ⟨m, hpos, hmost, hlength⟩ := hsizes block hblock
    exact ⟨m, hpos, hmost, hlength.trans (Nat.mul_comm ..)⟩
  · have hsound : read.2.faulted = false := hstart.readBlocks_done clock henv
    have hleft : read.2.card.framesLeft = 0 := by
      rcases hends hpulls with hzero | hfault
      · exact hzero
      · rw [hsound] at hfault
        cases hfault
    have hall : n = total := by
      rw [hleft, UInt32.toNat_zero, Nat.add_zero] at hcount
      exact hcount
    exact ⟨hsound, hleft, hall ▸ hlooped⟩

def twoFrames : WavPayload := { offset := 4, bytes := 6 }

def twoFramesFile : CardFile := ⟨⟨[0, 0, 0, 0, 1, 2, 3, 4, 5, 6], 0⟩, 0⟩

/-- A card of two frames looped for five. -/
theorem looped_reads_twoFrames :
    ((CardPlay.opened twoFrames (some 5) twoFramesFile {}).readBlocks (fun _ => .done)
      (fun _ => 0) 5).1.flatten = [1, 2, 3, 4, 5, 6, 1, 2, 3, 4, 5, 6, 1, 2, 3] := by
  obtain ⟨-, -, -, hall⟩ := @looped_reads twoFrames twoFramesFile (by decide) (by decide) (some 5) {} (fun _ => .done) (fun _ => 0) 5
  exact (hall (fun _ => rfl) (by decide)).2.2.trans (by decide +kernel)

end WaveformGenerator.Player
