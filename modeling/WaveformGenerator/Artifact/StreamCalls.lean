import WaveformGenerator.Artifact.PreparedStream
import WaveformGenerator.Artifact.Written

/-!
# What a stream call does

A call of a live stream succeeds and has done to the file what it was asked, or it latches its
failure. Either way the file's bytes are known: only a write changes them, at the handle's position.
-/

namespace WaveformGenerator.Artifact

namespace CardFile

variable {env : Nat → FatFsOutcome}

@[simp] theorem bytes_finishCall (file : CardFile) (outcome : FatFsOutcome) (after : ByteFile) :
    (file.finishCall outcome after).2.bytes = after.bytes := by
  cases outcome <;> rfl

@[simp] theorem calls_finishCall (file : CardFile) (outcome : FatFsOutcome) (after : ByteFile) :
    (file.finishCall outcome after).2.calls = file.calls + 1 := by
  cases outcome <;> rfl

theorem finishCall_of_ok {file : CardFile} {outcome : FatFsOutcome} {after : ByteFile}
    (h : (file.finishCall outcome after).1 = .ok) :
    (file.finishCall outcome after).2.toByteFile = after := by
  cases outcome with
  | failed count position => cases h
  | _ => rfl

theorem failed_of_finishCall {file : CardFile} {outcome : FatFsOutcome} {after : ByteFile}
    (h : (file.finishCall outcome after).1 ≠ .ok) :
    ∃ count position, outcome = .failed count position := by
  cases outcome with
  | failed count position => exact ⟨count, position, rfl⟩
  | _ => exact absurd rfl h

theorem transferred_le (requested : Nat) (outcome : FatFsOutcome) :
    outcome.transferred requested ≤ requested := by
  cases outcome with
  | done => exact Nat.le_refl _
  | _ => exact Nat.min_le_right ..

/-- A write, whatever comes of it, puts a part of its bytes at the position. -/
theorem bytes_fWrite (env : Nat → FatFsOutcome) (file : CardFile) (data : List UInt8) :
    ∃ written : List UInt8, written.length ≤ data.length ∧
      (fWrite env file data).2.2.bytes = overwrite file.bytes file.position written := by
  refine ⟨_, ?_, bytes_finishCall ..⟩
  rw [List.length_take]
  exact Nat.min_le_right ..

theorem fWrite_done {file : CardFile} {data : List UInt8}
    (hresult : (fWrite env file data).1 = .ok)
    (hactual : (fWrite env file data).2.1 = data.length) :
    (fWrite env file data).2.2.toByteFile = file.write data := by
  have htaken : data.take ((env file.calls).transferred data.length) = data := by
    refine List.take_of_length_le ?_
    have hlength : (data.take ((env file.calls).transferred data.length)).length = data.length :=
      hactual
    rw [List.length_take] at hlength
    omega
  refine (finishCall_of_ok hresult).trans ?_
  rw [htaken]

end CardFile

namespace Binding

/-- The stream has a file and no failure. -/
structure Live (b : Binding) : Prop where
  bound : b.stream.bound = true
  clean : b.stream.failure.isOk = true

theorem latched_spec {b : Binding} (h : b.Live) (file : CardFile) {failure : Status}
    (hfailure : failure.isOk = false) :
    b.latched file failure = (failure, ⟨file, { b.stream with failure }⟩) := by
  simp [latched, Rt1170PreparedStream.latch, h.clean, hfailure]

/-- A write the stream lets through: behind what is committed, or inside the header. -/
structure Clear (b : Binding) (data : List UInt8) : Prop where
  size : b.stream.writerCursor + data.length ≤ uint32Max + 8
  short : data.length ≤ uint32Max
  behind : 44 + b.stream.committedFrames * 3 ≤ b.stream.writerCursor ∨
    b.stream.writerCursor + data.length ≤ 44

/-- A write of a live stream. -/
inductive Writes (b : Binding) (data : List UInt8) : Status × Binding → Prop
  | nothing : data = [] → Writes b data (.success, b)
  | refused {status : Status} : ¬ b.Clear data → status.isOk = false → Writes b data (status, b)
  | latched {card : CardFile} {failure : Status} {written : List UInt8} :
    b.Clear data → written.length ≤ data.length → failure.isOk = false →
    card.bytes = overwrite b.file.bytes b.file.position written →
    Writes b data (failure, ⟨card, { b.stream with failure }⟩)
  | done {card : CardFile} : b.Clear data → card.toByteFile = b.file.write data →
    Writes b data (.success, ⟨card, { b.stream with
      writerCursor := b.stream.writerCursor + data.length
      writtenExtent := max b.stream.writtenExtent (b.stream.writerCursor + data.length) }⟩)

/-- A seek of a live stream. -/
inductive Seeks (b : Binding) (offset : Nat) : Status × Binding → Prop
  | refused {status : Status} : ¬ (offset ≤ b.stream.writtenExtent ∧ offset ≤ fsizeMax) →
    status.isOk = false → Seeks b offset (status, b)
  | latched {card : CardFile} {failure : Status} :
    failure.isOk = false → card.bytes = b.file.bytes →
    Seeks b offset (failure, ⟨card, { b.stream with failure }⟩)
  | done {card : CardFile} : offset ≤ b.stream.writtenExtent →
    card.toByteFile = b.file.seek offset →
    Seeks b offset (.success, ⟨card, { b.stream with writerCursor := offset }⟩)

/-- A commit of a live stream. -/
inductive Commits (b : Binding) (frames : Nat) : Status × Binding → Prop
  | refused {status : Status} : status.isOk = false → Commits b frames (status, b)
  | latched {card : CardFile} {failure : Status} :
    failure.isOk = false → card.bytes = b.file.bytes →
    Commits b frames (failure, ⟨card, { b.stream with failure }⟩)
  | done {card : CardFile} :
    b.stream.committedFrames ≤ frames → 44 + frames * 3 ≤ b.stream.writtenExtent →
    card.toByteFile = b.file.toByteFile →
    Commits b frames (.success, ⟨card, { b.stream with committedFrames := frames }⟩)

/-- A read of a live stream. A failure leaves the handle where the writer had it, unless the last
FatFs call, the seek back, is what failed. -/
inductive Reads (env : Nat → FatFsOutcome) (b : Binding) (firstFrame count : Nat) :
    Result (List UInt8) × Binding → Prop
  | refused {status : Status} : Reads env b firstFrame count (.error status, b)
  | latched {card : CardFile} {failure : Status} :
    failure.isOk = false → card.bytes = b.file.bytes →
    (card.position = b.stream.writerCursor ∨
      ∃ n position, env (card.calls - 1) = .failed n position) →
    Reads env b firstFrame count (.error failure, ⟨card, { b.stream with failure }⟩)
  | done {card : CardFile} {data : List UInt8} :
    firstFrame * 3 + count ≤ b.stream.committedFrames * 3 →
    data = slice b.file.bytes (44 + firstFrame * 3) count → data.length = count →
    card.toByteFile = b.file.seek b.stream.writerCursor →
    Reads env b firstFrame count (.ok data, ⟨card, b.stream⟩)

variable {env : Nat → FatFsOutcome} {b : Binding}

/-- Why a stream that is not live refuses a call. -/
theorem not_live (h : ¬ b.Live) :
    b.stream.bound = false ∨ b.stream.bound = true ∧ b.stream.failure.isOk = false := by
  cases hbound : b.stream.bound with
  | false => exact .inl rfl
  | true =>
    cases hok : b.stream.failure.isOk with
    | false => exact .inr ⟨rfl, rfl⟩
    | true => exact absurd ⟨hbound, hok⟩ h

theorem writeExact_of_not_live (h : ¬ b.Live) (data : List UInt8) :
    (writeExact env b data).1.isOk = false ∧ (writeExact env b data).2 = b := by
  unfold writeExact
  rcases not_live h with hbound | ⟨hbound, hfailure⟩
  · rw [if_pos (by simp [hbound])]
    exact ⟨rfl, rfl⟩
  · rw [if_neg (by simp [hbound]), if_pos (by simp [hfailure])]
    exact ⟨hfailure, rfl⟩

theorem seek_of_not_live (h : ¬ b.Live) (offset : Nat) :
    (seek env b offset).1.isOk = false ∧ (seek env b offset).2 = b := by
  unfold seek
  rcases not_live h with hbound | ⟨hbound, hfailure⟩
  · rw [if_pos (by simp [hbound])]
    exact ⟨rfl, rfl⟩
  · rw [if_neg (by simp [hbound]), if_pos (by simp [hfailure])]
    exact ⟨hfailure, rfl⟩

theorem commitFrames_of_not_live (h : ¬ b.Live) (frames : Nat) :
    (commitFrames env b frames).2 = b := by
  unfold commitFrames
  rcases not_live h with hbound | ⟨hbound, hfailure⟩
  · rw [if_pos (by simp [hbound])]
  · rw [if_neg (by simp [hbound]), if_pos (by simp [hfailure])]

theorem readFrames_of_not_live (h : ¬ b.Live) (firstFrame count : Nat) :
    ∃ status, readFrames env b firstFrame count = (.error status, b) := by
  unfold readFrames
  rcases not_live h with hbound | ⟨hbound, hfailure⟩
  · rw [if_pos (by simp [hbound])]
    exact ⟨_, rfl⟩
  · rw [if_neg (by simp [hbound]), if_pos (by simp [hfailure])]
    exact ⟨_, rfl⟩

theorem writes (h : b.Live) (data : List UInt8) : Writes b data (writeExact env b data) := by
  unfold writeExact
  rw [if_neg (by simp [h.bound]), if_neg (by simp [h.clean])]
  split
  case isTrue hempty => exact .nothing (List.isEmpty_iff.mp hempty)
  · split
    case isTrue hsizes =>
      refine .refused (fun hclear => ?_) rfl
      obtain ⟨hsize, hshort, -⟩ := hclear
      simp only [Bool.or_eq_true, decide_eq_true_eq] at hsizes
      unfold fsizeMax uint64Max uint32Max at *
      omega
    case isFalse hsizes =>
      dsimp only
      split
      case isTrue hmaximum =>
        exact .refused (fun hclear => absurd hclear.size (Nat.not_le.mpr hmaximum)) rfl
      case isFalse hmaximum =>
        split
        case isTrue hcommitted =>
          refine .refused (fun hclear => ?_) rfl
          simp only [Bool.and_eq_true, decide_eq_true_eq] at hcommitted
          unfold pcm24WavHeaderBytes at hcommitted
          have hbehind := hclear.behind
          omega
        case isFalse hcommitted =>
          have hclear : b.Clear data := by
            simp only [Bool.or_eq_true, decide_eq_true_eq, not_or] at hsizes
            simp only [Bool.and_eq_true, decide_eq_true_eq] at hcommitted
            unfold pcm24WavHeaderBytes at hcommitted
            exact ⟨by omega, by omega, by omega⟩
          obtain ⟨written, hwritten, hbytes⟩ := CardFile.bytes_fWrite env b.file data
          split
          · rw [latched_spec h _ (by rfl)]
            exact .latched hclear hwritten rfl hbytes
          case isFalse hresult =>
            split
            · rw [latched_spec h _ (by rfl)]
              exact .latched hclear hwritten rfl hbytes
            case isFalse hactual =>
              exact .done hclear
                (CardFile.fWrite_done (not_not.mp hresult) (not_not.mp hactual))

theorem seeks (h : b.Live) (offset : Nat) : Seeks b offset (seek env b offset) := by
  unfold seek
  rw [if_neg (by simp [h.bound]), if_neg (by simp [h.clean])]
  split
  case isTrue hrange =>
    simp only [Bool.or_eq_true, decide_eq_true_eq] at hrange
    exact .refused (by omega) rfl
  case isFalse hrange =>
    simp only [Bool.or_eq_true, decide_eq_true_eq, not_or, Nat.not_lt] at hrange
    dsimp only
    split
    · rw [latched_spec h _ (by rfl)]
      exact .latched rfl (CardFile.bytes_finishCall ..)
    case isFalse hresult =>
      exact .done hrange.1 (CardFile.finishCall_of_ok (not_not.mp hresult))

theorem commits (h : b.Live) (frames : Nat) : Commits b frames (commitFrames env b frames) := by
  unfold commitFrames
  rw [if_neg (by simp [h.bound]), if_neg (by simp [h.clean])]
  split
  · exact .refused rfl
  case isFalse hframes =>
    dsimp only
    split
    · exact .refused rfl
    case isFalse hend =>
      simp only [Bool.or_eq_true, decide_eq_true_eq, not_or, Nat.not_lt] at hframes hend
      split
      · rw [latched_spec h _ (by rfl)]
        exact .latched rfl rfl
      · split
        · rw [latched_spec h _ (by rfl)]
          exact .latched rfl (CardFile.bytes_finishCall ..)
        case isFalse hresult =>
          exact .done hframes.1 hend.1.2 (CardFile.finishCall_of_ok (not_not.mp hresult))

/-- The read between the two seeks leaves the bytes; what it answers, it read there. -/
theorem readAt_spec (env : Nat → FatFsOutcome) (file : CardFile) (offset count : Nat) :
    (readAt env file offset count).2.bytes = file.bytes ∧
      match (readAt env file offset count).1 with
      | .ok data => data = slice file.bytes offset count ∧ data.length = count
      | .error failure => failure.isOk = false := by
  unfold readAt
  dsimp only
  split
  · exact ⟨CardFile.bytes_finishCall .., rfl⟩
  case isFalse hseek =>
    have hfile := CardFile.finishCall_of_ok (not_not.mp hseek)
    have hbytes : (file.fLseek env offset).2.bytes = file.bytes := CardFile.bytes_finishCall ..
    split
    · exact ⟨(CardFile.bytes_finishCall ..).trans hbytes, rfl⟩
    · split
      · exact ⟨(CardFile.bytes_finishCall ..).trans hbytes, rfl⟩
      case isFalse hcount =>
        refine ⟨(CardFile.bytes_finishCall ..).trans hbytes, ?_, not_not.mp hcount⟩
        have hposition : (file.fLseek env offset).2.position = offset :=
          congrArg ByteFile.position hfile
        have hlength : (slice (file.fLseek env offset).2.bytes (file.fLseek env offset).2.position
          ((env (file.fLseek env offset).2.calls).transferred count)).length = count :=
          not_not.mp hcount
        have hall : (env (file.fLseek env offset).2.calls).transferred count = count := by
          have hle := CardFile.transferred_le count (env (file.fLseek env offset).2.calls)
          have hslice := List.length_take_le
            ((env (file.fLseek env offset).2.calls).transferred count)
            ((file.fLseek env offset).2.bytes.drop (file.fLseek env offset).2.position)
          unfold slice at hlength
          omega
        show slice _ _ _ = _
        rw [hall, hbytes, hposition]

theorem reads (h : b.Live) (firstFrame count : Nat) :
    Reads env b firstFrame count (readFrames env b firstFrame count) := by
  unfold readFrames
  rw [if_neg (by simp [h.bound]), if_neg (by simp [h.clean])]
  split
  · exact .refused
  case isFalse hcount =>
    dsimp only
    split
    · exact .refused
    case isFalse hframes =>
      split
      · exact .refused
      · split
        · exact .refused
        · simp only [Bool.or_eq_true, decide_eq_true_eq, not_or, Nat.not_lt, not_not] at hcount
          simp only [Bool.or_eq_true, decide_eq_true_eq, not_or, Nat.not_lt] at hframes
          obtain ⟨hbytes, hread⟩ :=
            readAt_spec env b.file (pcm24WavHeaderBytes + firstFrame * 3) count
          generalize readAt env b.file (pcm24WavHeaderBytes + firstFrame * 3) count = outcome
            at hbytes hread ⊢
          obtain ⟨output, card⟩ := outcome
          have hkept : (card.fLseek env b.stream.writerCursor).2.bytes = b.file.bytes :=
            (CardFile.bytes_finishCall ..).trans hbytes
          dsimp only at hread ⊢
          split
          case isTrue hrestore =>
            have hcalls : (card.fLseek env b.stream.writerCursor).2.calls - 1 = card.calls :=
              congrArg (· - 1) (CardFile.calls_finishCall ..)
            have hlast := CardFile.failed_of_finishCall hrestore
            rw [← hcalls] at hlast
            cases output with
            | ok data =>
              dsimp only
              rw [latched_spec h _ (by rfl)]
              exact .latched rfl hkept (.inr hlast)
            | error failure =>
              dsimp only at hread ⊢
              rw [latched_spec h _ hread]
              exact .latched hread hkept (.inr hlast)
          case isFalse hrestore =>
            have hback := CardFile.finishCall_of_ok (not_not.mp hrestore)
            cases output with
            | ok data =>
              refine .done (by omega) hread.1 hread.2 (hback.trans ?_)
              rw [ByteFile.seek, hbytes]
              rfl
            | error failure =>
              dsimp only at hread ⊢
              rw [latched_spec h _ hread]
              exact .latched hread hkept (.inl (congrArg ByteFile.position hback))

/-- With the card answering, a read inside the file gives its bytes. -/
theorem readAt_done {file : CardFile} {offset count : Nat}
    (hstored : offset + count ≤ file.bytes.length) (hseek : env file.calls = .done)
    (hread : env (file.calls + 1) = .done) :
    (readAt env file offset count).1 = .ok (slice file.bytes offset count) ∧
      (readAt env file offset count).2.calls = file.calls + 2 := by
  have hlength := length_slice hstored
  simp [readAt, CardFile.fLseek, CardFile.fRead, CardFile.finishCall, hseek, hread,
    FatFsOutcome.transferred, ByteFile.seek, hlength]

/-- A live stream reads any range of committed frames its scratch holds, if the card answers. -/
theorem readFrames_ok (h : b.Live) {firstFrame count : Nat} (hpos : 0 < count)
    (hwhole : count % 3 = 0) (hrange : firstFrame * 3 + count ≤ b.stream.committedFrames * 3)
    (hextent : 44 + b.stream.committedFrames * 3 ≤ b.stream.writtenExtent)
    (hsize : b.stream.committedFrames * 3 ≤ uint32Max)
    (hstored : 44 + b.stream.committedFrames * 3 ≤ b.file.bytes.length)
    (hscratch : (44 + firstFrame * 3) % 4 + count ≤ b.stream.scratchBytes)
    (hcard : ∀ call < 3, env (b.file.calls + call) = .done) :
    (readFrames env b firstFrame count).1 = .ok (slice b.file.bytes (44 + firstFrame * 3) count) := by
  have hinside : 44 + firstFrame * 3 + count ≤ b.file.bytes.length := by omega
  obtain ⟨hread, hcalls⟩ := readAt_done hinside (hcard 0 (by decide)) (hcard 1 (by decide))
  have hrestore : env (b.file.calls + 2) = .done := hcard 2 (by decide)
  unfold uint32Max at hsize
  have hcount : ¬ (count = 0 ∨ count % 3 ≠ 0 ∨ count > uint32Max) := by
    unfold uint32Max
    omega
  have hframes : ¬ (firstFrame > b.stream.committedFrames ∨
      count / 3 > b.stream.committedFrames - firstFrame ∨
      firstFrame > (uint64Max - pcm24WavHeaderBytes) / 3) := by
    unfold uint64Max pcm24WavHeaderBytes
    omega
  have hoffset : ¬ (44 + firstFrame * 3 > uint64Max - count ∨
      44 + firstFrame * 3 + count > b.stream.writtenExtent ∨ 44 + firstFrame * 3 > fsizeMax) := by
    unfold fsizeMax uint64Max
    omega
  have hfits : ¬ (count > b.stream.scratchBytes ∨
      (44 + firstFrame * 3) % 4 > b.stream.scratchBytes - count) := by
    omega
  unfold readFrames
  rw [if_neg (by simp [h.bound]), if_neg (by simp [h.clean]),
    if_neg (by simpa [and_assoc] using hcount)]
  dsimp only
  rw [if_neg (by simpa [and_assoc] using hframes), pcm24WavHeaderBytes,
    if_neg (by simpa [and_assoc] using hoffset), if_neg (by simpa using hfits)]
  generalize readAt env b.file (44 + firstFrame * 3) count = outcome at hread hcalls ⊢
  obtain ⟨output, card⟩ := outcome
  subst hread
  have hok : (card.fLseek env b.stream.writerCursor).1 = .ok := by
    have hdone : env card.calls = .done := by
      rw [show card.calls = b.file.calls + 2 from hcalls, hrestore]
    rw [CardFile.fLseek, hdone]
    rfl
  rw [if_neg (by simp [hok])]

/-- The writer's calls do not commit. -/
theorem committedFrames_run (env : Nat → FatFsOutcome) (b : Binding) (call : SinkCall) :
    (call.run (sink env) b).2.stream.committedFrames = b.stream.committedFrames := by
  by_cases hlive : b.Live
  · cases call with
    | write data =>
      have hwrites : Writes b data (writeExact env b data) := writes hlive data
      show (writeExact env b data).2.stream.committedFrames = _
      generalize writeExact env b data = outcome at hwrites ⊢
      cases hwrites <;> rfl
    | seek offset =>
      have hseeks : Seeks b offset (seek env b offset) := seeks hlive offset
      show (seek env b offset).2.stream.committedFrames = _
      generalize seek env b offset = outcome at hseeks ⊢
      cases hseeks <;> rfl
  · cases call with
    | write data =>
      exact congrArg (·.stream.committedFrames) (writeExact_of_not_live hlive data).2
    | seek offset => exact congrArg (·.stream.committedFrames) (seek_of_not_live hlive offset).2

theorem committedFrames_runCalls (env : Nat → FatFsOutcome) (b : Binding) (calls : List SinkCall) :
    (runCalls (sink env) b calls).2.stream.committedFrames = b.stream.committedFrames := by
  induction calls generalizing b with
  | nil => rfl
  | cons call calls ih =>
    unfold runCalls
    dsimp only
    split
    · exact committedFrames_run env b call
    · exact (ih _).trans (committedFrames_run env b call)

/-- A call of the sink that succeeds has done to the file what it was asked. -/
theorem keeps_sink (env : Nat → FatFsOutcome) : (sink env).Keeps fun b => b.file.toByteFile where
  write b data h := by
    show (writeExact env b data).2.file.toByteFile = b.file.write data
    replace h : (writeExact env b data).1.isOk = true := h
    by_cases hlive : b.Live
    · have hwrites : Writes b data (writeExact env b data) := writes hlive data
      generalize writeExact env b data = outcome at hwrites h ⊢
      cases hwrites with
      | nothing hnil => simp [hnil, ByteFile.write]
      | refused _ hstatus => simp [hstatus] at h
      | latched _ _ hfailure _ => simp [hfailure] at h
      | done _ hfile => exact hfile
    · simp [(writeExact_of_not_live hlive data).1] at h
  seek b offset h := by
    show (seek env b offset).2.file.toByteFile = b.file.seek offset
    replace h : (seek env b offset).1.isOk = true := h
    by_cases hlive : b.Live
    · have hseeks : Seeks b offset (seek env b offset) := seeks hlive offset
      generalize seek env b offset = outcome at hseeks h ⊢
      cases hseeks with
      | refused _ hstatus => simp [hstatus] at h
      | latched hfailure _ => simp [hfailure] at h
      | done _ hfile => exact hfile
    · simp [(seek_of_not_live hlive offset).1] at h

end Binding
end WaveformGenerator.Artifact
