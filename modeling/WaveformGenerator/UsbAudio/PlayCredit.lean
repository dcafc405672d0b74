import WaveformGenerator.UsbAudio.Feeding
import WaveformGenerator.UsbAudio.Reopening

/-!
# The play's counts over a run

The counts describe the frames of the play whose completion has come, and nothing else.
-/

namespace WaveformGenerator.UsbAudio

namespace Bus

variable {σ : Type} [FrameSource σ]

/-- A play's counts are those of its frames in the chunks whose completion has come. -/
theorem run_credited (ops : List (Op σ)) :
    let s := run {} ops
    s.stream.play.fileFrames = .ofNat s.history.sentFrames.length ∧
    s.stream.play.pendingFrames.toNat = s.history.pendingFrames.length ∧
    s.stream.play.lastFrameIndex = (s.history.sentIndexes.getLast?.map .ofNat).getD 0 ∧
    (s.history.sentFrames.length < 2 ^ 32 →
      s.stream.play.firstFrameIndex = (s.history.sentIndexes.head?.map .ofNat).getD 0) ∧
    (s.history.openings < s.history.acceptedAt + 2 ^ 32 →
      s.history.sentFrames <+: s.history.taken ∧
      s.stream.play.crc32Left =
        crc32 (s.history.sentFrames.flatMap fun frame => pcm24Bytes frame.left) ∧
      s.stream.play.crc32Right =
        crc32 (s.history.sentFrames.flatMap fun frame => pcm24Bytes frame.right)) := by
  intro s
  have p : Credit s.stream.ledger s.history := (Inv.initial.run ops).credit
  refine ⟨p.fileFrames, p.pending, ?_, fun hfew => ?_, fun hround => ?_⟩
  · have hlast : s.stream.play.lastFrameIndex = _ := p.last
    rw [hlast, History.getLast?_sentIndexes, Option.map_map]
    rfl
  · have hfirst : s.stream.play.firstFrameIndex = _ := p.first hfew
    rw [hfirst, History.head?_sentIndexes, Option.map_map]
    rfl
  · have k := p.crc hround
    have hcrcs := crcsOf_eq s.history.sentFrames
    refine ⟨k.order, ?_, ?_⟩
    · have hleft : s.stream.play.crc32Left = _ := k.left
      rw [hleft, hcrcs.1]
      rfl
    · have hright : s.stream.play.crc32Right = _ := k.right
      rw [hright, hcrcs.2]
      rfl

/-! ## Where the counts come round -/

/-- A play begins on a new stream. -/
def playBegins : List (Op ZeroSource) :=
  [.configure, .open pcm24Stereo, .acceptPlay, .arm 0 0 none]

/-- A completion whose handler finds `frames` more frames of the play. -/
def completes (frames : FrameCount) : Op ZeroSource := .txDone ⟨384, 0, 0⟩ ⟨frames⟩

theorem run_append (s : Bus) (a b : List (Op σ)) : s.run (a ++ b) = (s.run a).run b :=
  List.foldl_append

/-- A play that sends 2^32 frames, and the first chunk after them. -/
def longPlay : List (Op ZeroSource) :=
  playBegins ++ List.replicate (3 + 1 + (2 ^ 27 - 1) + 1) (completes 32)

/-- 2^32 frames sent read as none: the next chunk's index passes for the first frame's. -/
theorem first_frame_relatched :
    (run {} longPlay).stream.play.firstFrameIndex ≠
      ((run {} longPlay).history.sentIndexes.head?.map .ofNat).getD 0 := by
  have hfill : (FrameSource.fill (⟨32⟩ : ZeroSource)).1.toNat = 32 := rfl
  -- The first chunk of the play is sent, at index 96.
  obtain ⟨s₁, hs₁⟩ : ∃ s, run {} (playBegins ++ List.replicate (3 + 1) (completes 32)) = s :=
    ⟨_, rfl⟩
  have fed₁ : s₁.Fed 32 := by
    rw [← hs₁]
    exact ⟨Inv.initial.run _, by decide +kernel, by decide +kernel, by decide +kernel,
      by decide +kernel, by decide +kernel, by decide +kernel⟩
  obtain ⟨hindexes, hsent, hcompleted⟩ : s₁.history.sentIndexes.head? = some 96 ∧
      s₁.history.sentFrames.length = 32 ∧ s₁.history.completed = 3 := by
    rw [← hs₁]
    exact ⟨by decide +kernel, by decide +kernel, by decide +kernel⟩
  -- So are the chunks up to 2^32 frames.
  obtain ⟨s₂, hs₂⟩ : ∃ s, s₁.run (List.replicate (2 ^ 27 - 1) (completes 32)) = s := ⟨_, rfl⟩
  have hops : ∀ op ∈ List.replicate (2 ^ 27 - 1) (completes 32), ∃ completion source,
      op = .txDone completion source ∧ (FrameSource.fill source).1.toNat = 32 :=
    fun op hop => ⟨_, _, List.eq_of_mem_replicate hop, hfill⟩
  obtain ⟨fed₂, hsent₂, hcompleted₂, hindexes₂⟩ := fed₁.run (by decide) hops
  rw [hs₂] at fed₂ hsent₂ hcompleted₂ hindexes₂
  rw [List.length_replicate] at hsent₂ hcompleted₂
  have hzero : s₂.stream.play.fileFrames = 0 := by
    have hfile : s₂.stream.play.fileFrames = .ofNat _ := fed₂.inv.credit.fileFrames
    rw [hfile, hsent₂, hsent]
    decide
  -- The next one latches its own index.
  have hfirst := fed₂.firstFrameIndex (by decide) ⟨384, 0, 0⟩ (⟨32⟩ : ZeroSource)
  have hindexes₃ := (fed₂.sent ⟨384, 0, 0⟩ (⟨32⟩ : ZeroSource)).2.2
  rw [if_pos hzero, hcompleted₂, hcompleted] at hfirst
  have hrun : run {} longPlay = s₂.step (completes 32) := by
    rw [longPlay, List.replicate_succ', List.replicate_add, ← List.append_assoc, ← List.append_assoc,
      run_append, run_append, hs₁, hs₂]
    rfl
  have hhead : (s₂.step (completes 32)).history.sentIndexes.head? = some 96 := by
    obtain ⟨later, hlater⟩ := hindexes₂.trans hindexes₃
    have hcompletes : s₂.step (completes 32) = s₂.step (.txDone ⟨384, 0, 0⟩ (⟨32⟩ : ZeroSource)) :=
      rfl
    rw [hcompletes, ← hlater, List.head?_append, hindexes]
    rfl
  rw [hrun, hhead]
  refine hfirst.trans_ne ?_
  decide

/-- A play whose stream closes with a frame still queued, armed again 2^32 openings later. -/
def resumedPlay : List (Op ZeroSource) :=
  playBegins ++ [completes 1, .close] ++ reopening pcm24Stereo ++
    (List.replicate (2 ^ 32 - 2) (reopening pcm24Stereo)).flatten ++
    ([.open pcm24Stereo, .arm 0 0 none] ++ List.replicate 4 (completes 1))

/-- The play is taken for one of the stream then open: its CRCs carry on over the frame lost. -/
theorem crcs_carry_on :
    (run {} resumedPlay).stream.play.crc32Left ≠
      crc32 ((run {} resumedPlay).history.sentFrames.flatMap fun frame =>
        pcm24Bytes frame.left) := by
  obtain ⟨s₁, hs₁⟩ : ∃ s,
    run {} (playBegins ++ [completes 1, .close] ++ reopening pcm24Stereo) = s := ⟨_, rfl⟩
  have hconfigured : s₁.stream.configured = true := by
    rw [← hs₁]
    decide +kernel
  have hreopening : s₁.run (reopening pcm24Stereo : List (Op ZeroSource)) = s₁.later 1 := by
    rw [← hs₁]
    decide +kernel
  have hreopenings := run_reopenings hconfigured (by decide) hreopening 0 (2 ^ 32 - 2)
  have hlater : s₁.later 0 = s₁ := by
    rw [← hs₁]
    decide +kernel
  rw [hlater, Nat.zero_add] at hreopenings
  have hrun : run {} resumedPlay = (s₁.later (2 ^ 32 - 2)).run
      ([.open pcm24Stereo, .arm 0 0 none] ++ List.replicate 4 (completes 1)) := by
    rw [← hreopenings, ← hs₁, ← run_append, ← run_append, ← List.append_assoc]
    rfl
  rw [hrun, ← hs₁]
  decide +kernel

/-- Past 2^32 frames or openings the play's counts describe other frames than those sent. -/
theorem counts_come_round :
    (run {} longPlay).stream.play.firstFrameIndex ≠
        ((run {} longPlay).history.sentIndexes.head?.map .ofNat).getD 0 ∧
      (run {} resumedPlay).stream.play.crc32Left ≠
        crc32 ((run {} resumedPlay).history.sentFrames.flatMap fun frame =>
          pcm24Bytes frame.left) :=
  ⟨first_frame_relatched, crcs_carry_on⟩

end Bus

end WaveformGenerator.UsbAudio
