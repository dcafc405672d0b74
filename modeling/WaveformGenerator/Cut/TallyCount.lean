import WaveformGenerator.Cut.TallySpec
import WaveformGenerator.Host.Prediction

/-!
# The cuts of a prefix, counted

The marks behind the first `n` frames of a walk hold what the predicted cuts positioned before
`n` amount to: one cut for each entry seen, a DROP with all its frames and a ZERO with the zeros
among the `n`.
-/

namespace WaveformGenerator.Cut

open CutEntry Mark
open Host (appliedFrom sentFrom)

variable {α : Type} {fileFrames at_ : Nat} {entries : List CutEntry} {marks : List (Mark α)}

def zerosOf (cuts : List Host.AppliedCut) (n : Nat) : Nat :=
  (cuts.map fun cut => if cut.kind = .drop then 0 else min cut.frames (n - cut.position)).sum

def dropsOf (cuts : List Host.AppliedCut) : Nat :=
  (cuts.map fun cut => if cut.kind = .drop then cut.frames else 0).sum

example : zerosOf [⟨2, 3, .zero⟩, ⟨9, 4, .drop⟩] 4 = 2 ∧
    dropsOf [⟨2, 3, .zero⟩, ⟨9, 4, .drop⟩] = 4 := by decide +kernel

/-- The cuts that take effect before frame `n` of the stream. -/
def cutsBefore (n : Nat) (cuts : List Host.AppliedCut) : List Host.AppliedCut :=
  cuts.filter (·.position < n)

@[simp] theorem cutsBefore_nil (n : Nat) : cutsBefore n [] = [] := rfl

theorem cutsBefore_eq_nil {n : Nat} {cuts : List Host.AppliedCut}
    (h : ∀ cut ∈ cuts, n ≤ cut.position) : cutsBefore n cuts = [] := by
  rw [cutsBefore, List.filter_eq_nil_iff]
  intro cut hc
  have := h cut hc
  simpa using this

theorem cutsBefore_cons_of_lt {n : Nat} {cut : Host.AppliedCut} (h : cut.position < n)
    (cuts : List Host.AppliedCut) : cutsBefore n (cut :: cuts) = cut :: cutsBefore n cuts := by
  simp [cutsBefore, h]

/-! ## Marks of plain frames -/

section
variable (frames : List α)

theorem countP_isSent_frames : (frames.map frame).countP isSent = frames.length := by
  simp

theorem countP_isZero_frames : (frames.map frame).countP isZero = 0 := by
  simp

theorem countP_isDrop_frames : (frames.map frame).countP isDrop = 0 := by
  simp

theorem firstCut_frames : firstCut (frames.map frame) = none := by
  simp [firstCut]

/-- A cut after plain frames is the first one. -/
theorem firstCut_append {mark : Mark α} (h : mark.cut?.isSome = true) (marks : List (Mark α)) :
    firstCut (frames.map frame ++ mark :: marks) = some frames.length := by
  have htake : (frames.map frame ++ mark :: marks).takeWhile (fun mark => !mark.cut?.isSome) =
      frames.map frame := by
    rw [List.takeWhile_append_of_pos (by simp), List.takeWhile_cons_of_neg (by simp [h]),
      List.append_nil]
  rw [firstCut, if_pos (by simp [h]), htake, countP_isSent_frames]

end

/-! ## One entry after another -/

/-- The marks hold what the cuts amount to. -/
structure Counts (entries : List CutEntry) (marks : List (Mark α)) (n : Nat)
    (cuts : List Host.AppliedCut) : Prop where
  zeros : marks.countP isZero = zerosOf cuts n
  drops : marks.countP isDrop = dropsOf cuts
  applied : appliedIn entries marks = cuts.length

theorem Counts.frames (entries : List CutEntry) (frames : List α) (n : Nat) :
    Counts entries (frames.map frame) n [] where
  zeros := countP_isZero_frames frames
  drops := countP_isDrop_frames frames
  applied := by simp [appliedIn]

theorem appliedIn_cons {entry : CutEntry} {later : List CutEntry} (frames : List α)
    {mark : Mark α} (hm : mark.cut? = some entry) {k : Nat} (hk : 0 < k) (fresh : entry ∉ later)
    (marks : List (Mark α)) :
    appliedIn (entry :: later) (frames.map frame ++ (List.replicate k mark ++ marks)) =
      appliedIn later marks + 1 := by
  have hother : ∀ e ∈ later, ((frames.map frame ++ (List.replicate k mark ++ marks)).any
      (·.cut? == some e)) = marks.any (·.cut? == some e) := by
    intro e he
    have hne : (entry == e) = false := beq_false_of_ne fun h => fresh (h ▸ he)
    simp [Function.comp_def, hm, hne]
  have hself : ((frames.map frame ++ (List.replicate k mark ++ marks)).any
      (·.cut? == some entry)) = true := by
    simp [hm]
    omega
  rw [appliedIn, List.countP_cons, if_pos hself, appliedIn]
  congr 1
  exact List.countP_congr fun e he => by rw [hother e he]

theorem Counts.zero {entry : CutEntry} {later : List CutEntry} {n k position : Nat}
    {cuts : List Host.AppliedCut} (h : Counts later marks n cuts) (fresh : entry ∉ later)
    (hk : k = min entry.length.toNat (n - position)) (pos : 0 < k) (frames : List α) :
    Counts (entry :: later) (frames.map .frame ++ (List.replicate k (.zero entry) ++ marks)) n
      (⟨position, entry.length.toNat, .zero⟩ :: cuts) where
  zeros := by
    simp only [List.countP_append, countP_isZero_frames, List.countP_replicate, isZero_zero, if_true,
      h.zeros, zerosOf, List.map_cons, reduceCtorEq, if_false, List.sum_cons, ← hk, Nat.zero_add]
  drops := by
    simp [List.countP_append, List.countP_replicate, h.drops, dropsOf]
  applied := by
    rw [appliedIn_cons frames rfl pos fresh, h.applied, List.length_cons]

theorem Counts.drop {entry : CutEntry} {later : List CutEntry} {n k position : Nat}
    {cuts : List Host.AppliedCut} (h : Counts later marks n cuts) (fresh : entry ∉ later)
    (pos : 0 < k) (frames : List α) :
    Counts (entry :: later) (frames.map .frame ++ (List.replicate k (.drop entry) ++ marks)) n
      (⟨position, k, .drop⟩ :: cuts) where
  zeros := by
    simp [List.countP_append, List.countP_replicate, h.zeros, zerosOf]
  drops := by
    simp [List.countP_append, List.countP_replicate, h.drops, dropsOf]
  applied := by
    rw [appliedIn_cons frames rfl pos fresh, h.applied, List.length_cons]

/-- Where the prefix ends before the first entry, it holds plain frames only. -/
theorem upTo_frames {n : Nat} {frames : List α} (h : n ≤ frames.length) (rest : List (Mark α)) :
    upTo isSent n (frames.map .frame ++ rest) = (frames.take n).map .frame := by
  rw [upTo_append_of_le isSent (by rwa [countP_isSent_frames]), upTo_eq_take isSent (by simp),
    List.map_take]

/-- A prefix of the walk holds what the cuts before its end amount to. -/
theorem Laid.counts (h : Laid fileFrames at_ entries marks) (sent n : Nat) :
    Counts entries (upTo isSent n marks) (sent + n)
        (cutsBefore (sent + n) (appliedFrom fileFrames at_ sent entries)) ∧
      (firstCut (upTo isSent n marks)).map (sent + ·) =
        (cutsBefore (sent + n) (appliedFrom fileFrames at_ sent entries)).head?.map
          (·.position) := by
  induction h generalizing sent n with
  | @rest at_ entries frames past at_le length =>
    rw [Host.appliedFrom_of_past past, cutsBefore_nil]
    rw [upTo_eq_take isSent (by simp), ← List.map_take]
    exact ⟨.frames entries _ _, by rw [firstCut_frames]; rfl⟩
  | @zero at_ entry later frames marks kind inside at_le length_pos fresh length next ih =>
    rw [Host.appliedFrom_cons_zero kind inside, ← length]
    rcases (Nat.lt_or_ge frames.length n).symm with hn | hn
    · have hnone : ∀ cut ∈ Host.AppliedCut.mk (sent + frames.length) entry.length.toNat .zero ::
          appliedFrom fileFrames entry.offset.toNat
            (sent + frames.length + entry.length.toNat) later, sent + n ≤ cut.position := by
        intro cut hc
        rcases List.mem_cons.mp hc with rfl | hc
        · simpa using hn
        · have := Host.le_position_of_mem hc; omega
      rw [upTo_frames hn, cutsBefore_eq_nil hnone]
      exact ⟨.frames _ _ _, by rw [firstCut_frames]; rfl⟩
    · rw [cutsBefore_cons_of_lt (by simpa using hn),
        upTo_append_of_lt isSent (by rwa [countP_isSent_frames]), countP_isSent_frames]
      have hzeros : (List.replicate entry.length.toNat (Mark.zero (α := α) entry)).countP isSent =
          entry.length.toNat := by simp [List.countP_replicate]
      rcases (Nat.lt_or_ge entry.length.toNat (n - frames.length)).symm with hin | hpast
      · -- The prefix ends among this ZERO's zeros.
        have hnone : cutsBefore (sent + n) (appliedFrom fileFrames entry.offset.toNat
            (sent + frames.length + entry.length.toNat) later) = [] :=
          cutsBefore_eq_nil fun cut hc => by have := Host.le_position_of_mem hc; omega
        have hseen : upTo isSent (n - frames.length)
            (List.replicate entry.length.toNat (Mark.zero entry) ++ marks) =
              List.replicate (n - frames.length) (.zero entry) ++ ([] : List (Mark α)) := by
          rw [upTo_append_of_le isSent (by omega),
            upTo_eq_take isSent (by simp), List.take_replicate, List.append_nil,
            Nat.min_eq_left hin]
        rw [hnone, hseen]
        refine ⟨.zero (.frames later [] _) fresh (by omega) (by omega) frames, ?_⟩
        obtain ⟨k, hk⟩ : ∃ k, n - frames.length = k + 1 := ⟨n - frames.length - 1, by omega⟩
        rw [hk, List.replicate_succ, List.cons_append, firstCut_append frames rfl]
        rfl
      · have hih := ih (sent + frames.length + entry.length.toNat)
          (n - frames.length - entry.length.toNat)
        rw [show sent + frames.length + entry.length.toNat +
          (n - frames.length - entry.length.toNat) = sent + n by omega] at hih
        rw [upTo_append_of_lt isSent (by omega), hzeros]
        refine ⟨.zero hih.1 fresh (by omega) length_pos frames, ?_⟩
        obtain ⟨k, hk⟩ : ∃ k, entry.length.toNat = k + 1 := ⟨entry.length.toNat - 1, by omega⟩
        rw [hk, List.replicate_succ, List.cons_append, firstCut_append frames rfl]
        rfl
  | @drop at_ entry later frames marks kind inside at_le length_pos fresh length next ih =>
    rw [Host.appliedFrom_cons_drop kind inside, ← length]
    generalize hsk : min entry.length.toNat (fileFrames - entry.offset.toNat) = skipped at ih
    rcases (Nat.lt_or_ge frames.length n).symm with hn | hn
    · have hnone : ∀ cut ∈ Host.AppliedCut.mk (sent + frames.length) skipped .drop ::
          appliedFrom fileFrames (entry.offset.toNat + skipped)
            (sent + frames.length) later, sent + n ≤ cut.position := by
        intro cut hc
        rcases List.mem_cons.mp hc with rfl | hc
        · simpa using hn
        · have := Host.le_position_of_mem hc; omega
      rw [upTo_frames hn, cutsBefore_eq_nil hnone]
      exact ⟨.frames _ _ _, by rw [firstCut_frames]; rfl⟩
    · have hdrops : (List.replicate skipped (Mark.drop (α := α) entry)).countP isSent = 0 := by
        simp [List.countP_replicate]
      have hih := ih (sent + frames.length) (n - frames.length)
      rw [show sent + frames.length + (n - frames.length) = sent + n by omega] at hih
      rw [cutsBefore_cons_of_lt (by simpa using hn),
        upTo_append_of_lt isSent (by rwa [countP_isSent_frames]), countP_isSent_frames,
        upTo_append_of_lt isSent (by omega), hdrops, Nat.sub_zero]
      refine ⟨.drop hih.1 fresh (by omega) frames, ?_⟩
      obtain ⟨k, hk⟩ : ∃ k, skipped = k + 1 := ⟨skipped - 1, by omega⟩
      rw [hk, List.replicate_succ, List.cons_append, firstCut_append frames rfl]
      rfl

/-- The predicted length of the stream is the number of marks sent. -/
theorem Laid.sentFrom_eq (h : Laid fileFrames at_ entries marks) (sent : Nat) :
    sentFrom fileFrames at_ sent entries = sent + marks.countP isSent := by
  induction h generalizing sent with
  | rest past at_le length =>
    rw [Host.sentFrom_of_past past, countP_isSent_frames, length]
  | zero kind inside at_le length_pos fresh length next ih =>
    rw [Host.sentFrom_cons_zero kind inside, ih, ← length]
    simp [List.countP_replicate]
    omega
  | drop kind inside at_le length_pos fresh length next ih =>
    rw [Host.sentFrom_cons_drop kind inside, ih, ← length]
    simp [List.countP_replicate]
    omega

/-! ## What a schedule's cuts can come to -/

/-- The zeros of a schedule. -/
def zeroLength (entries : List CutEntry) : Nat :=
  (entries.map fun entry => if entry.kind = .zero then entry.length.toNat else 0).sum

theorem Laid.zeros_le (h : Laid fileFrames at_ entries marks) :
    marks.countP isZero ≤ zeroLength entries := by
  induction h with
  | rest => rw [countP_isZero_frames]; exact Nat.zero_le _
  | zero kind inside at_le length_pos fresh length next ih =>
    simp [List.countP_replicate, zeroLength, kind] at ih ⊢
    omega
  | drop kind inside at_le length_pos fresh length next ih =>
    simp [List.countP_replicate, zeroLength, kind] at ih ⊢
    omega

/-- The marks that are not zeros are those of the output frames. -/
theorem countP_output (entries : List CutEntry) (i : Nat) (output : List α) :
    (walk entries i output).countP (!·.isZero) = output.length := by
  induction output generalizing i with
  | nil => rfl
  | cons sample rest ih =>
    have hz : (zerosBefore (α := α) entries i).countP (!·.isZero) = 0 := by
      unfold zerosBefore
      split <;> simp [List.countP_replicate]
    have hf : (frameMark entries i sample).isZero = false := by
      unfold frameMark
      split <;> rfl
    rw [walk, List.countP_append, List.countP_cons, hz, ih, hf, List.length_cons]
    simp

theorem countP_isSent_add (marks : List (Mark α)) :
    marks.countP isSent + marks.countP isDrop =
      marks.countP isZero + marks.countP (!·.isZero) := by
  induction marks with
  | nil => rfl
  | cons mark marks ih =>
    cases mark <;> simp [List.countP_cons] <;> omega

end WaveformGenerator.Cut
