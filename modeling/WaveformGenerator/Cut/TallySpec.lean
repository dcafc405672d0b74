import WaveformGenerator.Cut.Log
import WaveformGenerator.Cut.Reference
import WaveformGenerator.Lib.UpTo

/-!
# What a tally should say

A prefix of a cut stream is a prefix of the reference walk: the marks up to its last frame sent,
or all of them once the whole stream went out. `CutTally.Exact` reads every value of a tally off
these marks.
-/

namespace WaveformGenerator.Cut

variable {α : Type}

namespace Mark

/-- The entry a mark comes from, if a cut made it. -/
def cut? : Mark α → Option CutEntry
  | frame _ => none
  | zero entry => some entry
  | drop entry => some entry

@[simp] theorem cut?_frame (sample : α) : (frame sample).cut? = none := rfl
@[simp] theorem cut?_zero (entry : CutEntry) : (zero entry : Mark α).cut? = some entry := rfl
@[simp] theorem cut?_drop (entry : CutEntry) : (drop entry : Mark α).cut? = some entry := rfl

end Mark

/-- The marks behind the first `sent` frames of the stream, or all once it is sent whole. -/
def seen (entries : List CutEntry) (output : List α) (whole : Bool) (sent : Nat) :
    List (Mark α) :=
  if whole then walk entries 0 output else upTo Mark.isSent sent (walk entries 0 output)

/-- The entries a cut of which is among the marks. -/
def appliedIn (entries : List CutEntry) (marks : List (Mark α)) : Nat :=
  entries.countP fun entry => marks.any (·.cut? == some entry)

/-- The frames sent before the first cut among the marks. -/
def firstCut (marks : List (Mark α)) : Option Nat :=
  if marks.any (·.cut?.isSome) then
    some ((marks.takeWhile fun mark => !mark.cut?.isSome).countP Mark.isSent)
  else
    none

example : firstCut [.frame 7, .zero ⟨1, 2, .zero⟩, .frame 8] = some 1 := by decide +kernel

/-- The entries at or past the end of the output. -/
def pastEnd (entries : List CutEntry) (output : List α) : Nat :=
  entries.countP (output.length ≤ ·.offset.toNat)

/-- `tally` says exactly what the first `sent` frames hold; `whole` when they are all of a stream
that has ended. -/
structure CutTally.Exact (entries : List CutEntry) (output : List α) (whole : Bool)
    (sent : SentFrames) (tally : CutTally) : Prop where
  ofPrefix : tally.sent = sent
  zeroFrames : tally.zeroFrames.toNat =
    (seen entries output whole sent.toNat).countP Mark.isZero
  dropFrames : tally.dropFrames.toNat =
    (seen entries output whole sent.toNat).countP Mark.isDrop
  /-- The subtraction and the addition do not wrap. -/
  outputFrames : (tally.outputFrames.toNat : Int) =
    sent.toNat - tally.zeroFrames.toNat + tally.dropFrames.toNat
  applied : tally.applied.toNat = appliedIn entries (seen entries output whole sent.toNat)
  first : tally.first.map (·.toNat) = firstCut (seen entries output whole sent.toNat)
  rejected : tally.rejected.toNat = if whole then pastEnd entries output else 0

/-! ## The walk, entry by entry -/

open CutEntry

/-- The marks of the output frames from `at_` on under the entries from there on: up to each entry
the frames before it, then its zeros or the frames it drops. -/
inductive Laid (fileFrames : Nat) : Nat → List CutEntry → List (Mark α) → Prop
  /-- No entry left before the end of the output. -/
  | rest {at_ : Nat} {entries : List CutEntry} {frames : List α}
      (past : ∀ entry ∈ entries, fileFrames ≤ entry.offset.toNat)
      (at_le : at_ ≤ fileFrames) (length : frames.length = fileFrames - at_) :
    Laid fileFrames at_ entries (frames.map .frame)
  | zero {at_ : Nat} {entry : CutEntry} {later : List CutEntry} {frames : List α}
      {marks : List (Mark α)} (kind : entry.kind = .zero)
      (inside : entry.offset.toNat < fileFrames) (at_le : at_ ≤ entry.offset.toNat)
      (length_pos : 0 < entry.length.toNat) (fresh : entry ∉ later)
      (length : frames.length = entry.offset.toNat - at_)
      (next : Laid fileFrames entry.offset.toNat later marks) :
    Laid fileFrames at_ (entry :: later)
      (frames.map .frame ++ (List.replicate entry.length.toNat (.zero entry) ++ marks))
  | drop {at_ : Nat} {entry : CutEntry} {later : List CutEntry} {frames : List α}
      {marks : List (Mark α)} (kind : entry.kind = .drop)
      (inside : entry.offset.toNat < fileFrames) (at_le : at_ ≤ entry.offset.toNat)
      (length_pos : 0 < entry.length.toNat) (fresh : entry ∉ later)
      (length : frames.length = entry.offset.toNat - at_)
      (next : Laid fileFrames
        (entry.offset.toNat + min entry.length.toNat (fileFrames - entry.offset.toNat))
        later marks) :
    Laid fileFrames at_ (entry :: later)
      (frames.map .frame ++
        (List.replicate (min entry.length.toNat (fileFrames - entry.offset.toNat))
          (.drop entry) ++ marks))

/-- A valid schedule's entries are distinct. -/
theorem fresh_of_precedes {entry : CutEntry} {later : List CutEntry}
    (hl : 0 < entry.length.toNat) (h : ∀ e ∈ later, Precedes entry e) : entry ∉ later := by
  intro hm
  have hself := h entry hm
  have := hself.past_le
  cases hk : entry.kind with
  | drop => simp only [past, hk, if_true] at this; omega
  | zero => have := hself.zeros_apart hk hk; omega

/-- The reference walk is laid out so. -/
theorem walk_laid (output : List α) {at_ : Nat} {entries : List CutEntry}
    (hlen : ∀ entry ∈ entries, 0 < entry.length.toNat) (hord : entries.Pairwise Precedes)
    (hat : ∀ entry ∈ entries, at_ ≤ entry.offset.toNat) (hle : at_ ≤ output.length) :
    Laid output.length at_ entries (walk entries at_ (output.drop at_)) := by
  induction entries generalizing at_ with
  | nil =>
    have : walk [] at_ (output.drop at_ ++ []) = _ :=
      walk_append_of_clear (output.drop at_) [] fun _ h => nomatch h
    rw [List.append_nil, walk, List.append_nil] at this
    rw [this]
    exact .rest (fun _ h => nomatch h) hle (by simp)
  | cons entry later ih =>
    have hpos := hlen entry List.mem_cons_self
    have hatle := hat entry List.mem_cons_self
    obtain ⟨hprec, hlater⟩ := List.pairwise_cons.mp hord
    have hsorted : ∀ e ∈ entry :: later, entry.offset.toNat ≤ e.offset.toNat := by
      intro e he
      rcases List.mem_cons.mp he with rfl | he
      · exact Nat.le_refl _
      · exact Nat.le_trans entry.offset_le_past (hprec e he).past_le
    by_cases ho : output.length ≤ entry.offset.toNat
    · have hpast : ∀ e ∈ entry :: later, output.length ≤ e.offset.toNat := fun e he =>
        Nat.le_trans ho (hsorted e he)
      have : walk (entry :: later) at_ (output.drop at_ ++ []) = _ :=
        walk_append_of_clear (output.drop at_) [] (fun e he => by have := hpast e he; rw [List.length_drop]; omega)
      rw [List.append_nil, walk, List.append_nil] at this
      rw [this]
      exact .rest hpast hle (by simp)
    · have hlenl := fun e he => hlen e (List.mem_cons_of_mem _ he)
      have hframes : ((output.drop at_).take (entry.offset.toNat - at_)).length =
          entry.offset.toNat - at_ := by
        rw [List.length_take, List.length_drop]; omega
      have hsplit : output.drop at_ =
          (output.drop at_).take (entry.offset.toNat - at_) ++
            output.drop entry.offset.toNat := by
        have := (List.take_append_drop (entry.offset.toNat - at_) (output.drop at_)).symm
        rwa [List.drop_drop, show at_ + (entry.offset.toNat - at_) = entry.offset.toNat by
          omega] at this
      have hclear : walk (entry :: later) at_
          ((output.drop at_).take (entry.offset.toNat - at_) ++
            output.drop entry.offset.toNat) = _ := walk_append_of_clear _ _ (fun e he => by have := hsorted e he; rw [hframes]; omega)
      rw [← hsplit, hframes, show at_ + (entry.offset.toNat - at_) = entry.offset.toNat by
        omega] at hclear
      rw [hclear]
      cases hk : entry.kind with
      | zero =>
        rw [walk_zero hk rfl hprec (by rw [Ne, List.drop_eq_nil_iff]; omega)]
        refine .zero hk (by omega) hatle hpos (fresh_of_precedes hpos hprec) hframes ?_
        exact ih hlenl hlater
          (fun e he => hsorted e (List.mem_cons_of_mem _ he)) (by omega)
      | drop =>
        have hpast : entry.past = entry.offset.toNat + entry.length.toNat := by simp [past, hk]
        generalize hsk : min entry.length.toNat (output.length - entry.offset.toNat) = skipped
        have hdropped : ((output.drop entry.offset.toNat).take skipped).length = skipped := by
          rw [List.length_take, List.length_drop]; omega
        have hcut := walk_drop (i := entry.offset.toNat)
          ((output.drop entry.offset.toNat).take skipped)
          (output.drop (entry.offset.toNat + skipped)) hk (Nat.le_refl _)
          (by rw [hdropped]; omega) hprec
        rw [← List.drop_drop, List.take_append_drop, hdropped, List.drop_drop] at hcut
        rw [hcut]
        -- The DROP ends with its range, or with the output.
        have hbehind : walk (entry :: later) (entry.offset.toNat + skipped)
            (output.drop (entry.offset.toNat + skipped)) =
              walk later (entry.offset.toNat + skipped)
                (output.drop (entry.offset.toNat + skipped)) := by
          rcases Nat.lt_or_ge (entry.offset.toNat + skipped) output.length with hin | hend
          · exact walk_of_past hk (by omega) _
          · rw [List.drop_eq_nil_of_le hend]; rfl
        rw [hbehind, ← hsk]
        refine .drop hk (by omega) hatle hpos (fresh_of_precedes hpos hprec) hframes ?_
        rw [hsk]
        exact ih hlenl hlater
          (fun e he => by have := (hprec e he).past_le; omega) (by omega)

end WaveformGenerator.Cut
