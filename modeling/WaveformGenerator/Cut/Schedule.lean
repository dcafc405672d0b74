import Mathlib.Data.List.Pairwise
import WaveformGenerator.Common.Status
import WaveformGenerator.Lib.UInt

/-!
# CUT schedules (`common/cut_schedule.hpp`)

The entries of a schedule, the rules `validate` judges them by, and what a `ValidSchedule`
therefore knows: its entries are pairwise ordered and no entry is empty. The rules compare
neighbours only; `ValidSchedule.ordered` is the same fact for every pair.
-/

namespace WaveformGenerator.Cut

/-- A place in the engine's output, or a number of its frames. -/
abbrev OutputFrames := UInt32

/-- A place in the stream the play sends, after its cuts, or a number of its frames. -/
abbrev SentFrames := UInt32

inductive CutKind
  | drop
  | zero
  deriving DecidableEq, Repr

/-- One entry of a schedule: `<offset>:<length>:<drop|zero>`. -/
structure CutEntry where
  offset : OutputFrames
  length : UInt32
  kind : CutKind
  deriving DecidableEq, Repr

def maxEntries : Nat := 16
def minLength : UInt32 := 1
def maxLength : UInt32 := 4800
def maxDropBalanceFrames : UInt32 := 3 * maxLength

def lengthOutOfRange : Status := ⟨.invalidArgument, "CUT_RANGE"⟩
def entriesUnsorted : Status := ⟨.invalidArgument, "CUT_UNSORTED"⟩
def entriesOverlap : Status := ⟨.invalidArgument, "CUT_OVERLAP"⟩
def dropRunTooLong : Status := ⟨.invalidArgument, "CUT_DROP_RUN"⟩

/-- Up to `maxEntries` entries in the order they were given, judged or not. -/
structure CutList where
  entries : List CutEntry
  bounded : entries.length ≤ maxEntries

/-- The output frame just past those an entry covers: a ZERO covers none. -/
def coveredEnd (entry : CutEntry) : UInt64 :=
  let covered : UInt64 := if entry.kind = .drop then entry.length.toUInt64 else 0
  entry.offset.toUInt64 + covered

/-- Whether `later` may follow `earlier`. -/
def checkOrder (earlier later : CutEntry) : Status :=
  if later.offset < earlier.offset then
    entriesUnsorted
  else
    let zerosAtOneOffset :=
      earlier.kind = .zero ∧ later.kind = .zero ∧ later.offset = earlier.offset
    if later.offset.toUInt64 < coveredEnd earlier ∨ zerosAtOneOffset then
      entriesOverlap
    else
      .success

/-- The loop of `checkDropBalance`, from the balance and the end of the DROP before. -/
def dropBalanceFrom (balance previousEnd : UInt64) : List CutEntry → Status
  | [] => .success
  | entry :: rest =>
    if entry.kind ≠ .drop then
      dropBalanceFrom balance previousEnd rest
    else
      let between := entry.offset.toUInt64 - min previousEnd entry.offset.toUInt64
      let balance := balance - min balance between + entry.length.toUInt64
      if balance > maxDropBalanceFrames.toUInt64 then
        dropRunTooLong
      else
        dropBalanceFrom balance (coveredEnd entry) rest

/-- Whether sorted, non-overlapping entries keep the drop balance. -/
def checkDropBalance (entries : List CutEntry) : Status := dropBalanceFrom 0 0 entries

/-- The loop of `validate` over neighbouring entries: the first pair out of order. -/
def checkNeighbours : List CutEntry → Status
  | earlier :: later :: rest =>
    let ordered := checkOrder earlier later
    if !ordered.isOk then ordered else checkNeighbours (later :: rest)
  | _ => .success

/-- The checks of `validate`, in its order. -/
def checkEntries (entries : List CutEntry) : Status :=
  if entries.any fun entry => entry.length < minLength || entry.length > maxLength then
    lengthOutOfRange
  else
    let ordered := checkNeighbours entries
    if !ordered.isOk then ordered else checkDropBalance entries

/-- A schedule `validate` accepted, the only kind the stage latches. -/
structure ValidSchedule where
  list : CutList
  valid : (checkEntries list.entries).isOk = true

/-- A schedule a play can use, or the rule that refuses it. -/
def validate (list : CutList) : Result ValidSchedule :=
  if h : (checkEntries list.entries).isOk = true then
    .ok ⟨list, h⟩
  else
    .error (checkEntries list.entries)

namespace ValidSchedule

def entries (schedule : ValidSchedule) : List CutEntry := schedule.list.entries

def size (schedule : ValidSchedule) : UInt32 := .ofNat schedule.entries.length

theorem size_toNat (schedule : ValidSchedule) :
    schedule.size.toNat = schedule.entries.length :=
  toNat_ofNat32 (Nat.lt_of_le_of_lt schedule.list.bounded (by decide))

end ValidSchedule

/-! ## What the rules say of every pair of entries -/

namespace CutEntry

/-- The first output frame past those `entry` covers, without a width. -/
def past (entry : CutEntry) : Nat :=
  entry.offset.toNat + if entry.kind = .drop then entry.length.toNat else 0

theorem coveredEnd_toNat (entry : CutEntry) : (coveredEnd entry).toNat = entry.past := by
  have ho := entry.offset.toNat_lt
  have hl := entry.length.toNat_lt
  simp only [coveredEnd, past, UInt64.toNat_add, UInt32.toNat_toUInt64]
  split
  · simp; omega
  · simp

theorem offset_le_past (entry : CutEntry) : entry.offset.toNat ≤ entry.past := by
  simp [past]

/-- `later` may come anywhere after `earlier` in a schedule. -/
structure Precedes (earlier later : CutEntry) : Prop where
  past_le : earlier.past ≤ later.offset.toNat
  zeros_apart : earlier.kind = .zero → later.kind = .zero →
    earlier.offset.toNat < later.offset.toNat

theorem Precedes.of_checkOrder {earlier later : CutEntry}
    (h : (checkOrder earlier later).isOk = true) : Precedes earlier later := by
  unfold checkOrder at h
  split at h
  · simp [entriesUnsorted, Status.isOk] at h
  · rename_i hs
    dsimp only at h
    split at h
    · simp [entriesOverlap, Status.isOk] at h
    · rename_i ho
      rw [UInt32.lt_iff_toNat_lt] at hs
      rw [UInt64.lt_iff_toNat_lt, coveredEnd_toNat, UInt32.toNat_toUInt64,
        ← UInt32.toNat_inj] at ho
      refine ⟨by omega, fun he hl => ?_⟩
      have : ¬ later.offset.toNat = earlier.offset.toNat := fun heq => ho (.inr ⟨he, hl, heq⟩)
      omega

/-- Neighbours in order make every pair in order, since no entry is empty. -/
theorem Precedes.trans {a b c : CutEntry} (hb : 0 < b.length.toNat)
    (hab : Precedes a b) (hbc : Precedes b c) : Precedes a c := by
  have h1 := hab.past_le
  have h2 := hbc.past_le
  have h3 := b.offset_le_past
  refine ⟨by omega, fun ha hc => ?_⟩
  have ha' := a.offset_le_past
  cases hk : b.kind with
  | drop => simp only [past, hk, if_true] at h2; omega
  | zero => have := hbc.zeros_apart hk hc; omega

end CutEntry

open CutEntry

theorem checkNeighbours_pairwise {entries : List CutEntry}
    (hlen : ∀ entry ∈ entries, 0 < entry.length.toNat)
    (h : (checkNeighbours entries).isOk = true) : entries.Pairwise Precedes := by
  induction entries with
  | nil => exact .nil
  | cons a rest ih =>
    cases rest with
    | nil => exact List.pairwise_singleton ..
    | cons b rest =>
      simp only [checkNeighbours] at h
      split at h
      · simp_all
      · rename_i hab
        have hab : Precedes a b := .of_checkOrder (by simpa using hab)
        have hrest := ih (fun e he => hlen e (List.mem_cons_of_mem _ he)) h
        refine List.pairwise_cons.mpr ⟨fun c hc => ?_, hrest⟩
        rcases List.mem_cons.mp hc with rfl | hc
        · exact hab
        · exact hab.trans (hlen b (by simp)) (List.rel_of_pairwise_cons hrest hc)

namespace ValidSchedule

/-- What `validate` found of each rule. -/
theorem checked (schedule : ValidSchedule) :
    (∀ entry ∈ schedule.entries, 1 ≤ entry.length.toNat ∧ entry.length.toNat ≤ 4800) ∧
      (checkNeighbours schedule.entries).isOk = true ∧
      (checkDropBalance schedule.entries).isOk = true := by
  have hv := schedule.valid
  unfold checkEntries at hv
  split at hv
  · simp [lengthOutOfRange, Status.isOk] at hv
  · rename_i hr
    simp only [List.any_eq_true, Bool.or_eq_true, decide_eq_true_eq, not_exists, not_and,
      not_or, UInt32.lt_iff_toNat_lt, minLength, maxLength] at hr
    dsimp only at hv
    split at hv
    · simp_all
    · rename_i ho
      have ho : (checkNeighbours schedule.entries).isOk = true := by simpa [entries] using ho
      refine ⟨fun entry he => ?_, ho, hv⟩
      have := hr entry he
      simp at this
      omega

theorem length_pos (schedule : ValidSchedule) {entry : CutEntry}
    (h : entry ∈ schedule.entries) : 0 < entry.length.toNat :=
  (schedule.checked.1 entry h).1

theorem ordered (schedule : ValidSchedule) : schedule.entries.Pairwise Precedes :=
  checkNeighbours_pairwise (fun _ => schedule.length_pos) schedule.checked.2.1

end ValidSchedule

end WaveformGenerator.Cut
