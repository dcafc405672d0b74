import WaveformGenerator.Host.CutSchedule

/-!
# The host's prediction, entry by entry

The host accepts every schedule the board accepts. Its walk over the entries is a recursion on
where it stands in the output and in the stream: `appliedFrom` are the cuts it finds from there,
`sentFrom` the length of the stream.
-/

namespace WaveformGenerator.Host

open Cut.CutEntry (Precedes offset_le_past)

namespace CutEntry

theorem coveredEnd_ofBoard (entry : Cut.CutEntry) :
    (ofBoard entry).coveredEnd = entry.past := rfl

end CutEntry

open CutEntry

/-! ## The host accepts what the board accepts -/

variable {entries : List Cut.CutEntry}

theorem checkLengths_ofBoard
    (h : ∀ entry ∈ entries, 1 ≤ entry.length.toNat ∧ entry.length.toNat ≤ 4800) :
    checkLengths (entries.map ofBoard) = .ok () := by
  induction entries with
  | nil => rfl
  | cons entry rest ih =>
    have hrange : ¬ ¬ (minLength ≤ (ofBoard entry).length ∧ (ofBoard entry).length ≤ maxLength) :=
      not_not.mpr (h entry List.mem_cons_self)
    rw [List.map_cons, checkLengths, if_neg hrange]
    exact ih fun e he => h e (List.mem_cons_of_mem _ he)

theorem checkNeighbours_ofBoard (h : entries.Pairwise Precedes) :
    checkNeighbours (entries.map ofBoard) = .ok () := by
  induction entries with
  | nil => rfl
  | cons a rest ih =>
    cases rest with
    | nil => rfl
    | cons b rest =>
      have hab : Precedes a b := List.rel_of_pairwise_cons h List.mem_cons_self
      have hpast := hab.past_le
      have hoff := a.offset_le_past
      have hsorted : ¬ (ofBoard b).offset < (ofBoard a).offset := by
        simp only [ofBoard]; omega
      have hclear : ¬ ((ofBoard b).offset < (ofBoard a).coveredEnd ∨
          ((ofBoard a).kind = .zero ∧ (ofBoard b).kind = .zero ∧
            (ofBoard b).offset = (ofBoard a).offset)) := by
        rintro (hlt | ⟨ha, hb, heq⟩)
        · rw [coveredEnd_ofBoard] at hlt
          simp only [ofBoard] at hlt
          omega
        · have := hab.zeros_apart ha hb
          simp only [ofBoard] at heq
          omega
      rw [List.map_cons, List.map_cons, checkNeighbours, if_neg hsorted, if_neg hclear]
      exact ih (List.pairwise_cons.mp h).2

/-- Both sides keep the same balance: the board's 64-bit one never wraps. -/
theorem balance_toNat {balance previousEnd : UInt64} {entry : Cut.CutEntry}
    (hlen : entry.length.toNat ≤ 4800) (hb : balance.toNat ≤ maxDropBalance) :
    (balance - min balance (entry.offset.toUInt64 - min previousEnd entry.offset.toUInt64) +
      entry.length.toUInt64).toNat =
      balance.toNat - (entry.offset.toNat - previousEnd.toNat) + entry.length.toNat := by
  simp only [maxDropBalance, maxLength] at hb
  have hmin : min previousEnd entry.offset.toUInt64 ≤ entry.offset.toUInt64 := by
    rw [UInt64.le_iff_toNat_le, toNat_min64]; omega
  have hmin' : ∀ x : UInt64, min balance x ≤ balance := fun x => by
    rw [UInt64.le_iff_toNat_le, toNat_min64]; omega
  rw [UInt64.toNat_add, UInt64.toNat_sub_of_le _ _ (hmin' _), toNat_min64,
    UInt64.toNat_sub_of_le _ _ hmin, toNat_min64]
  simp only [UInt32.toNat_toUInt64]
  omega

theorem dropBalanceFrom_ofBoard {balance previousEnd : UInt64} {highest : Nat}
    (hlen : ∀ entry ∈ entries, entry.length.toNat ≤ 4800)
    (hb : balance.toNat ≤ maxDropBalance) (hh : highest ≤ maxDropBalance)
    (h : (Cut.dropBalanceFrom balance previousEnd entries).isOk = true) :
    dropBalanceFrom balance.toNat highest previousEnd.toNat (entries.map ofBoard) ≤
      maxDropBalance := by
  induction entries generalizing balance previousEnd highest with
  | nil => exact hh
  | cons entry rest ih =>
    have hrest : ∀ e ∈ rest, e.length.toNat ≤ 4800 := fun e he =>
      hlen e (List.mem_cons_of_mem _ he)
    have hentry := hlen entry List.mem_cons_self
    rw [Cut.dropBalanceFrom] at h
    rw [List.map_cons, dropBalanceFrom]
    split at h
    · rename_i hk
      rw [if_pos (show (ofBoard entry).kind ≠ .drop from hk)]
      exact ih hrest hb hh h
    · rename_i hk
      rw [if_neg (show ¬ (ofBoard entry).kind ≠ .drop from hk)]
      dsimp only at h
      split at h
      · simp [Cut.dropRunTooLong, Status.isOk] at h
      rename_i hle
      have hnext := @balance_toNat balance previousEnd entry hentry hb
      generalize balance -
          min balance (entry.offset.toUInt64 - min previousEnd entry.offset.toUInt64) +
            entry.length.toUInt64 = next at h hle hnext
      have hnextle : next.toNat ≤ maxDropBalance := by
        have : next.toNat ≤ Cut.maxDropBalanceFrames.toUInt64.toNat :=
          UInt64.le_iff_toNat_le.mp (UInt64.not_lt.mp hle)
        exact this
      have hmax : max highest next.toNat ≤ maxDropBalance := by omega
      have hih := ih hrest hnextle hmax h
      rw [Cut.CutEntry.coveredEnd_toNat, hnext] at hih
      exact hih

theorem validate_ofBoard (schedule : Cut.ValidSchedule) :
    validate (schedule.entries.map ofBoard) = .ok (schedule.entries.map ofBoard) := by
  obtain ⟨hlen, -, hbal⟩ := schedule.checked
  have hcount : ¬ (schedule.entries.map ofBoard).length > maxEntries := by
    have : schedule.entries.length ≤ 16 := schedule.list.bounded
    rw [List.length_map, maxEntries]
    omega
  have hdrop : ¬ dropBalance (schedule.entries.map ofBoard) > maxDropBalance := by
    have hzero : (0 : UInt64).toNat ≤ maxDropBalance := Nat.zero_le _
    have hbal : (Cut.dropBalanceFrom 0 0 schedule.entries).isOk = true := hbal
    exact Nat.not_lt.mpr (dropBalanceFrom_ofBoard (fun e he => (hlen e he).2) hzero hzero hbal)
  simp only [validate, if_neg hcount, checkLengths_ofBoard hlen,
    checkNeighbours_ofBoard schedule.ordered, if_neg hdrop]
  rfl

/-! ## The walk over the entries -/

/-- The cuts that take effect from output frame `at_` on, `sent` frames of the stream before it. -/
def appliedFrom (fileFrames at_ sent : Nat) : List Cut.CutEntry → List AppliedCut
  | [] => []
  | entry :: later =>
    if fileFrames ≤ entry.offset.toNat then
      appliedFrom fileFrames at_ sent later
    else
      let before := sent + (entry.offset.toNat - at_)
      match entry.kind with
      | .zero =>
        ⟨before, entry.length.toNat, .zero⟩ ::
          appliedFrom fileFrames entry.offset.toNat (before + entry.length.toNat) later
      | .drop =>
        let skipped := min entry.length.toNat (fileFrames - entry.offset.toNat)
        ⟨before, skipped, .drop⟩ ::
          appliedFrom fileFrames (entry.offset.toNat + skipped) before later

/-- The stream's frames, from the same place. -/
def sentFrom (fileFrames at_ sent : Nat) : List Cut.CutEntry → Nat
  | [] => sent + (fileFrames - at_)
  | entry :: later =>
    if fileFrames ≤ entry.offset.toNat then
      sentFrom fileFrames at_ sent later
    else
      let before := sent + (entry.offset.toNat - at_)
      match entry.kind with
      | .zero => sentFrom fileFrames entry.offset.toNat (before + entry.length.toNat) later
      | .drop =>
        let skipped := min entry.length.toNat (fileFrames - entry.offset.toNat)
        sentFrom fileFrames (entry.offset.toNat + skipped) before later

example : sentFrom 10 0 0 [⟨2, 3, .zero⟩, ⟨4, 2, .drop⟩] = 11 := by decide +kernel

def rejectedOf (fileFrames : Nat) (entries : List Cut.CutEntry) : Nat :=
  entries.countP (fileFrames ≤ ·.offset.toNat)

@[simp] theorem Walk.advance_sent (walk : Walk) (offset : Nat) :
    (walk.advance offset).sent = walk.sent + (offset - walk.at_) := by
  unfold advance
  split
  · rfl
  · rw [Nat.sub_eq_zero_of_le (by omega), Nat.add_zero]

@[simp] theorem Walk.advance_applied (walk : Walk) (offset : Nat) :
    (walk.advance offset).applied = walk.applied := by
  unfold advance
  split <;> rfl

@[simp] theorem Walk.advance_rejected (walk : Walk) (offset : Nat) :
    (walk.advance offset).rejected = walk.rejected := by
  unfold advance
  split <;> rfl

theorem Walk.close_eq (walk : Walk) (fileFrames : Nat) :
    (walk.close fileFrames).applied = walk.applied ∧
      (walk.close fileFrames).rejected = walk.rejected ∧
      (walk.close fileFrames).frames = walk.sent + (fileFrames - walk.at_) := by
  unfold close
  split
  · simp
  · refine ⟨rfl, rfl, ?_⟩
    rw [Nat.sub_eq_zero_of_le (by omega), Nat.add_zero]

theorem Walk.foldl_close (fileFrames : Nat) (walk : Walk) (entries : List Cut.CutEntry) :
    let stream := ((entries.map ofBoard).foldl (Walk.entry fileFrames) walk).close fileFrames
    stream.applied = walk.applied ++ appliedFrom fileFrames walk.at_ walk.sent entries ∧
      stream.rejected = walk.rejected + rejectedOf fileFrames entries ∧
      stream.frames = sentFrom fileFrames walk.at_ walk.sent entries := by
  induction entries generalizing walk with
  | nil => simpa [appliedFrom, sentFrom, rejectedOf] using walk.close_eq fileFrames
  | cons entry later ih =>
    simp only [List.map_cons, List.foldl_cons]
    have := ih (walk.entry fileFrames (ofBoard entry))
    by_cases hpast : fileFrames ≤ entry.offset.toNat
    · simp only [Walk.entry, ofBoard, ge_iff_le, hpast, if_true] at this ⊢
      simp only [appliedFrom, sentFrom, rejectedOf, hpast, if_true, List.countP_cons,
        decide_true] at this ⊢
      exact ⟨this.1, by rw [this.2.1]; omega, this.2.2⟩
    · cases hk : entry.kind <;>
      · simp only [Walk.entry, ofBoard, ge_iff_le, hpast, hk, if_false, if_true, reduceCtorEq,
          Walk.advance_sent, Walk.advance_applied, Walk.advance_rejected,
          List.append_assoc, List.singleton_append] at this ⊢
        simpa only [appliedFrom, sentFrom, rejectedOf, hpast, hk, if_false, List.countP_cons,
          decide_false, Bool.false_eq_true, Nat.add_zero] using this

/-- What `apply` predicts for a schedule of the board. -/
theorem apply_ofBoard (schedule : Cut.ValidSchedule) (fileFrames : Nat) :
    ∃ stream, apply (schedule.entries.map ofBoard) fileFrames = .ok stream ∧
      stream.applied = appliedFrom fileFrames 0 0 schedule.entries ∧
      stream.rejected = rejectedOf fileFrames schedule.entries ∧
      stream.frames = sentFrom fileFrames 0 0 schedule.entries := by
  have hwalk := Walk.foldl_close fileFrames {} schedule.entries
  simp only [List.nil_append, Nat.zero_add] at hwalk
  refine ⟨_, ?_, hwalk⟩
  rw [apply, validate_ofBoard]
  rfl

/-! ## Where the walk stands -/

variable {fileFrames at_ sent : Nat}

theorem appliedFrom_of_past (h : ∀ entry ∈ entries, fileFrames ≤ entry.offset.toNat) :
    appliedFrom fileFrames at_ sent entries = [] := by
  induction entries with
  | nil => rfl
  | cons entry later ih =>
    rw [appliedFrom, if_pos (h entry List.mem_cons_self)]
    exact ih fun e he => h e (List.mem_cons_of_mem _ he)

theorem sentFrom_of_past (h : ∀ entry ∈ entries, fileFrames ≤ entry.offset.toNat) :
    sentFrom fileFrames at_ sent entries = sent + (fileFrames - at_) := by
  induction entries with
  | nil => rfl
  | cons entry later ih =>
    rw [sentFrom, if_pos (h entry List.mem_cons_self)]
    exact ih fun e he => h e (List.mem_cons_of_mem _ he)

theorem appliedFrom_cons_zero {entry : Cut.CutEntry} (hk : entry.kind = .zero)
    (ho : entry.offset.toNat < fileFrames) (later : List Cut.CutEntry) :
    appliedFrom fileFrames at_ sent (entry :: later) =
      ⟨sent + (entry.offset.toNat - at_), entry.length.toNat, .zero⟩ ::
        appliedFrom fileFrames entry.offset.toNat
          (sent + (entry.offset.toNat - at_) + entry.length.toNat) later := by
  rw [appliedFrom, if_neg (by omega), hk]

theorem appliedFrom_cons_drop {entry : Cut.CutEntry} (hk : entry.kind = .drop)
    (ho : entry.offset.toNat < fileFrames) (later : List Cut.CutEntry) :
    appliedFrom fileFrames at_ sent (entry :: later) =
      ⟨sent + (entry.offset.toNat - at_),
          min entry.length.toNat (fileFrames - entry.offset.toNat), .drop⟩ ::
        appliedFrom fileFrames
          (entry.offset.toNat + min entry.length.toNat (fileFrames - entry.offset.toNat))
          (sent + (entry.offset.toNat - at_)) later := by
  rw [appliedFrom, if_neg (by omega), hk]

theorem sentFrom_cons_zero {entry : Cut.CutEntry} (hk : entry.kind = .zero)
    (ho : entry.offset.toNat < fileFrames) (later : List Cut.CutEntry) :
    sentFrom fileFrames at_ sent (entry :: later) =
      sentFrom fileFrames entry.offset.toNat
        (sent + (entry.offset.toNat - at_) + entry.length.toNat) later := by
  rw [sentFrom, if_neg (by omega), hk]

theorem sentFrom_cons_drop {entry : Cut.CutEntry} (hk : entry.kind = .drop)
    (ho : entry.offset.toNat < fileFrames) (later : List Cut.CutEntry) :
    sentFrom fileFrames at_ sent (entry :: later) =
      sentFrom fileFrames
        (entry.offset.toNat + min entry.length.toNat (fileFrames - entry.offset.toNat))
        (sent + (entry.offset.toNat - at_)) later := by
  rw [sentFrom, if_neg (by omega), hk]

/-- No cut takes effect before the place the walk stands at. -/
theorem le_position_of_mem {cut : AppliedCut}
    (h : cut ∈ appliedFrom fileFrames at_ sent entries) : sent ≤ cut.position := by
  induction entries generalizing at_ sent with
  | nil => nomatch h
  | cons entry later ih =>
    by_cases ho : fileFrames ≤ entry.offset.toNat
    · rw [appliedFrom, if_pos ho] at h
      exact ih h
    · cases hk : entry.kind with
      | zero =>
        rw [appliedFrom_cons_zero hk (by omega)] at h
        rcases List.mem_cons.mp h with rfl | h
        · exact Nat.le_add_right ..
        · have := ih h; omega
      | drop =>
        rw [appliedFrom_cons_drop hk (by omega)] at h
        rcases List.mem_cons.mp h with rfl | h
        · exact Nat.le_add_right ..
        · have := ih h; omega

theorem le_sentFrom : sent ≤ sentFrom fileFrames at_ sent entries := by
  induction entries generalizing at_ sent with
  | nil => exact Nat.le_add_right ..
  | cons entry later ih =>
    by_cases ho : fileFrames ≤ entry.offset.toNat
    · rw [sentFrom, if_pos ho]
      exact ih
    · cases hk : entry.kind with
      | zero =>
        rw [sentFrom_cons_zero hk (by omega)]
        refine Nat.le_trans ?_ ih
        omega
      | drop =>
        rw [sentFrom_cons_drop hk (by omega)]
        refine Nat.le_trans ?_ ih
        omega

/-- Every cut lies within the stream, a ZERO with all its zeros. -/
theorem cut_le_sentFrom {cut : AppliedCut}
    (h : cut ∈ appliedFrom fileFrames at_ sent entries) :
    cut.position + (if cut.kind = .drop then 0 else cut.frames) ≤
      sentFrom fileFrames at_ sent entries := by
  induction entries generalizing at_ sent with
  | nil => nomatch h
  | cons entry later ih =>
    by_cases ho : fileFrames ≤ entry.offset.toNat
    · rw [appliedFrom, if_pos ho] at h
      rw [sentFrom, if_pos ho]
      exact ih h
    · cases hk : entry.kind with
      | zero =>
        rw [appliedFrom_cons_zero hk (by omega)] at h
        rw [sentFrom_cons_zero hk (by omega)]
        rcases List.mem_cons.mp h with rfl | h
        · exact le_sentFrom
        · exact ih h
      | drop =>
        rw [appliedFrom_cons_drop hk (by omega)] at h
        rw [sentFrom_cons_drop hk (by omega)]
        rcases List.mem_cons.mp h with rfl | h
        · exact le_sentFrom
        · exact ih h

/-- Output frames before every entry move both places of the walk alike. -/
theorem walk_advance {m : Nat} (hm : at_ + m ≤ fileFrames)
    (h : ∀ entry ∈ entries, at_ + m ≤ entry.offset.toNat) :
    appliedFrom fileFrames (at_ + m) (sent + m) entries = appliedFrom fileFrames at_ sent entries ∧
      sentFrom fileFrames (at_ + m) (sent + m) entries = sentFrom fileFrames at_ sent entries := by
  induction entries with
  | nil => exact ⟨rfl, by simp only [sentFrom]; omega⟩
  | cons entry later ih =>
    have hentry := h entry List.mem_cons_self
    have hbefore : sent + m + (entry.offset.toNat - (at_ + m)) =
        sent + (entry.offset.toNat - at_) := by omega
    by_cases ho : fileFrames ≤ entry.offset.toNat
    · simp only [appliedFrom, sentFrom, if_pos ho]
      exact ih fun e he => h e (List.mem_cons_of_mem _ he)
    · simp only [appliedFrom, sentFrom, if_neg ho, hbefore, and_self]

end WaveformGenerator.Host
