import WaveformGenerator.Cut.TallyCount

/-!
# The tally of a log

A tally adds up the cuts that took effect. A log is faithful to a prediction while the cuts it
lacks lie at or past the frames emitted so far; then its tally of any frames emitted is exact, and
the one the host predicts.
-/

namespace WaveformGenerator.Cut

open CutEntry Mark
open Host (appliedFrom sentFrom)

/-- A cut as the host predicts it. -/
def AppliedCut.toHost (cut : AppliedCut) : Host.AppliedCut :=
  ⟨cut.position.toNat, cut.frames.toNat, cut.kind⟩

/-- The values of a tally as the host reports them. -/
def CutTally.toHost (tally : CutTally) : Host.Tally where
  sentFrames := tally.sent.toNat
  fileFrames := tally.outputFrames.toNat
  cutCount := tally.applied.toNat
  cutDropFrames := tally.dropFrames.toNat
  cutZeroFrames := tally.zeroFrames.toNat
  cutFirstPosition := tally.first.map (·.toNat)
  cutRejected := tally.rejected.toNat

/-! ## Sums over the cuts that took effect -/

theorem dropsOf_cons (cut : Host.AppliedCut) (cuts : List Host.AppliedCut) :
    dropsOf (cut :: cuts) = (if cut.kind = .drop then cut.frames else 0) + dropsOf cuts := by
  simp [dropsOf]

theorem zerosOf_cons (cut : Host.AppliedCut) (cuts : List Host.AppliedCut) (n : Nat) :
    zerosOf (cut :: cuts) n =
      (if cut.kind = .drop then 0 else min cut.frames (n - cut.position)) + zerosOf cuts n := by
  simp [zerosOf]

theorem ofNat_min_sub (frames : UInt32) {position sent : UInt32} (h : position ≤ sent) :
    min frames (sent - position) = .ofNat (min frames.toNat (sent.toNat - position.toNat)) := by
  have hf := frames.toNat_lt
  rw [← UInt32.toNat_inj, toNat_min32, UInt32.toNat_sub_of_le _ _ h, toNat_ofNat32 (by omega)]

theorem CutLog.foldl_count {cuts : List AppliedCut} {start : CutTally}
    (h : ∀ cut ∈ cuts, cut.position ≤ start.sent) :
    cuts.foldl CutLog.count start = { start with
      applied := start.applied + .ofNat cuts.length
      dropFrames := start.dropFrames + .ofNat (dropsOf (cuts.map AppliedCut.toHost))
      zeroFrames := start.zeroFrames +
        .ofNat (zerosOf (cuts.map AppliedCut.toHost) start.sent.toNat)
      first := start.first.or (cuts.head?.map (·.position)) } := by
  induction cuts generalizing start with
  | nil => simp [dropsOf, zerosOf]
  | cons cut cuts ih =>
    have hcut := ofNat_min_sub cut.frames (h cut List.mem_cons_self)
    have hsent : (count start cut).sent = start.sent := by
      unfold count; split <;> rfl
    rw [List.foldl_cons, ih fun c hc => by
      rw [hsent]; exact h c (List.mem_cons_of_mem _ hc)]
    rw [List.map_cons, dropsOf_cons, zerosOf_cons, hsent]
    cases hk : cut.kind with
    | drop =>
      simp only [count, hk, if_true, AppliedCut.toHost, UInt32.ofNat_add, UInt32.ofNat_toNat,
        List.length_cons, List.head?_cons, Option.map_some, Option.or_assoc, Option.some_or,
        UInt32.add_assoc, Nat.zero_add]
      simp [UInt32.add_comm]
    | zero =>
      simp only [count, hk, if_false, reduceCtorEq, AppliedCut.toHost, UInt32.ofNat_add, hcut,
        List.length_cons, List.head?_cons, Option.map_some, Option.or_assoc, Option.some_or,
        UInt32.add_assoc, Nat.zero_add]
      simp [UInt32.add_comm]

theorem CutLog.foldl_tookEffect (log : CutLog) (cuts : List AppliedCut) (sent : SentFrames)
    (start : CutTally) :
    cuts.foldl (fun tally cut => if log.tookEffect cut sent then count tally cut else tally)
      start = (cuts.filter (log.tookEffect · sent)).foldl count start :=
  List.foldl_filter.symm

theorem foldl_hostCut (stream : Host.CutStream) (cuts : List Host.AppliedCut)
    (start : Host.Tally) :
    let kept := cuts.filter fun cut => start.sentFrames > cut.position ∨
      (start.sentFrames = stream.frames ∧ cut.position = stream.frames)
    cuts.foldl (Host.Tally.cut stream) start = { start with
      cutCount := start.cutCount + kept.length
      cutDropFrames := start.cutDropFrames + dropsOf kept
      cutZeroFrames := start.cutZeroFrames + zerosOf kept start.sentFrames
      cutFirstPosition := start.cutFirstPosition.or (kept.head?.map (·.position)) } := by
  induction cuts generalizing start with
  | nil => simp [dropsOf, zerosOf]
  | cons cut cuts ih =>
    have hsent : (Host.Tally.cut stream start cut).sentFrames = start.sentFrames := by
      unfold Host.Tally.cut; dsimp only; split <;> [rfl; split <;> rfl]
    simp only [List.foldl_cons, ih, hsent]
    by_cases hc : start.sentFrames > cut.position ∨
        (start.sentFrames = stream.frames ∧ cut.position = stream.frames)
    · rw [List.filter_cons_of_pos (by simpa using hc)]
      simp only [dropsOf_cons, zerosOf_cons, List.length_cons, List.head?_cons, Option.map_some]
      cases hk : cut.kind with
      | drop =>
        simp [Host.Tally.cut, hc, hk]
        omega
      | zero =>
        simp [Host.Tally.cut, hc, hk]
        omega
    · rw [List.filter_cons_of_neg (by simpa using hc)]
      simp only [Host.Tally.cut, hc, not_false_eq_true, if_true]

/-! ## A faithful log -/

variable {α : Type}

/-- The cuts predicted for a schedule and an output. -/
def predicted (entries : List CutEntry) (output : List α) : List Host.AppliedCut :=
  appliedFrom output.length 0 0 entries

/-- The stream's frames predicted. -/
def streamFrames (entries : List CutEntry) (output : List α) : Nat :=
  sentFrom output.length 0 0 entries

/-- The log of a play that has put `emitted` frames into its stream. -/
structure CutLog.Faithful (entries : List CutEntry) (output : List α) (emitted : Nat)
    (log : CutLog) : Prop where
  logged : ∃ unlogged, log.applied.map AppliedCut.toHost ++ unlogged = predicted entries output ∧
    ∀ cut ∈ unlogged, emitted ≤ cut.position
  emitted_le : emitted ≤ streamFrames entries output
  whole : log.ended = true →
    log.applied.map AppliedCut.toHost = predicted entries output ∧
      log.endFrames.toNat = streamFrames entries output ∧
      log.rejected.toNat = pastEnd entries output

/-- The cuts that take effect within a prefix. -/
def cutsWithin (entries : List CutEntry) (output : List α) (whole : Bool) (sent : Nat) :
    List Host.AppliedCut :=
  if whole then predicted entries output else cutsBefore sent (predicted entries output)

section
variable {entries : List CutEntry} {output : List α} {emitted : Nat} {log : CutLog}
  {sent : SentFrames}

theorem CutLog.wholeStream_iff :
    log.wholeStream sent = true ↔ log.ended = true ∧ sent.toNat = log.endFrames.toNat := by
  simp [wholeStream, UInt32.toNat_inj]

theorem CutLog.Faithful.mono {fewer : Nat} (h : log.Faithful entries output emitted)
    (hle : fewer ≤ emitted) : log.Faithful entries output fewer where
  logged := by
    obtain ⟨unlogged, hlog, hpos⟩ := h.logged
    exact ⟨unlogged, hlog, fun cut hc => Nat.le_trans hle (hpos cut hc)⟩
  emitted_le := Nat.le_trans hle h.emitted_le
  whole := h.whole

theorem CutLog.Faithful.kept (h : log.Faithful entries output emitted)
    (hs : sent.toNat ≤ emitted) :
    (log.applied.filter (log.tookEffect · sent)).map AppliedCut.toHost =
      cutsWithin entries output (log.wholeStream sent) sent.toNat := by
  cases hw : log.wholeStream sent with
  | true =>
    obtain ⟨hended, hsent⟩ := wholeStream_iff.mp hw
    obtain ⟨happlied, hend, -⟩ := h.whole hended
    rw [cutsWithin, if_pos rfl, ← happlied, List.filter_eq_self.mpr]
    intro cut hc
    have hmem : cut.toHost ∈ predicted entries output :=
      happlied ▸ List.mem_map_of_mem hc
    have hle : cut.position.toNat ≤ streamFrames entries output :=
      Nat.le_trans (Nat.le_add_right ..) (Host.cut_le_sentFrom hmem)
    simp only [tookEffect, hw, Bool.true_and, gt_iff_lt, Bool.or_eq_true, decide_eq_true_eq,
      beq_iff_eq, UInt32.lt_iff_toNat_lt, ← UInt32.toNat_inj]
    omega
  | false =>
    obtain ⟨unlogged, hlog, hpos⟩ := h.logged
    have hnone : cutsBefore sent.toNat unlogged = [] :=
      cutsBefore_eq_nil fun cut hc => Nat.le_trans hs (hpos cut hc)
    rw [cutsWithin, if_neg Bool.false_ne_true, ← hlog, cutsBefore, List.filter_append,
      show unlogged.filter _ = [] from hnone, List.append_nil, List.filter_map]
    congr 1
    apply List.filter_congr
    intro cut _
    rw [tookEffect, hw, Bool.false_and, Bool.or_false]
    exact decide_eq_decide.mpr UInt32.lt_iff_toNat_lt

theorem CutLog.Faithful.tally_eq (h : log.Faithful entries output emitted)
    (hs : sent.toNat ≤ emitted) :
    let cuts := cutsWithin entries output (log.wholeStream sent) sent.toNat
    (log.tally sent).applied = .ofNat cuts.length ∧
      (log.tally sent).dropFrames = .ofNat (dropsOf cuts) ∧
      (log.tally sent).zeroFrames = .ofNat (zerosOf cuts sent.toNat) ∧
      (log.tally sent).first.map (·.toNat) = cuts.head?.map (·.position) ∧
      (log.tally sent).rejected = (if log.wholeStream sent then log.rejected else 0) ∧
      (log.tally sent).sent = sent ∧
      (log.tally sent).outputFrames =
        sent - (log.tally sent).zeroFrames + (log.tally sent).dropFrames := by
  have htook : ∀ cut ∈ log.applied.filter (log.tookEffect · sent), cut.position ≤ sent := by
    intro cut hc
    have := (List.mem_filter.mp hc).2
    simp only [tookEffect, wholeStream, gt_iff_lt, Bool.or_eq_true, Bool.and_eq_true,
      decide_eq_true_eq, beq_iff_eq, UInt32.lt_iff_toNat_lt] at this
    rw [UInt32.le_iff_toNat_le]
    rcases this with hlt | ⟨⟨-, hsent⟩, hpos⟩
    · omega
    · rw [hsent, hpos]
  rw [← h.kept hs]
  simp only [tally, foldl_tookEffect]
  rw [foldl_count htook]
  simp [AppliedCut.toHost, List.head?_map, Option.map_map, Function.comp_def]

/-! ## The marks of a prefix and the cuts within it -/

/-- What the walk behind the first `sent` frames holds, in terms of the cuts within them. -/
theorem seen_counts (schedule : ValidSchedule) (output : List α) (whole : Bool) {sent : Nat}
    (hs : sent ≤ streamFrames schedule.entries output)
    (hw : whole = true → sent = streamFrames schedule.entries output) :
    let marks := seen schedule.entries output whole sent
    let cuts := cutsWithin schedule.entries output whole sent
    Counts schedule.entries marks sent cuts ∧
      firstCut marks = cuts.head?.map (·.position) ∧ marks.countP isSent = sent ∧
      marks.countP (!·.isZero) ≤ output.length := by
  have hlaid : Laid output.length 0 schedule.entries (walk schedule.entries 0 output) := by
    have := walk_laid output (fun _ => schedule.length_pos) schedule.ordered
      (fun _ _ => Nat.zero_le _) (Nat.zero_le _)
    rwa [List.drop_zero] at this
  have htotal : streamFrames schedule.entries output =
      (walk schedule.entries 0 output).countP isSent := by
    rw [streamFrames, hlaid.sentFrom_eq, Nat.zero_add]
  have houtput := countP_output schedule.entries 0 output
  cases whole with
  | false =>
    obtain ⟨hc, hf⟩ := hlaid.counts 0 sent
    simp only [Nat.zero_add, Option.map_id_fun', id] at hc hf
    simp only [seen, cutsWithin, Bool.false_eq_true, if_false]
    refine ⟨hc, hf, countP_upTo_of_le _ (htotal ▸ hs), ?_⟩
    rw [← houtput]
    exact (upTo_sublist _ _ _).countP_le
  | true =>
    -- All the marks are those up to a frame past the last one.
    obtain ⟨hc, hf⟩ := hlaid.counts 0 (sent + 1)
    have hall : cutsBefore (sent + 1) (predicted schedule.entries output) =
        predicted schedule.entries output := by
      refine List.filter_eq_self.mpr fun cut hm => ?_
      have := Host.cut_le_sentFrom hm
      have := hw rfl
      simp only [streamFrames] at this
      simp only [decide_eq_true_eq]
      omega
    have hzeros : zerosOf (predicted schedule.entries output) (sent + 1) =
        zerosOf (predicted schedule.entries output) sent := by
      refine congrArg List.sum (List.map_congr_left fun cut hm => ?_)
      have := Host.cut_le_sentFrom hm
      have := hw rfl
      simp only [streamFrames] at this
      split <;> rename_i hk
      · rfl
      · rw [if_neg hk] at *
        omega
    rw [upTo_of_countP_lt _ (by rw [← htotal, hw rfl]; omega), Nat.zero_add] at hc hf
    rw [show appliedFrom output.length 0 0 schedule.entries =
      predicted schedule.entries output from rfl, hall] at hc hf
    simp only [Nat.zero_add, Option.map_id_fun', id] at hf
    simp only [seen, cutsWithin, if_true]
    exact ⟨⟨hc.zeros.trans hzeros, hc.drops, hc.applied⟩, hf,
      by rw [hw rfl, htotal], Nat.le_of_eq houtput⟩

/-! ## The tally of a faithful log -/

variable {schedule : ValidSchedule}

theorem CutLog.Faithful.whole_sent (h : log.Faithful entries output emitted)
    (hw : log.wholeStream sent = true) : sent.toNat = streamFrames entries output := by
  obtain ⟨hended, hsent⟩ := wholeStream_iff.mp hw
  rw [hsent, (h.whole hended).2.1]

theorem CutLog.Faithful.exact (h : log.Faithful schedule.entries output emitted)
    (hN : output.length + zeroLength schedule.entries < 2 ^ 32) (hs : sent.toNat ≤ emitted) :
    (log.tally sent).Exact schedule.entries output (log.wholeStream sent) sent := by
  obtain ⟨happlied, hdrop, hzero, hfirst, hrejected, hsent, houtput⟩ := h.tally_eq hs
  obtain ⟨hcounts, hcut, hmarks, hout⟩ := seen_counts schedule output (log.wholeStream sent)
    (Nat.le_trans hs h.emitted_le) h.whole_sent
  generalize cutsWithin schedule.entries output (log.wholeStream sent) sent.toNat = cuts at *
  generalize hseen : seen schedule.entries output (log.wholeStream sent) sent.toNat = marks at *
  have hsum := countP_isSent_add marks
  have hzle : marks.countP isZero ≤ marks.countP isSent :=
    List.countP_mono_left fun mark _ => by cases mark <;> simp
  have hwidth := sent.toNat_lt
  have hz : (log.tally sent).zeroFrames.toNat = marks.countP isZero := by
    rw [hzero, ← hcounts.zeros, toNat_ofNat32 (by omega)]
  have hd : (log.tally sent).dropFrames.toNat = marks.countP isDrop := by
    rw [hdrop, ← hcounts.drops, toNat_ofNat32 (by omega)]
  have hentries : appliedIn schedule.entries marks ≤ 16 :=
    Nat.le_trans List.countP_le_length schedule.list.bounded
  refine ⟨hsent, by rw [hseen]; exact hz, by rw [hseen]; exact hd, ?_, ?_, ?_, ?_⟩
  · rw [houtput, UInt32.toNat_add, UInt32.toNat_sub_of_le _ _ (by
      rw [UInt32.le_iff_toNat_le, hz]; omega), hz, hd]
    omega
  · rw [happlied, hseen, ← hcounts.applied, toNat_ofNat32]
    omega
  · rw [hfirst, hseen, hcut]
  · rw [hrejected]
    split <;> rename_i hw
    · exact (h.whole (wholeStream_iff.mp hw).1).2.2
    · rfl

/-- Where the prefix falls short of the stream, or the stream has ended, the host's tally of the
predicted stream is the board's. -/
theorem CutLog.Faithful.host (h : log.Faithful schedule.entries output emitted)
    (hN : output.length + zeroLength schedule.entries < 2 ^ 32) (hs : sent.toNat ≤ emitted)
    (hended : log.ended = true ∨ sent.toNat < streamFrames schedule.entries output) :
    ∃ stream, Host.apply (schedule.entries.map .ofBoard) output.length = .ok stream ∧
      Host.tally stream (some sent.toNat) = .ok (log.tally sent).toHost := by
  obtain ⟨stream, happly, happlied, hrejected, hframes⟩ :=
    Host.apply_ofBoard schedule output.length
  refine ⟨stream, happly, ?_⟩
  have hframes : stream.frames = streamFrames schedule.entries output := hframes
  have hle := Nat.le_trans hs h.emitted_le
  have hwhole : log.wholeStream sent = decide (sent.toNat = stream.frames) := by
    rw [Bool.eq_iff_iff, CutLog.wholeStream_iff, decide_eq_true_eq, hframes]
    constructor
    · rintro ⟨hended, hsent⟩
      rw [hsent, (h.whole hended).2.1]
    · intro hsent
      rcases hended with hended | hlt
      · exact ⟨hended, by rw [hsent, (h.whole hended).2.1]⟩
      · omega
  have hkept : (stream.applied.filter fun cut => sent.toNat > cut.position ∨
      (sent.toNat = stream.frames ∧ cut.position = stream.frames)) =
        cutsWithin schedule.entries output (log.wholeStream sent) sent.toNat := by
    rw [happlied, hwhole]
    by_cases hsent : sent.toNat = stream.frames
    · rw [cutsWithin, if_pos (decide_eq_true hsent)]
      refine List.filter_eq_self.mpr fun cut hm => ?_
      have := Host.cut_le_sentFrom hm
      simp only [decide_eq_true_eq]
      simp only [streamFrames] at hframes
      omega
    · rw [cutsWithin, if_neg (by simpa using hsent)]
      refine List.filter_congr fun cut _ => ?_
      simp [hsent]
  have hexact := h.exact hN hs
  obtain ⟨hcounts, hcut, -, -⟩ := seen_counts schedule output (log.wholeStream sent) hle
    h.whole_sent
  have hrej : (if sent.toNat = stream.frames then stream.rejected else 0) =
      (log.tally sent).rejected.toNat := by
    rw [hexact.rejected, hwhole, hrejected]
    simp [Host.rejectedOf, pastEnd]
  have hfold := foldl_hostCut stream stream.applied
    { sentFrames := sent.toNat, fileFrames := sent.toNat, cutRejected :=
        if sent.toNat = stream.frames then stream.rejected else 0 }
  simp only [hkept, ← hcounts.applied, ← hcounts.drops, ← hcounts.zeros, ← hcut,
    ← hexact.applied, ← hexact.dropFrames, ← hexact.zeroFrames, ← hexact.first,
    Nat.zero_add, Option.none_or, hrej] at hfold
  simp only [Host.tally, Option.getD_some, if_neg (Nat.not_lt.mpr (hframes ▸ hle)), hrej, hfold,
    CutTally.toHost, hexact.ofPrefix, hexact.outputFrames]

end

end WaveformGenerator.Cut
