import WaveformGenerator.Cut.Stage

/-!
# What the CUT stage's operations do

`NextStep` lists every step the stage may give and what is known when it gives it;
`CutStage.next_spec` is the one place where the body of `next` is taken apart. One lemma a step
then says what `take` makes of it.
-/

namespace WaveformGenerator.Cut

open CutEntry

namespace CutStage

/-- The entries not begun, and the DROP under way before them. -/
def pending (stage : CutStage) : List CutEntry :=
  stage.schedule.entries.drop stage.nextEntry.toNat

theorem pendingEntry_eq (stage : CutStage) : stage.pendingEntry = stage.pending.head? := by
  have hs := stage.schedule.size_toNat
  simp only [pendingEntry, pending, List.head?_drop, ge_iff_le, UInt32.le_iff_toNat_le, hs]
  split
  · rename_i h
    exact (List.getElem?_eq_none h).symm
  · rfl

theorem size_sub_nextEntry {stage : CutStage}
    (h : stage.nextEntry.toNat ≤ stage.schedule.entries.length) :
    (stage.schedule.size - stage.nextEntry).toNat = stage.pending.length := by
  have hs := stage.schedule.size_toNat
  rw [UInt32.toNat_sub_of_le _ _ (by rw [UInt32.le_iff_toNat_le]; omega), hs, pending,
    List.length_drop]

/-- The stage stands at the next entry `entry`, the later ones after it. -/
theorem pending_succ {stage : CutStage} {entry : CutEntry} {later : List CutEntry}
    (h : stage.pending = entry :: later) :
    stage.nextEntry.toNat < stage.schedule.entries.length ∧
      (stage.nextEntry + 1).toNat = stage.nextEntry.toNat + 1 ∧
      stage.schedule.entries.drop (stage.nextEntry.toNat + 1) = later := by
  have hb := stage.schedule.list.bounded
  have hlt : stage.nextEntry.toNat < stage.schedule.entries.length := by
    by_contra hn
    rw [pending, List.drop_eq_nil_of_le (by omega)] at h
    cases h
  have hlen : stage.schedule.entries.length ≤ 16 := hb
  refine ⟨hlt, by simp [UInt32.toNat_add]; omega, ?_⟩
  have := congrArg List.tail h
  rwa [pending, List.tail_drop, List.tail_cons] at this

/-- Past the next entry, the later ones are pending. -/
theorem pending_of_next {stage stage' : CutStage} {entry : CutEntry} {later : List CutEntry}
    (h : stage.pending = entry :: later) (hs : stage'.schedule = stage.schedule)
    (hn : stage'.nextEntry = stage.nextEntry + 1) : stage'.pending = later := by
  obtain ⟨-, hsucc, hlater⟩ := pending_succ h
  rw [pending, hs, hn, hsucc, hlater]

theorem pending_of_size {stage : CutStage} (h : stage.nextEntry = stage.schedule.size) :
    stage.pending = [] := by
  rw [pending, h, ValidSchedule.size_toNat, List.drop_length]

theorem pending_sublist (stage : CutStage) : stage.pending.Sublist stage.schedule.entries :=
  List.drop_sublist ..

theorem pending_ordered (stage : CutStage) : stage.pending.Pairwise Precedes :=
  stage.schedule.ordered.sublist stage.pending_sublist

theorem pending_length_pos {stage : CutStage} {entry : CutEntry} (h : entry ∈ stage.pending) :
    0 < entry.length.toNat :=
  stage.schedule.length_pos (stage.pending_sublist.subset h)

theorem precedes_of_pending {stage : CutStage} {entry : CutEntry} {later : List CutEntry}
    (h : stage.pending = entry :: later) : ∀ e ∈ later, Precedes entry e :=
  fun _ he => List.rel_of_pairwise_cons (h ▸ stage.pending_ordered) he

/-- The invariant of the stage's counters: it never passes the frames offered, and no entry lies
behind it but a DROP under way. -/
structure Inv (stage : CutStage) : Prop where
  entry_le : stage.nextEntry.toNat ≤ stage.schedule.entries.length
  position_le : stage.position.toNat ≤ stage.offered.toNat
  ahead : ∀ entry ∈ stage.pending, entry.offset.toNat < stage.position.toNat →
    stage.pending.head? = some entry ∧ entry.kind = .drop ∧ stage.position.toNat < entry.past
  finished : stage.finished = true → stage.pending = []

theorem Inv.latch (schedule : ValidSchedule) : (CutStage.latch schedule).Inv where
  entry_le := Nat.zero_le _
  position_le := Nat.le_refl _
  ahead _ _ h := absurd h (Nat.not_lt_zero _)
  finished h := nomatch h

variable {stage : CutStage}

theorem Inv.onHand_toNat (h : stage.Inv) :
    stage.onHand.toNat = stage.offered.toNat - stage.position.toNat :=
  UInt32.toNat_sub_of_le _ _ (UInt32.le_iff_toNat_le.mpr h.position_le)

/-- The steps the stage may give, and what is known of the stage then. -/
inductive NextStep (stage : CutStage) : CutStep → Prop
  /-- The next part of the ZERO under way. -/
  | zeros (m : UInt32) (pos : 0 < m.toNat) (le : m.toNat ≤ stage.zerosLeft.toNat) :
    NextStep stage ⟨.zeros, m⟩
  | pull (noZeros : stage.zerosLeft.toNat = 0) (used : stage.onHand.toNat = 0)
      (running : stage.finished = false) : NextStep stage ⟨.pull, 0⟩
  | «end» (noZeros : stage.zerosLeft.toNat = 0) (used : stage.onHand.toNat = 0)
      (finished : stage.finished = true) : NextStep stage ⟨.«end», 0⟩
  /-- A ZERO begins: its first zeros. -/
  | insert (entry : CutEntry) (later : List CutEntry) (m : UInt32)
      (noZeros : stage.zerosLeft.toNat = 0) (onHand : 0 < stage.onHand.toNat)
      (pending : stage.pending = entry :: later) (kind : entry.kind = .zero)
      (offset : entry.offset.toNat = stage.position.toNat)
      (pos : 0 < m.toNat) (le : m.toNat ≤ entry.length.toNat) : NextStep stage ⟨.zeros, m⟩
  | discard (entry : CutEntry) (later : List CutEntry) (m : UInt32)
      (noZeros : stage.zerosLeft.toNat = 0)
      (pending : stage.pending = entry :: later) (kind : entry.kind = .drop)
      (offset : entry.offset.toNat ≤ stage.position.toNat)
      (pos : 0 < m.toNat) (covered : stage.position.toNat + m.toNat ≤ entry.past)
      (le : m.toNat ≤ stage.onHand.toNat) : NextStep stage ⟨.discard, m⟩
  | send (m : UInt32) (noZeros : stage.zerosLeft.toNat = 0)
      (clear : ∀ entry ∈ stage.pending,
        stage.position.toNat + m.toNat ≤ entry.offset.toNat)
      (pos : 0 < m.toNat) (le : m.toNat ≤ stage.onHand.toNat) : NextStep stage ⟨.send, m⟩

theorem begin_spec (h : stage.Inv) (hz : stage.zerosLeft.toNat = 0)
    (hon : 0 < stage.onHand.toNat) {entry : CutEntry} {later : List CutEntry}
    (hp : stage.pending = entry :: later) (ho : entry.offset.toNat ≤ stage.position.toNat)
    {most : UInt32} (hm : 0 < most.toNat) :
    NextStep stage (stage.begin entry most stage.onHand) := by
  have hmem : entry ∈ stage.pending := hp ▸ List.mem_cons_self
  have hlen := pending_length_pos hmem
  unfold begin
  split
  · rename_i hk
    have hoff : entry.offset.toNat = stage.position.toNat := by
      by_contra hn
      have := (h.ahead entry hmem (by omega)).2.1
      simp [hk] at this
    refine .insert entry later _ hz hon hp hk hoff ?_ ?_ <;> rw [toNat_min32] <;> omega
  · rename_i hk
    have hk : entry.kind = .drop := by cases hc : entry.kind <;> simp_all
    have hpast : entry.past = entry.offset.toNat + entry.length.toNat := by simp [past, hk]
    have hunder : stage.position.toNat < entry.past := by
      rcases Nat.lt_or_ge entry.offset.toNat stage.position.toNat with hlt | hge
      · exact (h.ahead entry hmem hlt).2.2
      · omega
    have hsub : (stage.position - entry.offset).toNat =
        stage.position.toNat - entry.offset.toNat :=
      UInt32.toNat_sub_of_le _ _ (UInt32.le_iff_toNat_le.mpr ho)
    have hleft : (entry.length - (stage.position - entry.offset)).toNat =
        entry.length.toNat - (stage.position.toNat - entry.offset.toNat) := by
      rw [UInt32.toNat_sub_of_le _ _ (by rw [UInt32.le_iff_toNat_le]; omega), hsub]
    refine .discard entry later _ hz hp hk ho ?_ ?_ ?_ <;>
      rw [toNat_min32, hleft] <;> omega

theorem sendStep_spec (hz : stage.zerosLeft.toNat = 0)
    (hon : 0 < stage.onHand.toNat)
    (hahead : ∀ entry ∈ stage.pending, stage.position.toNat < entry.offset.toNat)
    {most : UInt32} (hm : 0 < most.toNat) :
    NextStep stage (stage.sendStep stage.pending.head? most stage.onHand) := by
  unfold sendStep
  cases hp : stage.pending with
  | nil =>
    refine .send _ hz (by simp [hp]) ?_ ?_ <;> simp only [List.head?_nil, toNat_min32] <;> omega
  | cons entry later =>
    have he := hahead entry (hp ▸ List.mem_cons_self)
    have hsub : (entry.offset - stage.position).toNat =
        entry.offset.toNat - stage.position.toNat :=
      UInt32.toNat_sub_of_le _ _ (by rw [UInt32.le_iff_toNat_le]; omega)
    have hle : ∀ e ∈ stage.pending, entry.offset.toNat ≤ e.offset.toNat := by
      intro e hm
      rcases List.mem_cons.mp (hp ▸ hm) with rfl | hm
      · exact Nat.le_refl _
      · have := (precedes_of_pending hp e hm).past_le
        have := entry.offset_le_past
        omega
    refine .send _ hz (fun e hm => ?_) ?_ ?_ <;>
      simp only [List.head?_cons, toNat_min32, hsub]
    · have := hle e hm
      omega
    · omega
    · omega

theorem next_spec (h : stage.Inv) (limit : StepLimit) : NextStep stage (stage.next limit) := by
  have hm : 0 < limit.frames.toNat := by
    have := limit.pos
    rw [Ne, ← UInt32.toNat_inj] at this
    simpa [Nat.pos_iff_ne_zero] using this
  unfold next
  split
  · rename_i hz
    have hz : stage.zerosLeft.toNat ≠ 0 := by rwa [Ne, ← UInt32.toNat_inj] at hz
    refine .zeros _ ?_ ?_ <;> rw [toNat_min32] <;> omega
  rename_i hz
  have hz : stage.zerosLeft.toNat = 0 := by
    rwa [Ne, not_not, ← UInt32.toNat_inj] at hz
  split
  · rename_i ho
    have ho : stage.onHand.toNat = 0 := by rwa [← UInt32.toNat_inj] at ho
    cases hf : stage.finished with
    | true => exact .«end» hz ho hf
    | false => exact .pull hz ho hf
  rename_i ho
  have ho : 0 < stage.onHand.toNat := by
    rw [← UInt32.toNat_inj] at ho
    exact Nat.pos_of_ne_zero ho
  rw [pendingEntry_eq]
  cases hp : stage.pending with
  | nil =>
    have := sendStep_spec hz ho (by simp [hp]) hm
    rwa [hp] at this
  | cons entry later =>
    simp only [List.head?_cons]
    split
    · rename_i hle
      exact begin_spec h hz ho hp (UInt32.le_iff_toNat_le.mp hle) hm
    · rename_i hlt
      rw [UInt32.le_iff_toNat_le] at hlt
      have := sendStep_spec hz ho (fun e hm => ?_) hm
      · rwa [hp] at this
      · rcases List.mem_cons.mp (hp ▸ hm) with rfl | hm
        · omega
        · have := (precedes_of_pending hp e hm).past_le
          have := entry.offset_le_past
          omega

/-- At the end of everything the stage gives the end. -/
theorem next_of_finished (limit : StepLimit) (hf : stage.finished = true)
    (hz : stage.zerosLeft.toNat = 0) (hu : stage.onHand.toNat = 0) :
    stage.next limit = ⟨.«end», 0⟩ := by
  have hz : stage.zerosLeft = 0 := UInt32.toNat_inj.mp hz
  have hu : stage.onHand = 0 := UInt32.toNat_inj.mp hu
  simp [next, hz, hu, hf]

/-! ## The stage after each step -/

theorem take_zeros {m : UInt32} (hpos : 0 < m.toNat) (hle : m.toNat ≤ stage.zerosLeft.toNat)
    (stream : SentFrames) :
    stage.take ⟨.zeros, m⟩ stream = (none, { stage with zerosLeft := stage.zerosLeft - m }) := by
  have hne : stage.zerosLeft ≠ 0 := by
    rw [Ne, ← UInt32.toNat_inj]
    simp
    omega
  have hmin : min m stage.zerosLeft = m := by
    rw [← UInt32.toNat_inj, toNat_min32]
    omega
  simp [take, takeZeros, hne, hmin]

theorem take_insert {entry : CutEntry} {later : List CutEntry} {m : UInt32}
    (hz : stage.zerosLeft.toNat = 0) (hp : stage.pending = entry :: later)
    (hle : m.toNat ≤ entry.length.toNat) (stream : SentFrames) :
    stage.take ⟨.zeros, m⟩ stream =
      (some ⟨stream, entry.length, .zero⟩,
        { stage with nextEntry := stage.nextEntry + 1, zerosLeft := entry.length - m }) := by
  have hz : stage.zerosLeft = 0 := UInt32.toNat_inj.mp hz
  have hmin : min m entry.length = m := by
    rw [← UInt32.toNat_inj, toNat_min32]
    omega
  simp [take, takeZeros, hz, pendingEntry_eq, hp, hmin]

theorem take_discard {entry : CutEntry} {later : List CutEntry} {m : UInt32}
    (hp : stage.pending = entry :: later) (ho : entry.offset.toNat ≤ stage.position.toNat)
    (hk : entry.kind = .drop) (hm : stage.position.toNat + m.toNat ≤ entry.past)
    (hw : stage.position.toNat + m.toNat < 2 ^ 32) (stream : SentFrames) :
    stage.take ⟨.discard, m⟩ stream =
      if stage.position.toNat + m.toNat < entry.past then
        (none, { stage with position := stage.position + m })
      else
        (some ⟨stream, entry.length, .drop⟩,
          { stage with position := stage.position + m, nextEntry := stage.nextEntry + 1 }) := by
  have hpast : entry.past = entry.offset.toNat + entry.length.toNat := by simp [past, hk]
  have hadd : (stage.position + m).toNat = stage.position.toNat + m.toNat := by
    rw [UInt32.toNat_add]; omega
  have hsub : (stage.position + m - entry.offset).toNat =
      stage.position.toNat + m.toNat - entry.offset.toNat := by
    rw [UInt32.toNat_sub_of_le _ _ (by rw [UInt32.le_iff_toNat_le, hadd]; omega), hadd]
  have hpe : ({ stage with position := stage.position + m } : CutStage).pendingEntry =
      some entry := by
    rw [pendingEntry_eq]
    exact congrArg List.head? hp
  simp only [take, takeDiscard, hpe, UInt32.lt_iff_toNat_lt, hsub]
  split <;> split <;> first | rfl | omega

/-- The end of the output finds no entry begun: those left lie at or past it. -/
theorem finish_clear (h : stage.Inv)
    (hp : ∀ entry ∈ stage.pending, stage.position.toNat ≤ entry.offset.toNat)
    (stream : SentFrames) :
    stage.finish stream =
      ({ clipped := none, pastEnd := .ofNat stage.pending.length },
        { stage with nextEntry := stage.schedule.size, finished := true }) := by
  have hc : stage.clippedDrop stream = none := by
    rw [clippedDrop, pendingEntry_eq]
    cases hpe : stage.pending with
    | nil => rfl
    | cons entry later =>
      have := hp entry (hpe ▸ List.mem_cons_self)
      simp [UInt32.lt_iff_toNat_lt]
      omega
  have hs : stage.schedule.size - stage.nextEntry = .ofNat stage.pending.length := by
    rw [← size_sub_nextEntry h.entry_le, UInt32.ofNat_toNat]
  simp [finish, hc, hs]

/-- The end of the output cuts the DROP under way short. -/
theorem finish_underway {entry : CutEntry} {later : List CutEntry}
    (hp : stage.pending = entry :: later) (hk : entry.kind = .drop)
    (ho : entry.offset.toNat < stage.position.toNat) (stream : SentFrames) :
    stage.finish stream =
      ({ clipped := some ⟨stream, stage.position - entry.offset, .drop⟩
         pastEnd := .ofNat later.length },
        { stage with nextEntry := stage.schedule.size, finished := true }) := by
  obtain ⟨hlt, hsucc, hlater⟩ := pending_succ hp
  have hc : stage.clippedDrop stream = some ⟨stream, stage.position - entry.offset, .drop⟩ := by
    rw [clippedDrop, pendingEntry_eq, hp]
    simp [hk, UInt32.lt_iff_toNat_lt, ho]
  have hs : stage.schedule.size - (stage.nextEntry + 1) = .ofNat later.length := by
    have hsize := stage.schedule.size_toNat
    rw [← UInt32.toNat_inj, UInt32.toNat_sub_of_le _ _ (by rw [UInt32.le_iff_toNat_le]; omega),
      hsize, hsucc, ← hlater, List.length_drop, toNat_ofNat32]
    have := stage.schedule.list.bounded
    simp only [maxEntries] at this
    have : stage.schedule.entries.length ≤ 16 := this
    omega
  simp [finish, hc, hs]

end CutStage

end WaveformGenerator.Cut
