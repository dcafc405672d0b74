import WaveformGenerator.SignalLab.FadeOrder

/-!
# A run of the fade stage

Over every cut of the stream into blocks, the segments of an orderly schedule go forward inside their
blocks, and each frame is multiplied by the gains of the admitted fades that cover it.
-/

namespace WaveformGenerator.SignalLab

/-- The admitted fades of `length` frames that cover the frame `x`. -/
def Admission.covering (m : Admission) (length x : Nat) : List UInt64 :=
  m.admitted.filter fun start => decide (start.toNat ≤ x ∧ x < start.toNat + length)

/-- A sample of the frame `x`, multiplied by the gains of the fades that began at `starts`. -/
def FadeSetup.faded {R : Type} [Det R] (setup : FadeSetup R) (starts : List UInt64) (x : Nat)
    (sample : R) : R :=
  starts.foldl (fun sample start => Det.single (sample * setup.gain (.ofNat x - start))) sample

namespace FadeImpairment

variable {R : Type}

/-! ## Scaling -/

/-- In a block from the frame `first` on, the sample of each frame `x` from `cursor` up to
`segmentEnd` has become `scaled x` of what it was. -/
def ScaledIn (first cursor segmentEnd : Nat) (scaled : Nat → R → R) (before block : List R) : Prop :=
  ∀ i, block[i]? = before[i]?.map fun sample =>
    if cursor ≤ first + i ∧ first + i < segmentEnd then scaled (first + i) sample else sample

section
variable {first cursor middle segmentEnd : Nat} {scaled scaled' : Nat → R → R} {a b c : List R}

theorem ScaledIn.length (h : ScaledIn first cursor segmentEnd scaled a b) :
    b.length = a.length := by
  refine Nat.le_antisymm (Nat.le_of_not_lt fun hlt => ?_) (Nat.le_of_not_lt fun hlt => ?_)
  · have hblock := h a.length
    rw [List.getElem?_eq_getElem hlt, List.getElem?_eq_none (Nat.le_refl _)] at hblock
    cases hblock
  · have hblock := h b.length
    rw [List.getElem?_eq_getElem hlt, List.getElem?_eq_none (Nat.le_refl _)] at hblock
    cases hblock

theorem ScaledIn.nil (first cursor : Nat) (scaled : Nat → R → R) (block : List R) :
    ScaledIn first cursor cursor scaled block block := by
  intro i
  have hnone : ¬(cursor ≤ first + i ∧ first + i < cursor) := by omega
  simp only [hnone, if_false, Option.map_id']

/-- The frames up to `middle` and then those from it on. -/
theorem ScaledIn.trans (h : ScaledIn first cursor middle scaled a b)
    (h' : ScaledIn first middle segmentEnd scaled b c) (hle : cursor ≤ middle)
    (hle' : middle ≤ segmentEnd) : ScaledIn first cursor segmentEnd scaled a c := by
  intro i
  rw [h', h, Option.map_map]
  refine congrArg (fun g => Option.map g _) (funext fun sample => ?_)
  dsimp only [Function.comp_apply]
  by_cases hlow : first + i < middle
  · have hnot : ¬(middle ≤ first + i ∧ first + i < segmentEnd) := by omega
    rw [if_neg hnot]
    refine if_congr ?_ rfl rfl
    omega
  · have hnot : ¬(cursor ≤ first + i ∧ first + i < middle) := by omega
    rw [if_neg hnot]
    refine if_congr ?_ rfl rfl
    omega

/-- Frames scaled alike. -/
theorem ScaledIn.congr (h : ScaledIn first cursor segmentEnd scaled a b)
    (heq : ∀ x, cursor ≤ x → x < segmentEnd → scaled x = scaled' x) :
    ScaledIn first cursor segmentEnd scaled' a b := by
  intro i
  rw [h]
  refine congrArg (fun g => Option.map g _) (funext fun sample => ?_)
  by_cases hin : cursor ≤ first + i ∧ first + i < segmentEnd
  · rw [if_pos hin, if_pos hin, heq _ hin.1 hin.2]
  · rw [if_neg hin, if_neg hin]

/-- The same frames again. -/
theorem ScaledIn.comp (h : ScaledIn first cursor segmentEnd scaled a b)
    (h' : ScaledIn first cursor segmentEnd scaled' b c) :
    ScaledIn first cursor segmentEnd (fun x sample => scaled' x (scaled x sample)) a c := by
  intro i
  rw [h', h, Option.map_map]
  refine congrArg (fun g => Option.map g _) (funext fun sample => ?_)
  dsimp only [Function.comp_apply]
  by_cases hin : cursor ≤ first + i ∧ first + i < segmentEnd
  · rw [if_pos hin, if_pos hin, if_pos hin]
  · rw [if_neg hin, if_neg hin, if_neg hin]

end

variable [Det R]

/-- `out` differs from `before` in its samples and statistics alone. -/
structure Scales (before out : FadeBlock R) : Prop where
  setup : out.stage.setup = before.stage.setup
  arrivals : out.stage.arrivals = before.stage.arrivals
  active : out.stage.active = before.stage.active
  applied : out.stage.applied = before.stage.applied
  passes : out.passes = before.passes

theorem Scales.trans {a b c : FadeBlock R} (h : Scales a b) (h' : Scales b c) : Scales a c :=
  ⟨h'.setup.trans h.setup, h'.arrivals.trans h.arrivals, h'.active.trans h.active,
    h'.applied.trans h.applied, h'.passes.trans h.passes⟩

theorem scaleFrame_spec {first absolute : UInt64} (start : UInt64) {out : FadeBlock R} {i : Nat}
    (hindex : absolute.toNat = first.toNat + i) (hinside : i < out.block.length) :
    ∃ out', scaleFrame first start absolute out = .ok out' ∧ Scales out out' ∧
      ScaledIn first.toNat absolute.toNat (absolute.toNat + 1)
        (fun _ sample => Det.single (sample * out.stage.setup.gain (absolute - start)))
        out.block out'.block := by
  have hle : first ≤ absolute := UInt64.le_iff_toNat_le.mpr (by omega)
  have hsub : (absolute - first).toNat = i := by
    rw [UInt64.toNat_sub_of_le _ _ hle]
    omega
  unfold scaleFrame
  dsimp only
  rw [hsub, List.getElem?_eq_getElem hinside]
  refine ⟨_, rfl, ⟨rfl, rfl, rfl, rfl, rfl⟩, fun j => ?_⟩
  dsimp only
  rw [List.getElem?_set]
  by_cases hj : i = j
  · rw [← hj, if_pos rfl, if_pos hinside, List.getElem?_eq_getElem hinside]
    have hin : absolute.toNat ≤ first.toNat + i ∧ first.toNat + i < absolute.toNat + 1 := by omega
    simp only [Option.map_some, hin, and_self, if_true]
  · rw [if_neg hj]
    have hout : ¬(absolute.toNat ≤ first.toNat + j ∧ first.toNat + j < absolute.toNat + 1) := by
      omega
    simp only [hout, if_false, Option.map_id']

theorem scaleFrames_spec {first : UInt64} (start : UInt64) (count : Nat) {absolute : UInt64}
    {out : FadeBlock R} {i : Nat} (hindex : absolute.toNat = first.toNat + i)
    (hinside : i + count ≤ out.block.length) (hfits : first.toNat + out.block.length < 2 ^ 64) :
    ∃ out', scaleFrames first start count absolute out = .ok out' ∧ Scales out out' ∧
      ScaledIn first.toNat absolute.toNat (absolute.toNat + count)
        (fun x sample => Det.single (sample * out.stage.setup.gain (.ofNat x - start)))
        out.block out'.block := by
  induction count generalizing absolute out i with
  | zero => exact ⟨out, rfl, ⟨rfl, rfl, rfl, rfl, rfl⟩, .nil _ _ _ _⟩
  | succ count ih =>
    have hfirst : i < out.block.length := by omega
    obtain ⟨middle, hframe, hscales, hblock⟩ := scaleFrame_spec start hindex hfirst
    have hnext : (absolute + 1).toNat = absolute.toNat + 1 := by
      rw [UInt64.toNat_add, UInt64.toNat_one]
      omega
    have hnextIndex : (absolute + 1).toNat = first.toNat + (i + 1) := by omega
    have hroom : i + 1 + count ≤ middle.block.length := by
      rw [hblock.length]
      omega
    obtain ⟨out', hframes, hrest, hrestBlock⟩ := ih hnextIndex hroom (by
      rw [hblock.length]
      exact hfits)
    refine ⟨out', ?_, hscales.trans hrest, ?_⟩
    · unfold scaleFrames
      rw [hframe]
      exact hframes
    · rw [hscales.setup, hnext, Nat.add_assoc, Nat.add_comm 1] at hrestBlock
      refine (hblock.congr fun x hlow hhigh => ?_).trans hrestBlock (Nat.le_succ _) (by omega)
      have hx : x = absolute.toNat := by omega
      rw [hx, UInt64.ofNat_toNat]

theorem scaleSegment_spec {first cursor segmentEnd : UInt64} (starts : List UInt64)
    {out : FadeBlock R} (hfirst : first.toNat ≤ cursor.toNat) (hle : cursor.toNat ≤ segmentEnd.toNat)
    (hinside : segmentEnd.toNat ≤ first.toNat + out.block.length)
    (hfits : first.toNat + out.block.length < 2 ^ 64) :
    ∃ out', scaleSegment first cursor segmentEnd starts out = .ok out' ∧ Scales out out' ∧
      ScaledIn first.toNat cursor.toNat segmentEnd.toNat (out.stage.setup.faded starts)
        out.block out'.block := by
  induction starts generalizing out with
  | nil =>
    refine ⟨out, rfl, ⟨rfl, rfl, rfl, rfl, rfl⟩, fun i => ?_⟩
    have hsame : (fun sample => if cursor.toNat ≤ first.toNat + i ∧
        first.toNat + i < segmentEnd.toNat then
          out.stage.setup.faded [] (first.toNat + i) sample else sample) = id :=
      funext fun sample => ite_self _
    rw [hsame, Option.map_id, id]
  | cons start rest ih =>
    have hindex : cursor.toNat = first.toNat + (cursor.toNat - first.toNat) := by omega
    have hroom : cursor.toNat - first.toNat + (segmentEnd.toNat - cursor.toNat) ≤
        out.block.length := by omega
    obtain ⟨middle, hframes, hscales, hblock⟩ := scaleFrames_spec start _ hindex hroom hfits
    rw [← hblock.length] at hinside hfits
    obtain ⟨out', hsegment, hrest, hrestBlock⟩ := ih hinside hfits
    refine ⟨out', ?_, hscales.trans hrest, ?_⟩
    · unfold scaleSegment
      rw [hframes]
      exact hsegment
    · rw [Nat.add_sub_cancel' hle] at hblock
      rw [hscales.setup] at hrestBlock
      exact hblock.comp hrestBlock

/-! ## Taking the starts -/

/-- `g` is the stage `f` with the first `n` starts taken, and its fades those active at `c`. -/
structure TakenAt (f : FadeImpairment R) (n c : Nat) (g : FadeImpairment R) : Prop where
  setup : g.setup = f.setup
  arrivals : g.arrivals = f.arrivalsAfter n
  now : (f.admissionAfter n).now ≤ c
  active : g.active = (f.admissionAfter n).active f.setup.length.toNat c
  applied : g.applied = .ofNat (f.admissionAfter n).admitted.length

/-- `stop` frames of the orderly schedule of `f`, which has `last` starts in them. -/
structure Timeline (f : FadeImpairment R) (stop last : Nat) : Prop where
  inOrder : f.InOrder stop
  ends : f.Ends stop last
  length : 0 < f.setup.length.toNat
  fits : stop + f.setup.length.toNat ≤ 2 ^ 64

variable {f g : FadeImpairment R} {stop last n : Nat}

/-- A fade admitted by then ends within 64 bits. -/
theorem Timeline.end_toNat (t : f.Timeline stop last) {c : Nat} (hstop : c < stop)
    (hnow : (f.admissionAfter n).now ≤ c) {start : UInt64}
    (h : start ∈ (f.admissionAfter n).admitted) :
    (start + f.setup.length).toNat = start.toNat + f.setup.length.toNat := by
  have hfits := t.fits
  have hstart := admitted_le_now h
  rw [UInt64.toNat_add, Nat.mod_eq_of_lt (by omega)]

/-- The start due at `cursor` is taken. -/
theorem TakenAt.next (t : f.Timeline stop last) {cursor : UInt64}
    (h : f.TakenAt n cursor.toNat g) (hlast : n < last)
    (hdue : (f.startAt n).toNat ≤ cursor.toNat)
    (hreached : cursor.toNat ≤ max (f.admissionAfter n).now (f.startAt n).toNat) :
    f.TakenAt (n + 1) cursor.toNat g.take ∧ (f.admissionAfter (n + 1)).now = cursor.toNat := by
  have hnow : max (f.admissionAfter n).now (f.startAt n).toNat = cursor.toNat :=
    Nat.le_antisymm (Nat.max_le.mpr ⟨h.now, hdue⟩) hreached
  have hpending : g.arrivals.pending = f.startAt n := congrArg FadeArrivals.pending h.arrivals
  have hslot : f.HasSlot n ↔ g.active.length < maxActiveFades := by
    rw [h.active, ← hnow]
    exact Iff.rfl
  refine ⟨⟨?_, ?_, ?_, ?_, ?_⟩, hnow⟩
  · unfold FadeImpairment.take
    split <;> exact h.setup
  · have harrivals : g.take.arrivals = g.setup.advancePending g.arrivals := by
      unfold FadeImpairment.take
      split <;> rfl
    rw [harrivals, h.setup, h.arrivals]
    rfl
  · rw [admissionAfter_now, hnow]
  · unfold FadeImpairment.take
    by_cases hfree : g.active.length < maxActiveFades
    · have hslot := hslot.mpr hfree
      -- it begins at the cursor, so it has not ended there
      have hstart : (f.startAt n).toNat = cursor.toNat := by
        rw [← hnow, Nat.max_eq_right (t.inOrder.now_le t.ends hlast hslot)]
      have hlength := t.length
      have hgoes : [f.startAt n].filter (fun start =>
          decide (cursor.toNat < start.toNat + f.setup.length.toNat)) = [f.startAt n] :=
        List.filter_cons_of_pos (decide_eq_true (by omega))
      rw [if_pos hfree]
      dsimp only
      rw [hpending, h.active, Admission.active, Admission.active, admissionAfter_slot hslot,
        List.filter_append, hgoes]
    · rw [if_neg hfree]
      dsimp only
      rw [h.active, Admission.active, Admission.active,
        admissionAfter_noSlot fun hslot' => hfree (hslot.mp hslot')]
  · unfold FadeImpairment.take
    by_cases hfree : g.active.length < maxActiveFades
    · rw [if_pos hfree, admissionAfter_slot (hslot.mpr hfree), List.length_append,
        List.length_singleton, UInt32.ofNat_add, ← h.applied]
      rfl
    · rw [if_neg hfree, admissionAfter_noSlot fun hslot' => hfree (hslot.mp hslot')]
      exact h.applied

theorem takeDue_spec (t : f.Timeline stop last) {cursor : UInt64} (hstop : cursor.toNat < stop)
    {turns : Nat} (h : f.TakenAt n cursor.toNat g) (hlast : n ≤ last) (hturns : last < turns + n)
    (hdue : f.exhaustedAt n = true ∨
      cursor.toNat ≤ max (f.admissionAfter n).now (f.startAt n).toNat) :
    ∃ m g', takeDue cursor turns g = .ok g' ∧ f.TakenAt m cursor.toNat g' ∧ m ≤ last ∧
      (f.exhaustedAt m = true ∨ cursor.toNat < (f.startAt m).toNat) := by
  induction turns generalizing n g with
  | zero => omega
  | succ turns ih =>
    have hexhausted : g.arrivals.exhausted = f.exhaustedAt n :=
      congrArg FadeArrivals.exhausted h.arrivals
    have hpending : g.arrivals.pending = f.startAt n := congrArg FadeArrivals.pending h.arrivals
    unfold takeDue
    rw [hexhausted, hpending]
    by_cases htakes : (!f.exhaustedAt n && decide (f.startAt n ≤ cursor)) = true
    · rw [if_pos htakes]
      rw [Bool.and_eq_true, Bool.not_eq_true', decide_eq_true_eq, UInt64.le_iff_toNat_le] at htakes
      have hmore : n < last := by
        refine hlast.lt_of_ne fun heq => ?_
        rcases t.ends.done with hdone | hdone
        · rw [← heq, htakes.1] at hdone
          cases hdone
        · rw [← heq] at hdone
          omega
      have hreached := hdue.resolve_left (by rw [htakes.1]; exact Bool.false_ne_true)
      obtain ⟨htaken, hnow⟩ := h.next t hmore htakes.2 hreached
      refine ih htaken hmore (by omega) (.inr ?_)
      rw [hnow]
      exact Nat.le_max_left ..
    · rw [if_neg htakes]
      refine ⟨n, g, rfl, h, hlast, ?_⟩
      rw [Bool.and_eq_true, Bool.not_eq_true', decide_eq_true_eq, UInt64.le_iff_toNat_le, not_and_or,
        Bool.not_eq_false, Nat.not_le] at htakes
      exact htakes

/-! ## One pass -/

/-- `g` is the stage `f` with the first `n` starts taken, at the top of a pass at `c`. -/
structure StandsAt (f : FadeImpairment R) (n c : Nat) (g : FadeImpairment R) : Prop where
  setup : g.setup = f.setup
  arrivals : g.arrivals = f.arrivalsAfter n
  now : (f.admissionAfter n).now ≤ c
  due : f.exhaustedAt n = true ∨ c ≤ (f.startAt n).toNat
  active : ∃ since ≤ c, g.active = (f.admissionAfter n).active f.setup.length.toNat since
  applied : g.applied = .ofNat (f.admissionAfter n).admitted.length

/-- Those that have ended leave. -/
theorem StandsAt.retire (t : f.Timeline stop last) {cursor : UInt64} (hstop : cursor.toNat < stop)
    (h : f.StandsAt n cursor.toNat g) : f.TakenAt n cursor.toNat (g.retire cursor) := by
  refine ⟨h.setup, h.arrivals, h.now, ?_, h.applied⟩
  obtain ⟨since, hsince, hactive⟩ := h.active
  unfold FadeImpairment.retire
  dsimp only
  rw [hactive, h.setup, Admission.active, Admission.active, List.filter_filter]
  refine List.filter_congr fun start hmem => ?_
  have hend := t.end_toNat hstop h.now hmem
  rw [← Bool.decide_and, decide_eq_decide, gt_iff_lt, UInt64.lt_iff_toNat_lt, hend]
  omega

/-- The least of a bound and the fades' ends. -/
theorem foldl_end_spec (length : UInt64) {c : Nat} (starts : List UInt64) {bound : UInt64}
    (hbound : c < bound.toNat) (hstarts : ∀ start ∈ starts, c < (start + length).toNat) :
    let least := starts.foldl (fun segmentEnd start =>
      if start + length < segmentEnd then start + length else segmentEnd) bound
    c < least.toNat ∧ least.toNat ≤ bound.toNat ∧
      ∀ start ∈ starts, least.toNat ≤ (start + length).toNat := by
  induction starts generalizing bound with
  | nil => exact ⟨hbound, Nat.le_refl _, nofun⟩
  | cons start rest ih =>
    have hrest : ∀ start ∈ rest, c < (start + length).toNat := fun start hmem =>
      hstarts start (List.mem_cons_of_mem _ hmem)
    rw [List.foldl_cons]
    split
    · rename_i hlt
      rw [UInt64.lt_iff_toNat_lt] at hlt
      obtain ⟨hlow, hhigh, hends⟩ := ih (hstarts start List.mem_cons_self) hrest
      refine ⟨hlow, hhigh.trans hlt.le, fun other hmem => ?_⟩
      rcases List.mem_cons.mp hmem with rfl | hmem
      · exact hhigh
      · exact hends other hmem
    · rename_i hge
      rw [UInt64.lt_iff_toNat_lt, Nat.not_lt] at hge
      obtain ⟨hlow, hhigh, hends⟩ := ih hbound hrest
      refine ⟨hlow, hhigh, fun other hmem => ?_⟩
      rcases List.mem_cons.mp hmem with rfl | hmem
      · exact hhigh.trans hge
      · exact hends other hmem

theorem segmentEnd_spec (t : f.Timeline stop last) {cursor blockEnd : UInt64}
    (hcursor : cursor < blockEnd) (hstop : blockEnd.toNat ≤ stop)
    (h : f.TakenAt n cursor.toNat g)
    (hdue : f.exhaustedAt n = true ∨ cursor.toNat < (f.startAt n).toNat) :
    cursor.toNat < (g.segmentEnd blockEnd).toNat ∧
      (g.segmentEnd blockEnd).toNat ≤ blockEnd.toNat ∧
      (f.exhaustedAt n = true ∨ (g.segmentEnd blockEnd).toNat ≤ (f.startAt n).toNat) ∧
      ∀ start ∈ g.active,
        (g.segmentEnd blockEnd).toNat ≤ start.toNat + f.setup.length.toNat := by
  rw [UInt64.lt_iff_toNat_lt] at hcursor
  have hexhausted : g.arrivals.exhausted = f.exhaustedAt n :=
    congrArg FadeArrivals.exhausted h.arrivals
  have hpending : g.arrivals.pending = f.startAt n := congrArg FadeArrivals.pending h.arrivals
  have hend : ∀ start ∈ g.active, cursor.toNat < start.toNat + f.setup.length.toNat ∧
      (start + f.setup.length).toNat = start.toNat + f.setup.length.toNat := fun start hmem => by
    rw [h.active, Admission.active, List.mem_filter, decide_eq_true_eq] at hmem
    exact ⟨hmem.2, t.end_toNat (hcursor.trans_le hstop) h.now hmem.1⟩
  -- the bound before the fades' ends are looked at
  obtain ⟨bound, hbound⟩ : ∃ bound, bound =
    if !f.exhaustedAt n && decide (f.startAt n < blockEnd) then f.startAt n else blockEnd := ⟨_, rfl⟩
  have hspec : cursor.toNat < bound.toNat ∧ bound.toNat ≤ blockEnd.toNat ∧
      (f.exhaustedAt n = true ∨ bound.toNat ≤ (f.startAt n).toNat) := by
    rw [hbound]
    by_cases hstart : (!f.exhaustedAt n && decide (f.startAt n < blockEnd)) = true
    · rw [if_pos hstart]
      rw [Bool.and_eq_true, Bool.not_eq_true', decide_eq_true_eq, UInt64.lt_iff_toNat_lt] at hstart
      refine ⟨hdue.resolve_left ?_, hstart.2.le, .inr (Nat.le_refl _)⟩
      rw [hstart.1]
      exact Bool.false_ne_true
    · rw [if_neg hstart]
      rw [Bool.and_eq_true, Bool.not_eq_true', decide_eq_true_eq, UInt64.lt_iff_toNat_lt, not_and_or,
        Bool.not_eq_false, Nat.not_lt] at hstart
      exact ⟨hcursor, Nat.le_refl _, hstart⟩
  obtain ⟨hlow, hhigh, hends⟩ := foldl_end_spec f.setup.length g.active hspec.1 fun start hmem => by
    rw [(hend start hmem).2]
    exact (hend start hmem).1
  unfold segmentEnd
  rw [hexhausted, hpending, h.setup, ← hbound]
  refine ⟨hlow, hhigh.trans hspec.2.1, hspec.2.2.imp_right hhigh.trans, fun start hmem => ?_⟩
  rw [← (hend start hmem).2]
  exact hends start hmem

/-- Up to the segment's end the fades active at the cursor are those that cover the frame. -/
theorem TakenAt.covering (t : f.Timeline stop last) {c segmentEnd x : Nat}
    (h : f.TakenAt n c g) (hlast : n ≤ last)
    (hpending : f.exhaustedAt n = true ∨ segmentEnd ≤ (f.startAt n).toNat)
    (hends : ∀ start ∈ g.active, segmentEnd ≤ start.toNat + f.setup.length.toNat) (hlow : c ≤ x)
    (hhigh : x < segmentEnd) :
    (f.admissionAfter last).covering f.setup.length.toNat x = g.active := by
  obtain ⟨later, hadmitted, hlater⟩ := t.inOrder.later t.ends hlast (Nat.le_refl last)
  have hnone : later.filter
      (fun start => decide (start.toNat ≤ x ∧ x < start.toNat + f.setup.length.toNat)) = [] := by
    refine List.filter_eq_nil_iff.mpr fun start hmem => ?_
    rw [decide_eq_true_eq]
    rcases hpending with hexhausted | hpending
    · -- nothing is taken once the schedule has ended
      have heq : n = last := hlast.eq_or_lt.resolve_right fun hlt => by
        rw [(t.ends.before n hlt).1] at hexhausted
        cases hexhausted
      rw [heq] at hadmitted
      rw [List.self_eq_append_right.mp hadmitted] at hmem
      cases hmem
    · have := hlater start hmem
      omega
  rw [Admission.covering, hadmitted, List.filter_append, hnone, List.append_nil, h.active,
    Admission.active]
  refine List.filter_congr fun start hmem => ?_
  have hstart := (admitted_le_now hmem).trans h.now
  rw [decide_eq_decide]
  constructor
  · rintro ⟨-, hlt⟩
    omega
  · intro hlt
    have hactive : start ∈ g.active := by
      rw [h.active, Admission.active, List.mem_filter, decide_eq_true_eq]
      exact ⟨hmem, hlt⟩
    have := hends start hactive
    omega

/-- The admitted fades of the timeline, applied to the sample of the frame `x`. -/
def fadedBy (f : FadeImpairment R) (last x : Nat) (sample : R) : R :=
  f.setup.faded ((f.admissionAfter last).covering f.setup.length.toNat x) x sample

theorem pass_spec (t : f.Timeline stop last) {turns : Nat} (hturns : last < turns)
    {first blockEnd cursor : UInt64} {out : FadeBlock R} (hfirst : first.toNat ≤ cursor.toNat)
    (hcursor : cursor < blockEnd) (hend : blockEnd.toNat = first.toNat + out.block.length)
    (hstop : blockEnd.toNat ≤ stop) (h : f.StandsAt n cursor.toNat out.stage) (hlast : n ≤ last) :
    ∃ segmentEnd out' m, pass turns first blockEnd cursor out = .ok (segmentEnd, out') ∧
      cursor < segmentEnd ∧ segmentEnd.toNat ≤ blockEnd.toNat ∧ m ≤ last ∧
      f.StandsAt m segmentEnd.toNat out'.stage ∧
      out'.passes = out.passes ++ [(cursor, segmentEnd)] ∧
      ScaledIn first.toNat cursor.toNat segmentEnd.toNat (f.fadedBy last) out.block out'.block := by
  have hlt := UInt64.lt_iff_toNat_lt.mp hcursor
  have hretired := h.retire t (hlt.trans_le hstop)
  obtain ⟨m, g, htaken, hat, hm, hdue⟩ := takeDue_spec t (hlt.trans_le hstop) hretired hlast
    (Nat.lt_add_right n hturns) (h.due.imp_right fun hle => hle.trans (Nat.le_max_right ..))
  obtain ⟨hadvances, hwithin, hpending, hends⟩ := segmentEnd_spec t hcursor hstop hat hdue
  obtain ⟨noted, hnoted⟩ : ∃ noted : FadeBlock R, noted =
    { out with stage := g, passes := out.passes ++ [(cursor, g.segmentEnd blockEnd)] } := ⟨_, rfl⟩
  have hinside : (g.segmentEnd blockEnd).toNat ≤ first.toNat + noted.block.length := by
    rw [hnoted, ← hend]
    exact hwithin
  have hfits : first.toNat + noted.block.length < 2 ^ 64 := by
    rw [hnoted, ← hend]
    exact blockEnd.toNat_lt
  obtain ⟨out', hsegment, hscales, hblock⟩ := scaleSegment_spec g.active hfirst hadvances.le hinside
    hfits
  rw [hnoted] at hsegment hscales hblock
  refine ⟨g.segmentEnd blockEnd, out', m, ?_, UInt64.lt_iff_toNat_lt.mpr hadvances, hwithin, hm, ?_,
    hscales.passes, ?_⟩
  · unfold pass
    rw [htaken]
    show (do
      let out ← scaleSegment first cursor (g.segmentEnd blockEnd) g.active
        { out with stage := g, passes := out.passes ++ [(cursor, g.segmentEnd blockEnd)] }
      .ok (g.segmentEnd blockEnd, out)) = _
    rw [hsegment]
    rfl
  · exact ⟨hscales.setup.trans hat.setup, hscales.arrivals.trans hat.arrivals,
      hat.now.trans hadvances.le, hpending,
      ⟨cursor.toNat, hadvances.le, hscales.active.trans hat.active⟩,
      hscales.applied.trans hat.applied⟩
  · refine hblock.congr fun x hlow hhigh => ?_
    have hcovering := hat.covering t hm hpending hends hlow hhigh
    show g.setup.faded g.active x = f.setup.faded _ x
    rw [hcovering, hat.setup]

/-! ## A block, and the blocks in a row -/

theorem segments_spec (t : f.Timeline stop last) {turns : Nat} (hturns : last < turns)
    {first blockEnd : UInt64} (passes : Nat) {cursor : UInt64} (out : FadeBlock R)
    (hfirst : first.toNat ≤ cursor.toNat) (hcursor : cursor.toNat ≤ blockEnd.toNat)
    (hpasses : blockEnd.toNat < cursor.toNat + passes)
    (hend : blockEnd.toNat = first.toNat + out.block.length) (hstop : blockEnd.toNat ≤ stop)
    (h : f.StandsAt n cursor.toNat out.stage) (hlast : n ≤ last) :
    ∃ out' m, segments turns first blockEnd passes cursor out = .ok out' ∧ m ≤ last ∧
      f.StandsAt m blockEnd.toNat out'.stage ∧
      (∃ more, out'.passes = out.passes ++ more ∧ ∀ pass ∈ more, pass.1 < pass.2) ∧
      ScaledIn first.toNat cursor.toNat blockEnd.toNat (f.fadedBy last) out.block out'.block := by
  induction passes generalizing cursor out n with
  | zero => omega
  | succ passes ih =>
    unfold segments
    by_cases hmore : cursor < blockEnd
    · obtain ⟨next, middle, m, hpass, hadvances, hwithin, hm, hstands, hnoted, hblock⟩ :=
        pass_spec t hturns hfirst hmore hend hstop h hlast
      have hlt := UInt64.lt_iff_toNat_lt.mp hadvances
      rw [← hblock.length] at hend
      obtain ⟨out', m', hsegments, hm', hstands', ⟨more, hmorePasses, hmoreAdvance⟩, hrest⟩ :=
        ih middle (hfirst.trans hlt.le) hwithin (by omega) hend hstands hm
      refine ⟨out', m', ?_, hm', hstands', ⟨(cursor, next) :: more, ?_, ?_⟩, ?_⟩
      · rw [if_pos hmore, hpass]
        exact hsegments
      · rw [hmorePasses, hnoted, List.append_assoc, List.singleton_append]
      · exact List.forall_mem_cons.mpr ⟨hadvances, hmoreAdvance⟩
      · exact hblock.trans hrest hlt.le hwithin
    · rw [if_neg hmore]
      have hat : cursor.toNat = blockEnd.toNat := by
        rw [UInt64.lt_iff_toNat_lt] at hmore
        omega
      rw [hat] at h ⊢
      exact ⟨out, n, rfl, hlast, h, ⟨[], (List.append_nil _).symm, nofun⟩, .nil _ _ _ _⟩

theorem process_spec (t : f.Timeline stop last) {turns : Nat} (hturns : last + stop < turns)
    {first : UInt64} (block : List R) (hstop : first.toNat + block.length ≤ stop)
    (h : f.StandsAt n first.toNat g) (hlast : n ≤ last) :
    ∃ out m, g.process turns block first = .ok out ∧ m ≤ last ∧
      f.StandsAt m (first.toNat + block.length) out.stage ∧
      (∀ pass ∈ out.passes, pass.1 < pass.2) ∧
      out.block = block.mapIdx fun i => f.fadedBy last (first.toNat + i) := by
  have hfits := t.fits
  have hlength := t.length
  have hend : (first + UInt64.ofNat block.length).toNat = first.toNat + block.length := by
    rw [UInt64.toNat_add, UInt64.toNat_ofNat', Nat.mod_eq_of_lt (a := block.length) (by omega),
      Nat.mod_eq_of_lt (by omega)]
  obtain ⟨out, m, hsegments, hm, hstands, ⟨more, hmore, hadvance⟩, hblock⟩ :=
    segments_spec t (Nat.lt_of_le_of_lt (Nat.le_add_right ..) hturns) turns { stage := g, block }
      (Nat.le_refl first.toNat) (by omega) (by omega) hend (by omega) h hlast
  rw [hend] at hstands hblock
  refine ⟨out, m, hsegments, hm, hstands, ?_, List.ext_getElem? fun i => ?_⟩
  · rw [hmore]
    exact hadvance
  · rw [hblock, List.getElem?_mapIdx]
    cases hi : block[i]? with
    | none => rfl
    | some sample =>
      have hlt := (List.getElem?_eq_some_iff.mp hi).1
      have hin : first.toNat ≤ first.toNat + i ∧ first.toNat + i < first.toNat + block.length := by
        omega
      simp only [Option.map_some, hin, and_self, if_true]

/-- At the end of the timeline all its starts have been taken. -/
theorem StandsAt.applied_all (t : f.Timeline stop last) (h : f.StandsAt n stop g) (hlast : n ≤ last) :
    g.applied = .ofNat (f.admissionAfter last).admitted.length := by
  have heq : n = last := hlast.eq_or_lt.resolve_right fun hlt => by
    obtain ⟨hscheduled, hstart⟩ := t.ends.before n hlt
    rcases h.due with hexhausted | hle
    · rw [hscheduled] at hexhausted
      cases hexhausted
    · omega
  rw [← heq]
  exact h.applied

theorem processBlocks_spec (t : f.Timeline stop last) {turns : Nat} (hturns : last + stop < turns)
    (blocks : List (List R)) {first : UInt64}
    (hstop : first.toNat + blocks.flatten.length = stop) (h : f.StandsAt n first.toNat g)
    (hlast : n ≤ last) :
    ∃ outs, processBlocks turns g first blocks = .ok outs ∧
      outs.length = blocks.length ∧
      (∀ out ∈ outs, ∀ pass ∈ out.passes, pass.1 < pass.2) ∧
      (∀ out ∈ outs.getLast?,
        out.stage.applied = .ofNat (f.admissionAfter last).admitted.length) ∧
      (outs.map (·.block)).flatten =
        blocks.flatten.mapIdx fun i => f.fadedBy last (first.toNat + i) := by
  induction blocks generalizing first g n with
  | nil =>
    refine ⟨[], rfl, rfl, fun _ hmem => absurd hmem List.not_mem_nil,
      fun _ hmem => absurd hmem (Option.not_mem_none _), ?_⟩
    rw [List.map_nil, List.flatten_nil, List.mapIdx_nil]
  | cons block blocks ih =>
    rw [List.flatten_cons, List.length_append] at hstop
    obtain ⟨out, m, hprocess, hm, hstands, hpasses, hblock⟩ :=
      process_spec t hturns block (by omega) h hlast
    have hfits := t.fits
    have hpos := t.length
    have hend : (first + UInt64.ofNat block.length).toNat = first.toNat + block.length := by
      rw [UInt64.toNat_add, UInt64.toNat_ofNat', Nat.mod_eq_of_lt (a := block.length) (by omega),
        Nat.mod_eq_of_lt (by omega)]
    rw [← hend] at hstands
    obtain ⟨outs, hrest, hlength, hrestPasses, happlied, hrestBlocks⟩ := ih (by omega) hstands hm
    refine ⟨out :: outs, ?_, congrArg (· + 1) hlength,
      List.forall_mem_cons.mpr ⟨hpasses, hrestPasses⟩, ?_, ?_⟩
    · unfold processBlocks
      rw [hprocess]
      show (processBlocks turns out.stage (first + UInt64.ofNat block.length) blocks >>=
        fun rest => Except.ok (out :: rest)) = _
      rw [hrest]
      rfl
    · intro newest hnewest
      cases outs with
      | nil =>
        cases hnewest
        have hnone : blocks = [] := List.eq_nil_of_length_eq_zero hlength.symm
        rw [hnone, List.flatten_nil, List.length_nil, Nat.add_zero, ← hend] at hstop
        rw [hstop] at hstands
        exact hstands.applied_all t hm
      | cons next outs =>
        rw [List.getLast?_cons_cons] at hnewest
        exact happlied newest hnewest
    · rw [List.map_cons, List.flatten_cons, List.flatten_cons, hblock, hrestBlocks, hend,
        List.mapIdx_append]
      refine congrArg _ (List.ext_getElem? fun i => ?_)
      rw [List.getElem?_mapIdx, List.getElem?_mapIdx, Nat.add_assoc, Nat.add_comm i]

/-! ## The whole stream -/

/-- While the starts are orderly, every cut of the stream into blocks comes to its end inside the
blocks, each pass goes forward, and each frame is multiplied once by the gain of each admitted fade
that covers it and by nothing else. -/
theorem processBlocks_faithful [LawfulDet R] {p : FadeParams R} {context : StageContext}
    (hvalid : validateFade p = .success) (hprepared : prepare p context = .ok f)
    (blocks : List (List R)) (horderly : f.Orderly blocks.flatten.length) :
    ∃ last, f.Ends blocks.flatten.length last ∧
      ∀ turns > last + blocks.flatten.length, ∃ outs,
        f.processBlocks turns 0 blocks = .ok outs ∧ outs.length = blocks.length ∧
        (∀ out ∈ outs, ∀ pass ∈ out.passes, pass.1 < pass.2) ∧
        (∀ out ∈ outs.getLast?,
          out.stage.applied = .ofNat (f.admissionAfter last).admitted.length) ∧
        (outs.map (·.block)).flatten = blocks.flatten.mapIdx (f.fadedBy last) := by
  obtain ⟨⟨hactive, hlength, -⟩, -⟩ := prepared hprepared
  rw [← (prepared hprepared).2] at hvalid
  obtain ⟨hinOrder, last, hends⟩ := (prepared hprepared).1.orderly hvalid horderly
  have t : f.Timeline blocks.flatten.length last := ⟨hinOrder, hends, hlength, horderly.1⟩
  have happlied : f.applied = 0 := by
    unfold prepare at hprepared
    dsimp only at hprepared
    split at hprepared
    · cases hprepared
    · cases hprepared
      rfl
  have hstands : f.StandsAt 0 (0 : UInt64).toNat f :=
    ⟨rfl, rfl, Nat.le_refl _, .inr (Nat.zero_le _), ⟨0, Nat.le_refl _, hactive⟩, happlied⟩
  refine ⟨last, hends, fun turns hturns => ?_⟩
  obtain ⟨outs, hblocks, hcount, hpasses, hadmitted, hsamples⟩ :=
    processBlocks_spec t hturns blocks (Nat.zero_add _) hstands (Nat.zero_le last)
  refine ⟨outs, hblocks, hcount, hpasses, hadmitted, hsamples.trans ?_⟩
  refine congrArg (List.mapIdx · blocks.flatten) (funext fun i => ?_)
  rw [UInt64.toNat_zero, Nat.zero_add]

/-! ## Runs in exact arithmetic -/

/-- Fades of `frames` frames with explicit starts at the frames `a` and `b`. -/
def fadesAt (frames a b : Rat) : FadeParams Rat where
  depthDb := 20
  explicitShape := true
  holdMs := frames / 48
  schedule := .explicitStarts
  startsSeconds := ((Vector.replicate maxEvents 0).set 0 (a / 48000)).set 1 (b / 48000)
  startCount := 2

/-- The samples and passes of each block, or what ended the run. -/
def samplesOf (p : FadeParams Rat) (blocks : List (List Rat)) :
    Option (FadeFault ⊕ List (List Rat × List (UInt64 × UInt64))) :=
  match prepare p {} with
  | .error _ => none
  | .ok f =>
    match f.processBlocks 20 0 blocks with
    | .error fault => some (.inl fault)
    | .ok outs => some (.inr (outs.map fun out => (out.block, out.passes)))

/-- Two overlapping fades, in a stream cut between their ends. -/
theorem processBlocks_faithful_overlap :
    ∃ f : FadeImpairment Rat, prepare (fadesAt 2 0 1) {} = .ok f ∧
      ∃ last, f.Ends 4 last ∧ ∀ turns > last + 4, ∃ outs,
        f.processBlocks turns 0 [[1, 1], [1, 1]] = .ok outs ∧
        (outs.map (·.block)).flatten = [1, 1, 1, 1].mapIdx (f.fadedBy last) := by
  have hcheck : (match prepare (fadesAt 2 0 1) {} with
      | .error _ => false
      | .ok f => decide (4 + f.setup.length.toNat ≤ 2 ^ 64) &&
        decide (Admission.InOrder f.setup.length.toNat 4 {} f.setup.startFrames)) = true := by
    decide +kernel
  cases hprepared : prepare (fadesAt 2 0 1) {} with
  | error status =>
    rw [hprepared] at hcheck
    cases hcheck
  | ok f =>
    rw [hprepared] at hcheck
    obtain ⟨hfits, hstarts⟩ := Bool.and_eq_true_iff.mp hcheck
    have horder := of_decide_eq_true hstarts
    have horderly : f.Orderly ([[1, 1], [1, 1]] : List (List Rat)).flatten.length := by
      refine ⟨of_decide_eq_true hfits, ?_⟩
      rw [(prepared hprepared).2]
      exact horder
    obtain ⟨last, hends, hrun⟩ :=
      processBlocks_faithful (by decide +kernel) hprepared [[1, 1], [1, 1]] horderly
    refine ⟨f, rfl, last, hends, fun turns hturns => ?_⟩
    obtain ⟨outs, hblocks, -, -, -, hsamples⟩ := hrun turns hturns
    exact ⟨outs, hblocks, hsamples⟩

/-- Starts that are not in order pass validation; the cursor then goes back, frames of a fade are
left out, and in another cut the run leaves its block. -/
theorem unordered_starts_leave_block :
    validateFade (fadesAt 1 2 0) = .success ∧
      samplesOf (fadesAt 1 2 0) [[1, 1, 1, 1]] =
        some (.inr [([1, 1 / 2, 1 / 2, 1], [(0, 2), (2, 1), (1, 3), (3, 4)])]) ∧
      samplesOf (fadesAt 1 2 0) [[1, 1], [1, 1]] = some (.inl .outside) :=
  ⟨by decide +kernel, by decide +kernel, by decide +kernel⟩

end FadeImpairment

end WaveformGenerator.SignalLab
