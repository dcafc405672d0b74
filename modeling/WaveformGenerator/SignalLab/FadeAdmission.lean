import Mathlib.Algebra.Group.Nat.Defs
import WaveformGenerator.SignalLab.Fade

/-!
# The fades a schedule admits

The starts that `advance_pending` yields one after another, and which of them are admitted: at each
start the fades that have ended by then leave, and it is dropped when eight are left. The blocks that
the stream is cut into have no part in this.
-/

namespace WaveformGenerator.SignalLab

/-- The latest start so far, and the starts of the fades admitted. -/
structure Admission where
  now : Nat := 0
  admitted : List UInt64 := []

/-- The fades of `length` frames that have begun and not ended at `now`. -/
def Admission.active (m : Admission) (length now : Nat) : List UInt64 :=
  m.admitted.filter fun start => decide (now < start.toNat + length)

/-- The next start comes, no earlier than it is due. -/
def Admission.arrive (m : Admission) (length : Nat) (start : UInt64) : Admission where
  now := max m.now start.toNat
  admitted :=
    if (m.active length (max m.now start.toNat)).length < maxActiveFades then m.admitted ++ [start]
    else m.admitted

/-- Of the starts to come, those that are due before the frame `stop` and find a slot are no earlier
than the starts before them. -/
def Admission.InOrder (length stop : Nat) : Admission → List UInt64 → Prop
  | _, [] => True
  | m, start :: rest =>
    (max m.now start.toNat < stop →
      (m.active length (max m.now start.toNat)).length < maxActiveFades → m.now ≤ start.toNat) ∧
    InOrder length stop (m.arrive length start) rest

instance Admission.decideInOrder (length stop : Nat) :
    (m : Admission) → (starts : List UInt64) → Decidable (m.InOrder length stop starts)
  | _, [] => isTrue trivial
  | m, start :: rest =>
    have := decideInOrder length stop (m.arrive length start) rest
    inferInstanceAs (Decidable (_ ∧ _))

section
variable {R : Type} [Det R]

/-- The start frames of these times, without those past the stream's end. -/
def FadeSetup.framesOf (setup : FadeSetup R) (starts : List R) : List UInt64 :=
  (starts.map (Det.secondsToFrames · sampleRateHz)).filter fun frame =>
    decide (setup.totalFrames = 0 ∨ frame < setup.totalFrames)

theorem FadeSetup.framesOf_cons (setup : FadeSetup R) (seconds : R) (rest : List R) :
    setup.framesOf (seconds :: rest) =
      if setup.totalFrames = 0 ∨ Det.secondsToFrames seconds sampleRateHz < setup.totalFrames then
        Det.secondsToFrames seconds sampleRateHz :: setup.framesOf rest
      else
        setup.framesOf rest := by
  unfold FadeSetup.framesOf
  rw [List.map_cons, List.filter_cons]
  simp only [decide_eq_true_eq]

/-- The start frames of an explicit schedule. -/
def FadeSetup.startFrames (setup : FadeSetup R) : List UInt64 := setup.framesOf setup.params.starts

end

namespace FadeImpairment

variable {R : Type} [Det R] (f : FadeImpairment R)

/-- The schedule after `n` more starts than `f` has taken. -/
def arrivalsAfter : Nat → FadeArrivals R
  | 0 => f.arrivals
  | n + 1 => f.setup.advancePending (arrivalsAfter n)

def exhaustedAt (n : Nat) : Bool := (f.arrivalsAfter n).exhausted

/-- The start frame with the number `n`. -/
def startAt (n : Nat) : UInt64 := (f.arrivalsAfter n).pending

def admissionAfter : Nat → Admission
  | 0 => {}
  | n + 1 => (admissionAfter n).arrive f.setup.length.toNat (f.startAt n)

/-- The start with the number `n` finds a slot. -/
def HasSlot (n : Nat) : Prop :=
  ((f.admissionAfter n).active f.setup.length.toNat
    (max (f.admissionAfter n).now (f.startAt n).toNat)).length < maxActiveFades

/-- Of the starts that are due before the frame `stop`, those that find a slot come in order. -/
def InOrder (stop : Nat) : Prop :=
  ∀ n, (∀ k ≤ n, f.exhaustedAt k = false) →
    max (f.admissionAfter n).now (f.startAt n).toNat < stop → f.HasSlot n →
      (f.admissionAfter n).now ≤ (f.startAt n).toNat

/-- The first `n` starts are before the frame `stop`, and no further one is. -/
structure Ends (stop n : Nat) : Prop where
  before : ∀ k < n, f.exhaustedAt k = false ∧ (f.startAt k).toNat < stop
  done : f.exhaustedAt n = true ∨ stop ≤ (f.startAt n).toNat

variable {f}

/-! ## Admissions in order -/

theorem admissionAfter_now (n : Nat) :
    (f.admissionAfter (n + 1)).now = max (f.admissionAfter n).now (f.startAt n).toNat := rfl

theorem admissionAfter_slot {n : Nat} (h : f.HasSlot n) :
    (f.admissionAfter (n + 1)).admitted = (f.admissionAfter n).admitted ++ [f.startAt n] :=
  if_pos h

theorem admissionAfter_noSlot {n : Nat} (h : ¬f.HasSlot n) :
    (f.admissionAfter (n + 1)).admitted = (f.admissionAfter n).admitted :=
  if_neg h

instance (n : Nat) : Decidable (f.HasSlot n) := inferInstanceAs (Decidable (_ < _))

theorem now_mono {n m : Nat} (h : n ≤ m) : (f.admissionAfter n).now ≤ (f.admissionAfter m).now := by
  induction m, h using Nat.le_induction with
  | base => exact Nat.le_refl _
  | succ m _ ih => exact ih.trans (Nat.le_max_left ..)

theorem startAt_le_now {k n : Nat} (h : k < n) :
    (f.startAt k).toNat ≤ (f.admissionAfter n).now :=
  (Nat.le_max_right ..).trans (now_mono h)

theorem admitted_le_now {n : Nat} {start : UInt64}
    (h : start ∈ (f.admissionAfter n).admitted) : start.toNat ≤ (f.admissionAfter n).now := by
  induction n with
  | zero => cases h
  | succ n ih =>
    rw [admissionAfter_now]
    by_cases hslot : f.HasSlot n
    · rw [admissionAfter_slot hslot] at h
      rcases List.mem_append.mp h with h | h
      · exact (ih h).trans (Nat.le_max_left ..)
      · rw [List.mem_singleton.mp h]
        exact Nat.le_max_right ..
    · rw [admissionAfter_noSlot hslot] at h
      exact (ih h).trans (Nat.le_max_left ..)

theorem Ends.now_lt {stop last n : Nat} (e : f.Ends stop last) (hpos : 0 < stop) (h : n ≤ last) :
    (f.admissionAfter n).now < stop := by
  induction n with
  | zero => exact hpos
  | succ n ih =>
    rw [admissionAfter_now]
    exact Nat.max_lt.mpr ⟨ih (Nat.le_of_succ_le h), (e.before n h).2⟩

/-- A start that is admitted is no earlier than those before it. -/
theorem InOrder.now_le {stop last n : Nat} (o : f.InOrder stop) (e : f.Ends stop last)
    (h : n < last) (hslot : f.HasSlot n) :
    (f.admissionAfter n).now ≤ (f.startAt n).toNat := by
  have hstart := (e.before n h).2
  refine o n (fun k hk => (e.before k (hk.trans_lt h)).1) (Nat.max_lt.mpr ⟨?_, hstart⟩) hslot
  exact e.now_lt (Nat.zero_lt_of_lt hstart) h.le

/-- What is admitted later begins no earlier than the start that is then pending. -/
theorem InOrder.later {stop last n m : Nat} (o : f.InOrder stop) (e : f.Ends stop last)
    (hle : n ≤ m) (h : m ≤ last) :
    ∃ later, (f.admissionAfter m).admitted = (f.admissionAfter n).admitted ++ later ∧
      ∀ start ∈ later, (f.startAt n).toNat ≤ start.toNat := by
  induction m, hle using Nat.le_induction with
  | base => exact ⟨[], (List.append_nil _).symm, nofun⟩
  | succ m hle ih =>
    obtain ⟨later, hadmitted, hlater⟩ := ih (Nat.le_of_succ_le h)
    by_cases hslot : f.HasSlot m
    · have hnow := o.now_le e h hslot
      refine ⟨later ++ [f.startAt m], ?_, fun start hstart => ?_⟩
      · rw [admissionAfter_slot hslot, hadmitted, List.append_assoc]
      · rcases List.mem_append.mp hstart with hstart | hstart
        · exact hlater start hstart
        · rw [List.mem_singleton.mp hstart]
          rcases hle.eq_or_lt with rfl | hlt
          · exact Nat.le_refl _
          · exact (startAt_le_now hlt).trans hnow
    · exact ⟨later, by rw [admissionAfter_noSlot hslot, hadmitted], hlater⟩

/-! ## The schedules of a prepared stage -/

theorem exists_ends {stop n : Nat} (h : f.exhaustedAt n = true ∨ stop ≤ (f.startAt n).toNat) :
    ∃ last, f.Ends stop last := by
  have hexists : ∃ n, f.exhaustedAt n = true ∨ stop ≤ (f.startAt n).toNat := ⟨n, h⟩
  classical
  refine ⟨Nat.find hexists, fun k hk => ?_, Nat.find_spec hexists⟩
  have hmin := Nat.find_min hexists hk
  rw [not_or, Bool.not_eq_true, Nat.not_le] at hmin
  exact hmin

theorem forall_before {stop : Nat} (h : ¬∃ last, f.Ends stop last) (n : Nat) :
    f.exhaustedAt n = false ∧ (f.startAt n).toNat < stop := by
  refine ⟨Bool.eq_false_iff.mpr fun hexhausted => h (exists_ends (.inl hexhausted)), ?_⟩
  exact Nat.not_le.mp fun hle => h (exists_ends (.inr hle))

/-- What `prepare` leaves. -/
structure Prepared (f : FadeImpairment R) : Prop where
  active : f.active = []
  length : 0 < f.setup.length.toNat
  arrivals : ∃ (key : StageRandomKey) (nextPeriodic : UInt64), f.arrivals = f.setup.advancePending
    { rng := .reseed key.seed 8 key.index, position := Det.ofFrames f.setup.windowStart
      nextPeriodic }

theorem prepared {p : FadeParams R} {context : StageContext} (h : prepare p context = .ok f) :
    f.Prepared ∧ f.setup.params = p := by
  unfold prepare at h
  dsimp only at h
  split at h
  · cases h
  · rename_i hlength
    cases h
    refine ⟨⟨rfl, Nat.pos_of_ne_zero fun hzero => hlength (UInt64.toNat_inj.mp hzero), ?_⟩, rfl⟩
    exact ⟨_, _, rfl⟩

/-- The explicit schedule ends after its last start frame, and yields each before in its turn. -/
theorem advanceExplicit_spec (setup : FadeSetup R) (starts : List R) (arrivals : FadeArrivals R) :
    match setup.framesOf starts with
    | [] => (setup.advanceExplicit starts arrivals).exhausted = true
    | frame :: rest =>
      (setup.advanceExplicit starts arrivals).exhausted = arrivals.exhausted ∧
        (setup.advanceExplicit starts arrivals).pending = frame ∧
        ∃ taken, (setup.advanceExplicit starts arrivals).explicitIndex =
            arrivals.explicitIndex + taken ∧ setup.framesOf (starts.drop taken) = rest := by
  induction starts generalizing arrivals with
  | nil => rfl
  | cons seconds rest ih =>
    rw [FadeSetup.framesOf_cons]
    unfold FadeSetup.advanceExplicit
    by_cases hkept : setup.totalFrames = 0 ∨
      Det.secondsToFrames seconds sampleRateHz < setup.totalFrames
    · simp only [if_pos hkept]
      exact ⟨trivial, trivial, 1, rfl, rfl⟩
    · simp only [if_neg hkept]
      have hrest := ih { arrivals with explicitIndex := arrivals.explicitIndex + 1 }
      cases hframes : setup.framesOf rest with
      | nil =>
        rw [hframes] at hrest
        exact hrest
      | cons frame later =>
        rw [hframes] at hrest
        obtain ⟨hexhausted, hpending, taken, hindex, hdrop⟩ := hrest
        exact ⟨hexhausted, hpending, taken + 1, hindex.trans (Nat.add_right_comm ..), hdrop⟩

theorem advanceExplicit_exhausted (setup : FadeSetup R) (starts : List R)
    {arrivals : FadeArrivals R} (h : arrivals.exhausted = true) :
    (setup.advanceExplicit starts arrivals).exhausted = true := by
  induction starts generalizing arrivals with
  | nil => rfl
  | cons seconds rest ih =>
    unfold FadeSetup.advanceExplicit
    dsimp only
    split
    · exact h
    · exact ih h

/-- The explicit schedule yields its start frames one after another. -/
theorem Prepared.explicit_next (h : f.Prepared)
    (hschedule : f.setup.params.schedule = .explicitStarts) (n : Nat) :
    match f.setup.startFrames.drop n with
    | [] => f.exhaustedAt n = true
    | frame :: rest => f.exhaustedAt n = false ∧ f.startAt n = frame ∧
      f.setup.framesOf (f.setup.params.starts.drop (f.arrivalsAfter n).explicitIndex) = rest := by
  have hadvance : ∀ arrivals, f.setup.advancePending arrivals =
      f.setup.advanceExplicit (f.setup.params.starts.drop arrivals.explicitIndex) arrivals := by
    intro arrivals
    unfold FadeSetup.advancePending
    rw [hschedule]
  -- the start that comes after these arrivals
  have hnext : ∀ (arrivals : FadeArrivals R) n, arrivals.exhausted = false →
      f.arrivalsAfter n = f.setup.advancePending arrivals →
      f.setup.framesOf (f.setup.params.starts.drop arrivals.explicitIndex) =
        f.setup.startFrames.drop n →
      match f.setup.startFrames.drop n with
      | [] => f.exhaustedAt n = true
      | frame :: rest => f.exhaustedAt n = false ∧ f.startAt n = frame ∧
        f.setup.framesOf (f.setup.params.starts.drop (f.arrivalsAfter n).explicitIndex) = rest := by
    intro arrivals n hexhausted harrivals hframes
    have hspec := advanceExplicit_spec f.setup
      (f.setup.params.starts.drop arrivals.explicitIndex) arrivals
    rw [← hadvance, ← harrivals, hframes] at hspec
    cases hdrop : f.setup.startFrames.drop n with
    | nil =>
      rw [hdrop] at hspec
      exact hspec
    | cons frame rest =>
      rw [hdrop] at hspec
      obtain ⟨hkept, hpending, taken, hindex, hrest⟩ := hspec
      rw [List.drop_drop, ← hindex] at hrest
      exact ⟨hkept.trans hexhausted, hpending, hrest⟩
  induction n with
  | zero =>
    obtain ⟨key, nextPeriodic, harrivals⟩ := h.arrivals
    exact hnext _ 0 rfl harrivals rfl
  | succ n ih =>
    have hdrop : (f.setup.startFrames.drop n).tail = f.setup.startFrames.drop (n + 1) :=
      List.tail_drop
    cases hframes : f.setup.startFrames.drop n with
    | nil =>
      rw [hframes] at ih hdrop
      rw [← hdrop]
      exact (congrArg FadeArrivals.exhausted (hadvance (f.arrivalsAfter n))).trans
        (advanceExplicit_exhausted _ _ ih)
    | cons frame rest =>
      rw [hframes] at ih hdrop
      obtain ⟨hexhausted, -, hrest⟩ := ih
      exact hnext (f.arrivalsAfter n) (n + 1) hexhausted rfl (hrest.trans hdrop)

/-- The explicit schedule is in order when its start frames are, and comes to its end. -/
theorem Prepared.explicit_orderly (h : f.Prepared)
    (hschedule : f.setup.params.schedule = .explicitStarts) {stop : Nat}
    (horder : Admission.InOrder f.setup.length.toNat stop {} f.setup.startFrames) :
    f.InOrder stop ∧ ∃ last, f.Ends stop last := by
  have hrest (n : Nat) (hscheduled : ∀ k < n, f.exhaustedAt k = false) :
      (f.admissionAfter n).InOrder f.setup.length.toNat stop (f.setup.startFrames.drop n) := by
    induction n with
    | zero => exact horder
    | succ n ih =>
      have hbefore := ih fun k hk => hscheduled k (hk.trans (Nat.lt_succ_self n))
      have hstart := h.explicit_next hschedule n
      have hdrop : (f.setup.startFrames.drop n).tail = f.setup.startFrames.drop (n + 1) :=
        List.tail_drop
      rw [← hdrop]
      cases hframes : f.setup.startFrames.drop n with
      | nil => exact trivial
      | cons frame rest =>
        rw [hframes] at hbefore hstart
        obtain ⟨-, rfl, -⟩ := hstart
        exact hbefore.2
  refine ⟨fun n hscheduled hlt hslot => ?_, exists_ends (n := f.setup.startFrames.length) (.inl ?_)⟩
  · have horder := hrest n fun k hk => hscheduled k hk.le
    have hstart := h.explicit_next hschedule n
    cases hframes : f.setup.startFrames.drop n with
    | nil =>
      rw [hframes] at hstart
      rw [hscheduled n (Nat.le_refl n)] at hstart
      cases hstart
    | cons frame rest =>
      rw [hframes] at horder hstart
      obtain ⟨-, rfl, -⟩ := hstart
      exact horder.1 hlt hslot
  · have hend := h.explicit_next hschedule f.setup.startFrames.length
    rw [List.drop_length] at hend
    exact hend

/-- The periodic schedule ends, or its next start is a period on. -/
theorem advancePeriodic_cases (setup : FadeSetup R) (arrivals : FadeArrivals R) :
    (setup.advancePeriodic arrivals).exhausted = true ∨
      setup.period ≠ 0 ∧ (setup.advancePeriodic arrivals).pending = arrivals.nextPeriodic ∧
        (setup.advancePeriodic arrivals).nextPeriodic = arrivals.nextPeriodic + setup.period := by
  unfold FadeSetup.advancePeriodic
  split
  · exact .inl rfl
  · rename_i hnext
    exact .inr ⟨fun hzero => hnext (.inl hzero), rfl, rfl⟩

/-- Each start of the periodic schedule is followed by a later one, up to the frame `stop`. -/
theorem Prepared.periodic_next (h : f.Prepared) (hschedule : f.setup.params.schedule = .periodic)
    {stop : Nat} (hfits : stop + f.setup.period.toNat ≤ 2 ^ 64) (n : Nat)
    (hbefore : ∀ k < n, f.exhaustedAt k = false ∧ (f.startAt k).toNat < stop) :
    f.exhaustedAt n = true ∨ stop ≤ (f.startAt n).toNat ∨
      0 < f.setup.period.toNat ∧ n ≤ (f.startAt n).toNat ∧
        (f.admissionAfter n).now ≤ (f.startAt n).toNat ∧
        (f.arrivalsAfter n).nextPeriodic.toNat =
          (f.startAt n).toNat + f.setup.period.toNat := by
  have hadvance : ∀ arrivals, f.setup.advancePending arrivals = f.setup.advancePeriodic arrivals := by
    intro arrivals
    unfold FadeSetup.advancePending
    rw [hschedule]
  -- the start that comes next, and what it leaves for the one after it
  have hnext : ∀ arrivals : FadeArrivals R, ∀ n, f.arrivalsAfter n = f.setup.advancePending arrivals →
      f.exhaustedAt n = true ∨ stop ≤ (f.startAt n).toNat ∨
        0 < f.setup.period.toNat ∧ f.startAt n = arrivals.nextPeriodic ∧
          (f.arrivalsAfter n).nextPeriodic.toNat =
            (f.startAt n).toNat + f.setup.period.toNat := by
    intro arrivals n harrivals
    rw [hadvance] at harrivals
    rcases advancePeriodic_cases f.setup arrivals with hexhausted | ⟨hpos, hpending, hperiodic⟩
    · exact .inl ((congrArg FadeArrivals.exhausted harrivals).trans hexhausted)
    · rw [← harrivals] at hpending hperiodic
      rcases Nat.lt_or_ge (f.startAt n).toNat stop with hlt | hle
      · refine .inr (.inr ⟨?_, hpending, ?_⟩)
        · exact Nat.pos_of_ne_zero fun hzero => hpos (UInt64.toNat_inj.mp hzero)
        · rw [hperiodic, ← hpending]
          exact (UInt64.toNat_add ..).trans (Nat.mod_eq_of_lt (by
            change (f.arrivalsAfter n).pending.toNat < stop at hlt
            omega))
      · exact .inr (.inl hle)
  induction n with
  | zero =>
    obtain ⟨key, nextPeriodic, harrivals⟩ := h.arrivals
    refine (hnext _ 0 harrivals).imp_right (Or.imp_right fun ⟨hpos, _, hperiodic⟩ => ?_)
    exact ⟨hpos, Nat.zero_le _, Nat.zero_le _, hperiodic⟩
  | succ n ih =>
    obtain ⟨hscheduled, hlt⟩ := hbefore n (Nat.lt_succ_self n)
    rcases ih fun k hk => hbefore k (hk.trans (Nat.lt_succ_self n)) with
      hexhausted | hle | ⟨hpos, hcount, hnow, hperiodic⟩
    · rw [hscheduled] at hexhausted
      cases hexhausted
    · omega
    · refine (hnext (f.arrivalsAfter n) (n + 1) rfl).imp_right
        (Or.imp_right fun ⟨_, hstart, hafter⟩ => ?_)
      rw [← hstart] at hperiodic
      refine ⟨hpos, by omega, ?_, hafter⟩
      rw [admissionAfter_now]
      omega

/-- The periodic schedule is in order while 64 bits hold its starts, and comes to an end. -/
theorem Prepared.periodic_orderly (h : f.Prepared) (hschedule : f.setup.params.schedule = .periodic)
    {stop : Nat} (hfits : stop + f.setup.period.toNat ≤ 2 ^ 64) :
    f.InOrder stop ∧ ∃ last, f.Ends stop last := by
  refine ⟨fun n hscheduled hlt _ => ?_, ?_⟩
  · have hbefore : ∀ k < n, f.exhaustedAt k = false ∧ (f.startAt k).toNat < stop := fun k hk =>
      ⟨hscheduled k hk.le, (startAt_le_now hk).trans_lt (Nat.max_lt.mp hlt).1⟩
    rcases h.periodic_next hschedule hfits n hbefore with hexhausted | hle | ⟨-, -, hnow, -⟩
    · rw [hscheduled n (Nat.le_refl n)] at hexhausted
      cases hexhausted
    · exact absurd (Nat.max_lt.mp hlt).2 (Nat.not_lt.mpr hle)
    · exact hnow
  · by_contra hnone
    have hbefore := forall_before hnone
    rcases h.periodic_next hschedule hfits stop fun k _ => hbefore k with
      hexhausted | hle | ⟨-, hcount, -, -⟩
    · rw [(hbefore stop).1] at hexhausted
      cases hexhausted
    · exact absurd (hbefore stop).2 (Nat.not_lt.mpr hle)
    · exact absurd (hbefore stop).2 (Nat.not_lt.mpr hcount)

end FadeImpairment

end WaveformGenerator.SignalLab
