import WaveformGenerator.SignalLab.DetLaws
import WaveformGenerator.SignalLab.FadeAdmission

/-!
# The order of a schedule's starts

Which schedules yield the starts before a frame in order, and only so many of them. A Poisson
schedule does both in doubles: its gaps are not negative, and its generator draws the greatest gap
again and again, by which a position moves while it is not too large for that.
-/

namespace WaveformGenerator.SignalLab

open LawfulDet
open Rounding (between)

variable {R : Type} [Det R] [LawfulDet R]

/-! ## A Poisson start -/

theorem sampleRate_between : Between (Det.ofInt sampleRateHz.toNat : R) 48000 48000 :=
  between (ofInt (R := R) 48000) ⟨48000, 0, by norm_num⟩ ⟨48000, 0, by norm_num⟩ (by norm_num)
    (by norm_num) (by norm_num) (by norm_num)

theorem ofFrames_between (frames : UInt64) : Between (Det.ofFrames frames : R) 0 (2 ^ 64) := by
  have hlimit : (frames.toNat : ℚ) ≤ 2 ^ 64 := by exact_mod_cast frames.toNat_lt.le
  refine between (ofInt (R := R) frames.toNat) ⟨0, 0, by norm_num⟩ ⟨1, 64, by norm_num⟩ ?_ ?_
    (by norm_num) (by norm_num)
  · rw [Int.cast_natCast]
    exact Nat.cast_nonneg _
  · rwa [Int.cast_natCast]

theorem between_of_inRange {x low high : R} {l l' h h' : ℚ} (hlow : Between low l l')
    (hhigh : Between high h' h) (hrange : inRange x low high = true) : Between x l h := by
  unfold inRange at hrange
  rw [Bool.and_eq_true, Bool.and_eq_true, Bool.not_eq_true', Bool.not_eq_true'] at hrange
  obtain ⟨⟨hfinite, hnotLess⟩, hnotMore⟩ := hrange
  have hle := (lt hfinite hlow.finite).not.mp (ne_true_of_eq_false hnotLess)
  have hge := (lt hhigh.finite hfinite).not.mp (ne_true_of_eq_false hnotMore)
  exact ⟨hfinite, hlow.le_value.trans (not_lt.mp hle), (not_lt.mp hge).trans hhigh.value_le⟩

namespace FadeSetup

variable {setup : FadeSetup R}

/-- The mean gap of a Poisson schedule in frames. -/
def meanGap (setup : FadeSetup R) : R := Det.ofInt sampleRateHz.toNat / setup.params.ratePerSec

/-- The mean gap of an accepted rate, which the quotient misses by little. -/
theorem meanGap_between
    (h : inRange setup.params.ratePerSec 0.000001 (Det.ofInt sampleRateHz.toNat) = true) :
    0 < value setup.params.ratePerSec ∧ Between setup.meanGap 1 (2 ^ 36) ∧
      48000 / value setup.params.ratePerSec * (511 / 512) ≤ value setup.meanGap := by
  have hsample := (sampleRate_between (R := R))
  have hleast : Between (0.000001 : R) (1 / 2 ^ 20) 1 :=
    literal_between _ _ _ ⟨1, -20, by norm_num⟩ ⟨1, 0, by norm_num⟩ (by norm_num) (by norm_num)
      (by norm_num) (by norm_num)
  have hrate : Between setup.params.ratePerSec (1 / 2 ^ 20) 48000 :=
    between_of_inRange hleast hsample h
  have hpos : 0 < value setup.params.ratePerSec := lt_of_lt_of_le (by norm_num) hrate.le_value
  have hlow := hrate.le_value
  have hhigh := hrate.value_le
  have hquotient := div hsample.finite hrate.finite hpos.ne'
  rw [hsample.value_eq] at hquotient
  have hone : 1 ≤ 48000 / value setup.params.ratePerSec := (one_le_div hpos).mpr hhigh
  have hlimit : 48000 / value setup.params.ratePerSec ≤ 2 ^ 36 := by
    rw [div_le_iff₀ hpos]
    linarith
  refine ⟨hpos, between hquotient ⟨1, 0, by norm_num⟩ ⟨1, 36, by norm_num⟩ hone hlimit (by norm_num)
    (by norm_num), ?_⟩
  obtain ⟨-, hrounded⟩ := hquotient (abs_le.mpr ⟨by linarith, by linarith⟩)
  have herror := ((rounding R).relative (q := 48000 / value setup.params.ratePerSec)
    (by linarith)).1
  unfold meanGap
  rw [hrounded]
  linarith

/-- The schedule goes on by a gap that is not negative; by the greatest it moves from every position
that 16 means and a 16th bound. -/
theorem advancePoisson_position (hmean : Between setup.meanGap 1 (2 ^ 36))
    {arrivals : FadeArrivals R} (hposition : Between arrivals.position 0 (2 ^ 64)) :
    Between (setup.advancePoisson arrivals).position 0 (2 ^ 65) ∧
      value arrivals.position ≤ value (setup.advancePoisson arrivals).position ∧
      (arrivals.rng.next.1 = 0xFFFFFFFF →
        value arrivals.position / 2 ^ 53 ≤ value setup.meanGap * (257 / 16) →
        value arrivals.position + 1 / 4 ≤ value (setup.advancePoisson arrivals).position) := by
  obtain ⟨hgap, hgreatest⟩ := exponential_spec arrivals.rng hmean
  have hmoved : (setup.advancePoisson arrivals).position =
      arrivals.position + (arrivals.rng.exponential setup.meanGap).1 := by
    unfold advancePoisson
    dsimp only
    split
    · rfl
    · rfl
  rw [hmoved]
  generalize (arrivals.rng.exponential setup.meanGap).1 = gap at hgap hgreatest
  have hsum := add hposition.finite hgap.finite
  have hlow := hposition.le_value
  have hhigh := hposition.value_le
  have hgapLow := hgap.le_value
  have hgapHigh := hgap.value_le
  obtain ⟨-, hrounded⟩ := hsum (abs_le.mpr ⟨by linarith, by linarith⟩)
  refine ⟨between hsum ⟨0, 0, by norm_num⟩ ⟨1, 65, by norm_num⟩ (by linarith) (by linarith)
    (by norm_num) (by norm_num), ?_, fun hdraw hbound => ?_⟩
  · rw [hrounded]
    exact (rounding R).le_round (fits_value hposition.finite) (by linarith)
  · have hlarge := hgreatest hdraw
    have hone := hmean.le_value
    have herror := ((rounding R).error_of_nonneg (q := value arrivals.position + value gap)
      (by linarith)).1
    have htiny : (2 : ℚ) ^ (-1075 : ℤ) ≤ 2 ^ (-10 : ℤ) :=
      zpow_le_zpow_right₀ one_le_two (by norm_num)
    rw [show (2 : ℚ) ^ (-10 : ℤ) = 1 / 1024 by norm_num] at htiny
    rw [hrounded]
    linarith

/-- A start that comes is the whole number next to its position. -/
theorem advancePoisson_pending (hmean : Between setup.meanGap 1 (2 ^ 36))
    {arrivals : FadeArrivals R} (hposition : Between arrivals.position 0 (2 ^ 64))
    (h : (setup.advancePoisson arrivals).exhausted = false) :
    Between (setup.advancePoisson arrivals).position 0 (2 ^ 64) ∧
      ((setup.advancePoisson arrivals).pending.toNat : ℤ) =
        ⌊value (Det.roundHalfEven (setup.advancePoisson arrivals).position)⌋ := by
  have hnext := (advancePoisson_position hmean hposition).1
  obtain ⟨hfinite, hfloor⟩ := roundHalfEven_bounds hnext.finite (by
    rw [abs_of_nonneg hnext.le_value]
    linarith [hnext.value_le])
  obtain ⟨position, hmoved⟩ : ∃ position, (setup.advancePoisson arrivals).position = position :=
    ⟨_, rfl⟩
  have hpending : (Det.lt (Det.ofFrames setup.windowEnd) (Det.roundHalfEven position) ||
      Det.roundHalfEven position == Det.ofFrames setup.windowEnd ||
        Det.lt (Det.roundHalfEven position) 0.0) = false ∧
      (setup.advancePoisson arrivals).pending = Det.toUInt64 (Det.roundHalfEven position) := by
    subst hmoved
    unfold advancePoisson at h ⊢
    dsimp only at h ⊢
    split at h
    · cases h
    · rename_i hbefore
      simp only [if_neg hbefore, and_true]
      exact Bool.eq_false_iff.mpr hbefore
  rw [hmoved] at hnext hfinite hfloor ⊢
  obtain ⟨hbefore, hpending⟩ := hpending
  rw [Bool.or_eq_false_iff, Bool.or_eq_false_iff] at hbefore
  obtain ⟨⟨hnotAfter, hnotAt⟩, hnotBelow⟩ := hbefore
  have hend := ofFrames_between (R := R) setup.windowEnd
  have hle := not_lt.mp ((lt hend.finite hfinite).not.mp (ne_true_of_eq_false hnotAfter))
  have hne := (beq hfinite hend.finite).not.mp (ne_true_of_eq_false hnotAt)
  have hless : value (Det.roundHalfEven position) < 2 ^ 64 :=
    (lt_of_le_of_ne hle hne).trans_le hend.value_le
  have hwhole : (0 : ℤ) ≤ ⌊value position⌋ := Int.floor_nonneg.mpr hnext.le_value
  have hnonneg : 0 ≤ value (Det.roundHalfEven position) :=
    le_trans (by exact_mod_cast hwhole) hfloor
  have hlimit : ⌊value position⌋ < 2 ^ 64 := by exact_mod_cast hfloor.trans_lt hless
  refine ⟨⟨hnext.finite, hnext.le_value, ?_⟩, ?_⟩
  · have hbound := Int.floor_lt.mp hlimit
    push_cast at hbound
    exact hbound.le
  · rw [hpending]
    exact toUInt64 hfinite hnonneg hless

omit [LawfulDet R] in
theorem advancePoisson_rng (setup : FadeSetup R) (arrivals : FadeArrivals R) :
    (setup.advancePoisson arrivals).rng = arrivals.rng.next.2 := by
  unfold advancePoisson
  dsimp only
  split
  · rfl
  · rfl

end FadeSetup

namespace FadeImpairment

variable {f : FadeImpairment R} {stop : Nat}

/-! ## A Poisson schedule -/

/-- The position of the start with the number `n`. -/
def positionAt (f : FadeImpairment R) (n : Nat) : ℚ := value (f.arrivalsAfter n).position

/-- A schedule of random starts at an accepted rate. -/
structure Random (f : FadeImpairment R) : Prop where
  schedule : f.setup.params.schedule = .poisson
  rate : inRange f.setup.params.ratePerSec 0.000001 (Det.ofInt sampleRateHz.toNat) = true

omit [LawfulDet R] in
theorem Random.advance (r : f.Random) (arrivals : FadeArrivals R) :
    f.setup.advancePending arrivals = f.setup.advancePoisson arrivals := by
  unfold FadeSetup.advancePending
  rw [r.schedule]

theorem Random.between (r : f.Random) (h : f.Prepared) {n : Nat}
    (hscheduled : ∀ k ≤ n, f.exhaustedAt k = false) :
    Between (f.arrivalsAfter n).position 0 (2 ^ 64) ∧
      ((f.startAt n).toNat : ℤ) = ⌊value (Det.roundHalfEven (f.arrivalsAfter n).position)⌋ := by
  obtain ⟨-, hmean, -⟩ := FadeSetup.meanGap_between r.rate
  have hnext (arrivals : FadeArrivals R) (n : Nat)
      (harrivals : f.arrivalsAfter n = f.setup.advancePending arrivals)
      (hposition : Between arrivals.position 0 (2 ^ 64)) (h : f.exhaustedAt n = false) :
      Between (f.arrivalsAfter n).position 0 (2 ^ 64) ∧
        ((f.arrivalsAfter n).pending.toNat : ℤ) =
          ⌊value (Det.roundHalfEven (f.arrivalsAfter n).position)⌋ := by
    unfold exhaustedAt at h
    rw [harrivals, r.advance] at h ⊢
    exact FadeSetup.advancePoisson_pending hmean hposition h
  induction n with
  | zero =>
    obtain ⟨key, nextPeriodic, harrivals⟩ := h.arrivals
    exact hnext _ 0 harrivals (ofFrames_between _) (hscheduled 0 (Nat.le_refl 0))
  | succ n ih =>
    have hbefore := ih fun k hk => hscheduled k (hk.trans (Nat.le_succ n))
    exact hnext _ (n + 1) rfl hbefore.1 (hscheduled (n + 1) (Nat.le_refl _))

/-- A position is not before the one before it, and its start neither. -/
theorem Random.next_le (r : f.Random) (h : f.Prepared) {n : Nat}
    (hscheduled : ∀ k ≤ n + 1, f.exhaustedAt k = false) :
    f.positionAt n ≤ f.positionAt (n + 1) ∧ (f.startAt n).toNat ≤ (f.startAt (n + 1)).toNat := by
  obtain ⟨-, hmean, -⟩ := FadeSetup.meanGap_between r.rate
  obtain ⟨hposition, hstart⟩ := r.between h fun k hk => hscheduled k (hk.trans (Nat.le_succ n))
  obtain ⟨hposition', hstart'⟩ := r.between h hscheduled
  have hle : f.positionAt n ≤ f.positionAt (n + 1) := by
    have hmoves := (FadeSetup.advancePoisson_position hmean hposition).2.1
    rw [← r.advance] at hmoves
    exact hmoves
  refine ⟨hle, ?_⟩
  have hlimit {x : R} (hx : Between x 0 (2 ^ 64)) : |value x| ≤ 2 ^ 100 := by
    rw [abs_of_nonneg hx.le_value]
    linarith [hx.value_le]
  have hrounded := roundHalfEven_mono hposition.finite hposition'.finite (hlimit hposition)
    (hlimit hposition') hle
  have hfloor := Int.floor_le_floor hrounded
  rw [← hstart, ← hstart'] at hfloor
  exact_mod_cast hfloor

theorem Random.now_le (r : f.Random) (h : f.Prepared) {n : Nat}
    (hscheduled : ∀ k ≤ n, f.exhaustedAt k = false) :
    (f.admissionAfter n).now ≤ (f.startAt n).toNat := by
  induction n with
  | zero => exact Nat.zero_le _
  | succ n ih =>
    rw [admissionAfter_now]
    have hstep := (r.next_le h hscheduled).2
    have hbefore := ih fun k hk => hscheduled k (hk.trans (Nat.le_succ n))
    exact Nat.max_le.mpr ⟨hbefore.trans hstep, hstep⟩

theorem Random.inOrder (r : f.Random) (h : f.Prepared) : f.InOrder stop :=
  fun _ hscheduled _ _ => r.now_le h hscheduled

/-! ## Its end -/

omit [LawfulDet R] in
theorem Random.rng (r : f.Random) (n : Nat) :
    (f.arrivalsAfter n).rng = drawn f.arrivals.rng n := by
  induction n with
  | zero => rfl
  | succ n ih =>
    rw [drawn_succ, ← ih]
    show (f.setup.advancePending (f.arrivalsAfter n)).rng = _
    rw [r.advance, FadeSetup.advancePoisson_rng]

omit [LawfulDet R] in
/-- After every start there is one that the greatest gap leads on from. -/
theorem Random.greatest (r : f.Random) (h : f.Prepared) (n : Nat) :
    ∃ m, n ≤ m ∧ (f.arrivalsAfter m).rng.next.1 = 0xFFFFFFFF := by
  obtain ⟨key, nextPeriodic, harrivals⟩ := h.arrivals
  have hodd : (drawn f.arrivals.rng n).increment.toNat % 2 = 1 := by
    rw [drawn_increment, harrivals, r.advance, FadeSetup.advancePoisson_rng, next_increment]
    exact reseed_odd ..
  obtain ⟨m, hm⟩ := exists_greatest _ hodd
  rw [drawn_add, ← r.rng] at hm
  exact ⟨m + n, Nat.le_add_left n m, hm⟩

/-- While the greatest gap moves every position before `stop`, the schedule comes to an end. -/
theorem Random.ends (r : f.Random) (h : f.Prepared)
    (hstop : stop * value f.setup.params.ratePerSec ≤ 2 ^ 57 * 48000) :
    ∃ last, f.Ends stop last := by
  by_contra hnone
  have hbefore := forall_before hnone
  have hscheduled (n : Nat) : ∀ k ≤ n, f.exhaustedAt k = false := fun k _ => (hbefore k).1
  obtain ⟨hpos, hmean, hnear⟩ := FadeSetup.meanGap_between r.rate
  have hless (n : Nat) : f.positionAt n < stop := by
    obtain ⟨hposition, hstart⟩ := r.between h (hscheduled n)
    have hfloor := (roundHalfEven_bounds hposition.finite (by
      rw [abs_of_nonneg hposition.le_value]
      linarith [hposition.value_le])).2
    have hlt : ⌊f.positionAt n⌋ < stop := by
      have hle := Int.le_floor.mpr hfloor
      have := (hbefore n).2
      rw [← hstart] at hle
      show ⌊value (f.arrivalsAfter n).position⌋ < (stop : ℤ)
      omega
    exact_mod_cast Int.floor_lt.mp hlt
  have hmono {n m : Nat} (hle : n ≤ m) : f.positionAt n ≤ f.positionAt m := by
    induction m, hle using Nat.le_induction with
    | base => exact le_refl _
    | succ m _ ih => exact ih.trans (r.next_le h (hscheduled (m + 1))).1
  have hbound (n : Nat) : f.positionAt n / 2 ^ 53 ≤ value f.setup.meanGap * (257 / 16) := by
    rw [← le_div_iff₀ hpos] at hstop
    have hlt := hless n
    rw [mul_div_assoc] at hstop
    linarith
  -- Each of the greatest gaps moves the position by a quarter at least.
  have hreaches (count : Nat) : ∃ n, (count : ℚ) / 4 ≤ f.positionAt n := by
    induction count with
    | zero =>
      refine ⟨0, ?_⟩
      rw [Nat.cast_zero, zero_div]
      exact (r.between h (hscheduled 0)).1.le_value
    | succ count ih =>
      obtain ⟨n, hn⟩ := ih
      obtain ⟨m, hm, hdraw⟩ := r.greatest h n
      have hmoves := (FadeSetup.advancePoisson_position hmean (r.between h (hscheduled m)).1).2.2
        hdraw (hbound m)
      rw [← r.advance] at hmoves
      refine ⟨m + 1, ?_⟩
      have hle := hmono hm
      push_cast
      have hmoves : f.positionAt m + 1 / 4 ≤ f.positionAt (m + 1) := hmoves
      linarith
  obtain ⟨n, hn⟩ := hreaches (stop * 4)
  have hlt := hless n
  push_cast at hn
  linarith

/-! ## All schedules -/

/-- The starts before `stop` come in order and come to an end, and 64 bits hold what is added to
them: of an explicit schedule by the order of its start frames, of a Poisson schedule by a rate that
leaves each of its positions to be moved. -/
def Orderly (f : FadeImpairment R) (stop : Nat) : Prop :=
  stop + f.setup.length.toNat ≤ 2 ^ 64 ∧
    match f.setup.params.schedule with
    | .explicitStarts => Admission.InOrder f.setup.length.toNat stop {} f.setup.startFrames
    | .periodic => stop + f.setup.period.toNat ≤ 2 ^ 64
    | .poisson => stop * value f.setup.params.ratePerSec ≤ 2 ^ 57 * 48000

omit [LawfulDet R] in
theorem rate_inRange {p : FadeParams R} (h : validateFade p = .success)
    (hschedule : p.schedule = .poisson) :
    inRange p.ratePerSec 0.000001 (Det.ofInt sampleRateHz.toNat) = true := by
  unfold validateFade at h
  split at h
  · cases h
  · rw [hschedule] at h
    dsimp only at h
    split at h
    · assumption
    · cases h

/-- An orderly schedule is in order, and comes to an end before `stop`. -/
theorem Prepared.orderly (h : f.Prepared) (hvalid : validateFade f.setup.params = .success)
    (ho : f.Orderly stop) : f.InOrder stop ∧ ∃ last, f.Ends stop last := by
  obtain ⟨-, ho⟩ := ho
  cases hschedule : f.setup.params.schedule with
  | explicitStarts =>
    rw [hschedule] at ho
    exact h.explicit_orderly hschedule ho
  | periodic =>
    rw [hschedule] at ho
    exact h.periodic_orderly hschedule ho
  | poisson =>
    rw [hschedule] at ho
    have r : f.Random := ⟨hschedule, rate_inRange hvalid hschedule⟩
    exact ⟨r.inOrder h, r.ends h ho⟩

end FadeImpairment

end WaveformGenerator.SignalLab
