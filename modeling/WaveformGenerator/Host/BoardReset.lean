import WaveformGenerator.Lib.Doubles
import WaveformGenerator.Playlist.Numbering

/-!
# The board's resets (`host/live_control.py`)

A drain that lost its link judges by the first `PLAYLIST?` reply after it whether the board was
reset. The host's time is a double, and so is what is computed of it; what the comparison tells is
then said of the numbers that these doubles are.
-/

namespace WaveformGenerator.Host

open Binary64 Playlist

/-- The members of a `PLAYLIST?` reply that the judgement reads. An older image sends no tick. -/
structure PlaylistReply where
  state : State
  run : UInt32
  nextSeq : UInt32
  tick : Option UInt32 := none
  deriving DecidableEq, Repr

/-- A whole number in the source, which becomes a double where it is added to one. -/
def drainTickSlackMs : Float := 2000.0

def drainTickRateTolerance : Float := 0.01

inductive ResetRule
  | tick
  | sequence
  | idle
  | image
  deriving DecidableEq, Repr

/-- `max(elapsed_s, 0.0) * 1000.0`; `max` keeps its first argument unless the second is larger. -/
def hostMs (elapsedS : Float) : Float := (if elapsedS < 0.0 then 0.0 else elapsedS) * 1000.0

/-- Whether the tick did not run on by the host's time. -/
def tickStrays (elapsedS : Float) : Option UInt32 → Option UInt32 → Bool
  | some last, some now =>
    let advance := now - last
    let expected := hostMs elapsedS
    (advance.toFloat - expected).abs > drainTickSlackMs + drainTickRateTolerance * expected
  | _, _ => false

-- On the edge of the tolerance the doubles decide.
example : tickStrays 0.0801980198019802 (some 0) (some 2081) = true ∧
    tickStrays 0.3 (some 0) (some 2303) = false := by decide +kernel

/-- The rules by which `now`, the first reply after a lost link, shows a reset since `last`. -/
def boardReset (last now : PlaylistReply) (elapsedS : Float) : List ResetRule :=
  (if tickStrays elapsedS last.tick now.tick then [.tick] else []) ++
  (if now.run < last.run ∨ now.run = last.run ∧ now.nextSeq < last.nextSeq then [.sequence]
    else []) ++
  (if now.state = .idle ∧ last.state ≠ .idle then [.idle] else [])

/-- `PlaylistDrain._reset_seen`: whether the drain ends at the first reply of a new session. -/
def resetSeen (last : Option PlaylistReply) (imageChanged : Bool) (now : PlaylistReply)
    (elapsedS : Float) : Bool :=
  match last with
  | none => false
  | some last =>
    !(boardReset last now elapsedS ++ if imageChanged then [ResetRule.image] else []).isEmpty

/-- The board's reply `ms` milliseconds after its scheduler started. -/
def playlistSnapshot (ticked : Bool) (s : Sequencer) (ms : Nat) : PlaylistReply where
  state := s.progress.state
  run := s.progress.run
  nextSeq := s.results.nextSeq
  tick := if ticked then some (.ofNat ms) else none

/-! ## The rules -/

variable {last now : PlaylistReply} {elapsedS : Float}

theorem boardReset_eq_nil :
    boardReset last now elapsedS = [] ↔ tickStrays elapsedS last.tick now.tick = false ∧
      ¬ (now.run < last.run ∨ now.run = last.run ∧ now.nextSeq < last.nextSeq) ∧
      ¬ (now.state = .idle ∧ last.state ≠ .idle) := by
  have hrule (p : Prop) [Decidable p] (rule : ResetRule) :
      (if p then [rule] else []) = [] ↔ ¬ p := by
    split
    case isTrue hp => exact ⟨nofun, fun h => absurd hp h⟩
    case isFalse hp => exact ⟨fun _ => hp, fun _ => rfl⟩
  unfold boardReset
  rw [List.append_eq_nil_iff, List.append_eq_nil_iff, hrule, hrule, hrule, Bool.not_eq_true,
    and_assoc]

theorem resetSeen_iff {imageChanged : Bool} :
    resetSeen (some last) imageChanged now elapsedS = true ↔
      boardReset last now elapsedS ≠ [] ∨ imageChanged = true := by
  unfold resetSeen
  dsimp only
  generalize boardReset last now elapsedS = rules
  rw [Bool.not_eq_true', List.isEmpty_eq_false_iff, ne_eq, List.append_eq_nil_iff, not_and_or]
  cases imageChanged with
  | true => exact or_congr_right ⟨fun _ => rfl, fun _ => nofun⟩
  | false => exact or_congr_right ⟨fun h => absurd rfl h, nofun⟩

/-! ## The two times -/

/-- Two seconds and one percent of the host's time, as doubles have it. -/
def toleranceMs (host : ℚ) : ℚ :=
  binary64.round (2000 + binary64.round (binary64.round (1 / 100) * host))

/-- The board's time and the host's are farther apart than the tolerance, as doubles have it. -/
def Apart (boardMs : Nat) (elapsedS : Float) : Prop :=
  ∃ host, value (hostMs elapsedS) = some host ∧
    toleranceMs host < binary64.round |(boardMs : ℚ) - host|

theorem value_slack : value drainTickSlackMs = some 2000 := by decide +kernel

theorem round_hundredth : binary64.round (1 / 100) = 5764607523034235 / 576460752303423488 := by
  decide +kernel

theorem value_rateTolerance : value drainTickRateTolerance = some (binary64.round (1 / 100)) := by
  decide +kernel

theorem value_zero : value 0.0 = some 0 := by decide +kernel

theorem value_thousand : value 1000.0 = some 1000 := by decide +kernel

/-- The host's milliseconds of a time that is a number. -/
theorem value_hostMs {elapsed : ℚ} (h : value elapsedS = some elapsed) :
    value (hostMs elapsedS) = result (max elapsed 0 * 1000) := by
  unfold hostMs
  by_cases hnegative : elapsedS < 0.0
  · rw [if_pos hnegative, max_eq_right ((lt_iff h value_zero).mp hnegative).le]
    exact value_mul value_zero value_thousand
  · rw [if_neg hnegative, max_eq_left (not_lt.mp ((lt_iff h value_zero).not.mp hnegative))]
    exact value_mul h value_thousand

/-- The host's milliseconds are a number that is not negative, or past all numbers. -/
theorem hostMs_cases (elapsedS : Float) :
    (∃ host, value (hostMs elapsedS) = some host ∧ 0 ≤ host ∧ Binary64 host ∧ host < 2 ^ 1024) ∨
      value (hostMs elapsedS) = none ∧ ∃ f, Past f ∧ (hostMs elapsedS).toModel.unpack = f := by
  have hpast {f} (hf : Past f) (h : (hostMs elapsedS).toModel.unpack = f) :
      value (hostMs elapsedS) = none ∧ ∃ f, Past f ∧ (hostMs elapsedS).toModel.unpack = f := by
    refine ⟨?_, f, hf, h⟩
    unfold value
    rw [h]
    cases hf <;> rfl
  cases helapsed : value elapsedS with
  | some elapsed =>
    have hnonneg : 0 ≤ max elapsed 0 * 1000 := mul_nonneg (le_max_right ..) (by norm_num)
    have hvalue := value_hostMs helapsed
    cases hresult : result (max elapsed 0 * 1000) with
    | some host =>
      obtain ⟨rfl, hlimit⟩ := result_eq_some hresult
      exact .inl ⟨_, hvalue.trans hresult, binary64.round_nonneg hnonneg, binary64.fits_round _,
        (le_abs_self _).trans_lt hlimit⟩
    | none =>
      refine .inr (hpast .infinity ?_)
      unfold hostMs
      by_cases hnegative : elapsedS < 0.0
      · rw [max_eq_right ((lt_iff helapsed value_zero).mp hnegative).le] at hresult hnonneg
        rw [if_pos hnegative]
        exact unpack_mul_none value_zero value_thousand hnonneg hresult
      · rw [max_eq_left (not_lt.mp ((lt_iff helapsed value_zero).not.mp hnegative))]
          at hresult hnonneg
        rw [if_neg hnegative]
        exact unpack_mul_none helapsed value_thousand hnonneg hresult
  | none =>
    -- It is infinite, or not a number.
    have hkeeps {f} (hf : Past f) (h : elapsedS.toModel.unpack = f) :
        (hostMs elapsedS).toModel.unpack = f := by
      unfold hostMs
      rw [if_neg (not_past_lt h hf value_zero)]
      exact unpack_past_mul h hf value_thousand (by norm_num)
    unfold value at helapsed
    cases hunpack : elapsedS.toModel.unpack with
    | zero =>
      rw [hunpack] at helapsed
      cases helapsed
    | finite =>
      rw [hunpack] at helapsed
      cases helapsed
    | notANumber => exact .inr (hpast .notANumber (hkeeps .notANumber hunpack))
    | infinity sign =>
      cases sign with
      | positive => exact .inr (hpast .infinity (hkeeps .infinity hunpack))
      | negative =>
        refine .inl ⟨0, ?_, le_refl _, binary64.fits_zero, by positivity⟩
        unfold hostMs
        rw [if_pos (negative_infinity_lt hunpack value_zero), value_mul value_zero value_thousand,
          zero_mul, result_eq abs_zero.le binary64.fits_zero (by positivity),
          binary64.round_eq binary64.fits_zero]

/-- A double's rounding, for comparisons. -/
theorem round_near {q : ℚ} (h : 0 ≤ q) :
    q - (q / 2 ^ 53 + 1 / 2 ^ 60) ≤ binary64.round q ∧
      binary64.round q ≤ q + (q / 2 ^ 53 + 1 / 2 ^ 60) := by
  have hsmall : (2 : ℚ) ^ (-1075 : ℤ) ≤ 1 / 2 ^ 60 := by
    rw [one_div, ← zpow_natCast, ← zpow_neg]
    exact zpow_le_zpow_right₀ one_le_two (by norm_num)
  obtain ⟨hlow, hhigh⟩ := binary64.error_of_nonneg h
  constructor <;> linarith

/-- The tick strays exactly when the two times are apart. -/
theorem tickStrays_iff {last now : UInt32} :
    tickStrays elapsedS (some last) (some now) = true ↔ Apart (now - last).toNat elapsedS := by
  unfold tickStrays Apart
  dsimp only
  rw [decide_eq_true_iff]
  obtain ⟨host, hhost, hnonneg, hfits, hlimit⟩ | ⟨hnone, f, hf, hunpack⟩ := hostMs_cases elapsedS
  · have hrate : 0 ≤ binary64.round (1 / 100) * host ∧
        binary64.round (1 / 100) * host ≤ host / 64 := by
      rw [round_hundredth]
      constructor <;> linarith
    have hsmall := round_near hrate.1
    have hpart := binary64.round_nonneg hrate.1
    have hshare : value (drainTickRateTolerance * hostMs elapsedS) =
        some (binary64.round (binary64.round (1 / 100) * host)) := by
      rw [value_mul value_rateTolerance hhost]
      refine result_eq ?_ hfits hlimit
      rw [abs_of_nonneg hrate.1]
      linarith
    have htolerance : value (drainTickSlackMs + drainTickRateTolerance * hostMs elapsedS) =
        some (toleranceMs host) := by
      rw [value_add value_slack hshare]
      rcases le_or_gt host (2 ^ 20) with hle | hgt
      · refine result_eq (x := 2 ^ 20) ?_ ⟨1, 20, by norm_num, by norm_num, by norm_num⟩
          (pow_lt_pow_right₀ one_lt_two (by norm_num))
        rw [abs_of_nonneg (by linarith)]
        linarith
      · refine result_eq ?_ hfits hlimit
        rw [abs_of_nonneg (by linarith)]
        linarith
    have hdistance : value ((now - last).toFloat - hostMs elapsedS).abs =
        some (binary64.round |((now - last).toNat : ℚ) - host|) := by
      have hadvance := fits_toNat (now - last)
      have hpos : (0 : ℚ) ≤ (now - last).toNat := Nat.cast_nonneg _
      have hresult : result (((now - last).toNat : ℚ) - host) =
          some (binary64.round (((now - last).toNat : ℚ) - host)) := by
        rcases le_total ((now - last).toNat : ℚ) host with hle | hle
        · refine result_eq ?_ hfits hlimit
          rw [abs_of_nonpos (by linarith)]
          linarith
        · refine result_eq ?_ hadvance.1 hadvance.2
          rw [abs_of_nonneg (by linarith)]
          linarith
      rw [value_abs ((value_sub (value_toFloat _) hhost).trans hresult), abs_round]
    rw [gt_iff_lt, lt_iff htolerance hdistance, hhost]
    exact ⟨fun hless => ⟨host, rfl, hless⟩, fun ⟨_, hsame, hless⟩ => by
      cases hsame
      exact hless⟩
  · rw [hnone]
    refine ⟨fun hless => absurd hless ?_, nofun⟩
    exact not_lt_past (unpack_add_past value_slack
      (unpack_mul_past value_rateTolerance (by rw [round_hundredth]; norm_num) hunpack hf) hf)
      (unpack_abs_sub_past (value_toFloat _) hunpack hf) hf

/-- Both replies carry the tick, and what it shows of the board's time is apart from the host's. -/
def TicksApart (last now : PlaylistReply) (elapsedS : Float) : Prop :=
  ∃ tick tick', last.tick = some tick ∧ now.tick = some tick' ∧ Apart (tick' - tick).toNat elapsedS

theorem tickStrays_iff_ticksApart :
    tickStrays elapsedS last.tick now.tick = true ↔ TicksApart last now elapsedS := by
  unfold TicksApart
  cases last.tick with
  | none => exact ⟨nofun, fun ⟨_, _, h, _⟩ => by cases h⟩
  | some tick =>
    cases now.tick with
    | none => exact ⟨nofun, fun ⟨_, _, _, h, _⟩ => by cases h⟩
    | some tick' =>
      rw [tickStrays_iff]
      exact ⟨fun h => ⟨_, _, rfl, rfl, h⟩, fun ⟨_, _, h, h', happart⟩ => by
        cases h
        cases h'
        exact happart⟩

/-- What the doubles tell is what the numbers do, but for one part in `2 ^ 50`. -/
theorem apart_bounds {elapsed : ℚ} (helapsed : value elapsedS = some elapsed)
    (hlimit : max elapsed 0 * 1000 ≤ 2 ^ 100) (boardMs : Nat) :
    let host := max elapsed 0 * 1000
    let slack := (boardMs + host + 2000) / 2 ^ 50
    (2000 + host / 100 + slack < |boardMs - host| → Apart boardMs elapsedS) ∧
      (Apart boardMs elapsedS → 2000 + host / 100 - slack < |boardMs - host|) := by
  have hnonneg : 0 ≤ max elapsed 0 * 1000 := mul_nonneg (le_max_right ..) (by norm_num)
  have hresult : value (hostMs elapsedS) = some (binary64.round (max elapsed 0 * 1000)) := by
    rw [value_hostMs helapsed]
    refine result_eq (x := 2 ^ 100) ?_ ⟨1, 100, by norm_num, by norm_num, by norm_num⟩
      (pow_lt_pow_right₀ one_lt_two (by norm_num))
    rwa [abs_of_nonneg hnonneg]
  intro host slack
  have hhost := round_near hnonneg
  have hboard : (0 : ℚ) ≤ boardMs := Nat.cast_nonneg _
  have hpos := binary64.round_nonneg hnonneg
  -- Each step of the tolerance and of the distance is a little off.
  have htolerance : |toleranceMs (binary64.round host) - (2000 + host / 100)| ≤
      (host + 2000) / 2 ^ 52 := by
    unfold toleranceMs
    rw [round_hundredth]
    have hshare := round_near
      (q := 5764607523034235 / 576460752303423488 * binary64.round host) (by linarith)
    have hsum := round_near (q := 2000 + binary64.round
      (5764607523034235 / 576460752303423488 * binary64.round host)) (by linarith)
    rw [abs_le]
    constructor <;> linarith
  have hdistance : |(binary64.round (|(boardMs - binary64.round host : ℚ)|) -
      (|(boardMs - host : ℚ)|) : ℚ)| ≤
      (boardMs + host + 2000) / 2 ^ 51 := by
    have hround := round_near (abs_nonneg ((boardMs : ℚ) - binary64.round host))
    have hfar : |(boardMs : ℚ) - binary64.round host| ≤ boardMs + binary64.round host :=
      (abs_sub _ _).trans (by rw [abs_of_nonneg hboard, abs_of_nonneg hpos])
    have hshift := abs_le.mp (abs_abs_sub_abs_le ((boardMs : ℚ) - binary64.round host)
      (boardMs - host))
    have hmove : |(boardMs : ℚ) - binary64.round host - (boardMs - host)| ≤
        host / 2 ^ 53 + 1 / 2 ^ 60 := by
      rw [abs_le]
      constructor <;> linarith
    rw [abs_le]
    constructor <;> linarith
  obtain ⟨htolerance, htolerance'⟩ := abs_le.mp htolerance
  obtain ⟨hdistance, hdistance'⟩ := abs_le.mp hdistance
  have hslack : slack = (boardMs + host + 2000) / 2 ^ 50 := rfl
  constructor
  · intro hfar
    exact ⟨_, hresult, by linarith⟩
  · rintro ⟨host', hhost', hfar⟩
    rw [hresult] at hhost'
    cases hhost'
    linarith

theorem toNat_tick_sub (tick ms : Nat) :
    (UInt32.ofNat (tick + ms) - UInt32.ofNat tick).toNat = ms % 2 ^ 32 := by
  rw [UInt32.ofNat_add, UInt32.add_comm, UInt32.add_sub_cancel]
  rfl

/-! ## A board that ran on -/

/-- The host's time for `ms` milliseconds of the board's is a number, off by 2 s and one percent of
the board's at most. -/
def Measured (elapsedS : Float) (ms : Nat) : Prop :=
  ∃ elapsed, value elapsedS = some elapsed ∧ |elapsed * 1000 - ms| ≤ 2000 + ms / 100

/-- A board whose tick went through all of its range is apart from a host that measured it. -/
theorem apart_mod {ms : Nat} (hmeasured : Measured elapsedS ms) (hlong : 2 ^ 32 ≤ ms)
    (hcounted : value (hostMs elapsedS) ≠ none) : Apart (ms % 2 ^ 32) elapsedS := by
  obtain ⟨elapsed, helapsed, hnear⟩ := hmeasured
  obtain ⟨host, hhost⟩ := Option.ne_none_iff_exists'.mp hcounted
  refine ⟨host, hhost, ?_⟩
  have hresult := (value_hostMs helapsed).symm.trans hhost
  have hms : (2 : ℚ) ^ 32 ≤ ms := by exact_mod_cast hlong
  obtain ⟨hlow, hhigh⟩ := abs_le.mp hnear
  rw [max_eq_left (by linarith)] at hresult
  obtain ⟨rfl, -⟩ := result_eq_some hresult
  have hhostNear := round_near (q := elapsed * 1000) (by linarith)
  generalize binary64.round (elapsed * 1000) = host at hhostNear
  have hdivide : (ms : ℚ) = 4294967296 * (ms / 2 ^ 32 : Nat) + (ms % 2 ^ 32 : Nat) := by
    exact_mod_cast (Nat.div_add_mod ms (2 ^ 32)).symm
  have hrest : ((ms % 2 ^ 32 : Nat) : ℚ) < 4294967296 := by
    exact_mod_cast Nat.mod_lt ms (by decide : 0 < 2 ^ 32)
  have hrest' : (0 : ℚ) ≤ (ms % 2 ^ 32 : Nat) := Nat.cast_nonneg _
  have hlaps : (1 : ℚ) ≤ (ms / 2 ^ 32 : Nat) := by
    exact_mod_cast (Nat.one_le_div_iff (by decide)).mpr hlong
  generalize ((ms / 2 ^ 32 : Nat) : ℚ) = laps at hdivide hlaps
  generalize ((ms % 2 ^ 32 : Nat) : ℚ) = rest at hdivide hrest hrest'
  -- The host's time is longer than what the tick shows by most of the laps.
  have hlonger : 0 ≤ host - rest := by linarith
  rw [abs_sub_comm, abs_of_nonneg hlonger]
  have hdistance := (round_near hlonger).1
  unfold toleranceMs
  rw [round_hundredth]
  have hshare := round_near (q := 5764607523034235 / 576460752303423488 * host) (by linarith)
  have htolerance := round_near
    (q := 2000 + binary64.round (5764607523034235 / 576460752303423488 * host)) (by linarith)
  linarith

/-- The tick of a board that ran on strays when it went through all of its range, or when the host's
time is too short for the tolerance, which is a percent of that time. -/
theorem tickStrays_eq_false {tick ms : Nat} (hmeasured : Measured elapsedS ms) :
    tickStrays elapsedS (some (.ofNat tick)) (some (.ofNat (tick + ms))) = false ↔
      value (hostMs elapsedS) = none ∨ ms < 2 ^ 32 ∧ ¬Apart ms elapsedS := by
  rw [← Bool.not_eq_true, tickStrays_iff, toNat_tick_sub]
  by_cases hnone : value (hostMs elapsedS) = none
  · refine ⟨fun _ => .inl hnone, fun _ ⟨host, hhost, _⟩ => ?_⟩
    rw [hnone] at hhost
    cases hhost
  rcases Nat.lt_or_ge ms (2 ^ 32) with hless | hlong
  · rw [Nat.mod_eq_of_lt hless]
    exact ⟨fun happart => .inr ⟨hless, happart⟩, fun h => (h.resolve_left hnone).2⟩
  · have happart := apart_mod hmeasured hlong hnone
    exact ⟨fun h => absurd happart h,
      fun h => absurd (h.resolve_left hnone).1 (Nat.not_lt.mpr hlong)⟩

/-- Neither number has come around below what it was, as far as the other lets that be seen. -/
def NotWrapped (s : Sequencer) (notes : List Note) : Prop :=
  s.progress.run.toNat ≤ (s.progress.run.toNat + startedIn notes) % 2 ^ 32 ∧
    (startedIn notes % 2 ^ 32 = 0 →
      s.results.nextSeq.toNat ≤ (s.results.nextSeq.toNat + madeIn notes) % 2 ^ 32)

theorem notWrapped_iff {s s' : Sequencer} {notes : List Note} (h : Counts s s' notes) :
    ¬ (s'.progress.run < s.progress.run ∨
      s'.progress.run = s.progress.run ∧ s'.results.nextSeq < s.results.nextSeq) ↔
      NotWrapped s notes := by
  have hnumber (n : UInt32) (k : Nat) : (n + .ofNat k).toNat = (n.toNat + k) % 2 ^ 32 := by
    rw [UInt32.toNat_add, UInt32.toNat_ofNat', Nat.add_mod_mod]
  have hrun := s.progress.run.toNat_lt
  unfold NotWrapped
  rw [h.run, h.nextSeq, not_or, not_and, UInt32.lt_iff_toNat_lt, UInt32.lt_iff_toNat_lt,
    ← UInt32.toNat_inj, hnumber, hnumber, not_lt, not_lt]
  refine and_congr_right fun _ => ?_
  have hsame : (s.progress.run.toNat + startedIn notes) % 2 ^ 32 = s.progress.run.toNat ↔
      startedIn notes % 2 ^ 32 = 0 := by omega
  rw [hsame]

/-- A board that ran on shows no rule unless its tick or a number came around or the host's time is
too short for the tolerance. A board whose run or next block number is lower shows one unless its
run number is higher and neither its tick nor its state gives it away. -/
theorem boardReset_iff (ticked : Bool) (s : Sequencer) (later : List Turn) (tick ms : Nat)
    (last now : PlaylistReply) (imageChanged : Bool) (elapsedS : Float) :
    (Measured elapsedS ms →
      (boardReset (playlistSnapshot ticked s tick)
          (playlistSnapshot ticked (s.turns later).1 (tick + ms)) elapsedS = [] ↔
        (ticked = true → value (hostMs elapsedS) = none ∨ ms < 2 ^ 32 ∧ ¬Apart ms elapsedS) ∧
          NotWrapped s (s.turns later).2)) ∧
    (now.run < last.run ∨ now.nextSeq < last.nextSeq →
      (boardReset last now elapsedS ≠ [] ↔ now.run ≤ last.run ∨ TicksApart last now elapsedS ∨
        (now.state = .idle ∧ last.state ≠ .idle)) ∧
      (resetSeen (some last) imageChanged now elapsedS = true ↔ imageChanged = true ∨
        now.run ≤ last.run ∨ TicksApart last now elapsedS ∨
          (now.state = .idle ∧ last.state ≠ .idle))) ∧
    ∀ elapsed, value elapsedS = some elapsed → max elapsed 0 * 1000 ≤ 2 ^ 100 → ∀ boardMs : Nat,
      let host := max elapsed 0 * 1000
      let slack := (boardMs + host + 2000) / 2 ^ 50
      (2000 + host / 100 + slack < |boardMs - host| → Apart boardMs elapsedS) ∧
        (Apart boardMs elapsedS → 2000 + host / 100 - slack < |boardMs - host|) := by
  refine ⟨?_, ?_, fun elapsed => apart_bounds⟩
  · intro hmeasured
    have hcounts := s.counts_turns later
    rw [boardReset_eq_nil]
    refine and_congr ?_ ⟨fun h => (notWrapped_iff hcounts).mp h.1, fun h => ?_⟩
    · cases ticked with
      | false => exact ⟨fun _ => nofun, fun _ => rfl⟩
      | true => exact (tickStrays_eq_false hmeasured).trans ⟨fun h _ => h, fun h => h rfl⟩
    · exact ⟨(notWrapped_iff hcounts).mpr h, fun hidle => hidle.2 (hcounts.idle hidle.1)⟩
  · intro hlower
    have hsequence : (now.run < last.run ∨ now.run = last.run ∧ now.nextSeq < last.nextSeq) ↔
        now.run ≤ last.run := by
      constructor
      · rintro (hrun | ⟨hrun, -⟩)
        · exact UInt32.le_of_lt hrun
        · exact UInt32.le_of_eq hrun
      · intro hrun
        obtain hrun | hrun := UInt32.lt_or_eq_of_le hrun
        · exact .inl hrun
        · exact .inr ⟨hrun, hlower.resolve_left (hrun ▸ UInt32.lt_irrefl _)⟩
    have hrules : boardReset last now elapsedS ≠ [] ↔ now.run ≤ last.run ∨
        TicksApart last now elapsedS ∨ (now.state = .idle ∧ last.state ≠ .idle) := by
      rw [ne_eq, boardReset_eq_nil, hsequence, ← Bool.not_eq_true, tickStrays_iff_ticksApart]
      tauto
    exact ⟨hrules, resetSeen_iff.trans (by rw [hrules]; exact or_comm)⟩

/-- A second on, no rule; and a lower run number is seen. -/
theorem boardReset_iff_second :
    boardReset (playlistSnapshot true {} 5) (playlistSnapshot true {} 1005) 1.0 = [] ∧
      resetSeen (some ⟨.running, 2, 7, none⟩) false ⟨.running, 1, 9, none⟩ 30.0 = true ∧
      Apart 5000 1.0 := by
  have hone : value 1.0 = some 1 := by decide +kernel
  have hmeasured : Measured 1.0 1000 := by
    refine ⟨1, hone, ?_⟩
    norm_num
  have hbounds := (boardReset_iff true {} [] 5 1000 ⟨.running, 2, 7, none⟩ ⟨.running, 1, 9, none⟩
    false 1.0).2.2 1 hone (by norm_num)
  have hnear : ¬Apart 1000 1.0 := fun happart => by
    have hfar := (hbounds 1000).2 happart
    norm_num at hfar
  refine ⟨((boardReset_iff true {} [] 5 1000 ⟨.running, 2, 7, none⟩ ⟨.running, 1, 9, none⟩
    false 1.0).1 hmeasured).mpr ⟨fun _ => .inr ⟨by decide, hnear⟩, ?_⟩, ?_, ?_⟩
  · exact ⟨by decide, fun _ => by decide⟩
  · exact ((boardReset_iff true {} [] 5 1000 ⟨.running, 2, 7, none⟩ ⟨.running, 1, 9, none⟩
      false 30.0).2.1 (.inl (by decide))).2.mpr (.inr (.inl (by decide)))
  · refine (hbounds 5000).1 ?_
    norm_num

/-! ## A reset between two runs -/

def playedItem : List Turn := [{}, {}, {}, { ended := some { state := .done } }, {}]

theorem size_noItems : ([] : List Playlist.Item).length ≤ Playlist.maxItems := by decide

def noItems : ItemTable := ⟨[], size_noItems⟩

/-- A playlist of two items, played. -/
def twoPlayed : Sequencer :=
  (({ table := noItems } : Sequencer).turns ({ served := some (.playlistStart "A.PLY"
    { items := [{ file := "A.WAV" }, { file := "B.WAV" }] } .stop) } ::
      (playedItem ++ [({} : Turn)] ++ playedItem))).1

/-- A playlist of one item, played, and one begun. -/
def secondBegun : Sequencer :=
  (({ table := noItems } : Sequencer).turns ({ served := some (.playlistStart "A.PLY"
    { items := [{ file := "A.WAV" }] } .stop) } :: (playedItem ++
      [({} : Turn), { served := some (.playlistStart "A.PLY"
        { items := [{ file := "A.WAV" }] } .stop) }]))).1

/-- A board that an image without the tick runs on: reset between the replies, its next block number
is lower, and no rule shows. -/
theorem boardReset_secondRun :
    (playlistSnapshot false secondBegun 0).nextSeq < (playlistSnapshot false twoPlayed 0).nextSeq ∧
      boardReset (playlistSnapshot false twoPlayed 0) (playlistSnapshot false secondBegun 0) 30.0 =
        [] ∧
      resetSeen (some (playlistSnapshot false twoPlayed 0)) false
        (playlistSnapshot false secondBegun 0) 30.0 = false := by
  have hlast : playlistSnapshot false twoPlayed 0 = ⟨.gap, 1, 3, none⟩ := by decide +kernel
  have hnow : playlistSnapshot false secondBegun 0 = ⟨.running, 2, 2, none⟩ := by decide +kernel
  rw [hlast, hnow]
  exact ⟨by decide, by decide, by decide⟩

end WaveformGenerator.Host
