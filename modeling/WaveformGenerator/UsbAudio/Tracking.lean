import WaveformGenerator.UsbAudio.Readings

/-!
# The counts of missed intervals over a watched run

The stream's count is off the intervals truly skipped by its first and its latest late read; the
play's exceeds its own by the late reads it holds.
-/

namespace WaveformGenerator.UsbAudio

/-! ## One gap -/

/-- `confirmedMissed` of the play. -/
def Gauge.confirmed (g : Gauge) : IntervalCount :=
  if g.missUnconfirmed then missedAfterGap g.playMissed 0 else g.playMissed

/-- The frame number as the stream masks it. -/
theorem Reading.toNat_frame (r : Reading) :
    (r.frame.toUInt32 &&& usbFrameNumberMask).toNat = r.number % 2048 :=
  toNat_frameNumber r.number

/-- The gap between two readings is told exactly. -/
theorem Reading.gap_eq {p r : Reading} (before : p.Before r) {last : UsbFrameCount}
    (hlast : last.toNat % 2048 = p.number % 2048) :
    (dealiasedGap (((r.frame.toUInt32 &&& usbFrameNumberMask) - last) &&& usbFrameNumberMask)
      (r.tick - p.tick)).toNat = r.number - p.number := by
  obtain ⟨hlt, hearly, hlate, hfits⟩ := before
  have hle : p.number ≤ r.number := by
    have := p.late.toNat_le
    unfold number
    omega
  exact dealiasedGap_numbers hle (by omega) hearly hlate hlast

/-- A gap adds its missed intervals, or takes one back. -/
theorem toNat_missedAfterGap_le (missed : IntervalCount) (gap : UsbFrameSpan) :
    (missedAfterGap missed gap).toNat ≤ missed.toNat + gap.toNat - 1 := by
  by_cases hgap : gap.toNat = 0
  · have h0 : gap = 0 := UInt32.toNat_inj.mp hgap
    rw [h0, missedAfterGap_zero]
    exact Nat.le_refl _
  · rw [missedAfterGap_of_pos missed (Nat.pos_of_ne_zero hgap)]
    have := Nat.mod_le (missed.toNat + (gap.toNat - 1)) (2 ^ 32)
    omega

/-- The stream's count keeps to the intervals skipped, off by the first and latest late reads. -/
theorem missedAfterGap_accurate {missed : IntervalCount} {gap : UsbFrameSpan} {p r oldest : Reading}
    {skipped : Nat} (hlt : p.interval < r.interval) (hgap : gap.toNat = r.number - p.number)
    (hfits : skipped + (r.interval - p.interval - 1) + r.late.toNat < 2 ^ 32)
    (hlow : skipped + p.late.toNat ≤ missed.toNat + oldest.late.toNat)
    (hhigh : missed.toNat ≤ skipped + p.late.toNat) :
    skipped + (r.interval - p.interval - 1) + r.late.toNat ≤
        (missedAfterGap missed gap).toNat + oldest.late.toNat ∧
      (missedAfterGap missed gap).toNat ≤
        skipped + (r.interval - p.interval - 1) + r.late.toNat := by
  have hp := p.late.toNat_le
  have ho := oldest.late.toNat_le
  have hr := r.late.toNat_le
  unfold Reading.number at hgap
  by_cases hzero : gap.toNat = 0
  · -- The gap of a late read and the timely one after it.
    have h0 : gap = 0 := UInt32.toNat_inj.mp hzero
    rw [h0, missedAfterGap_zero]
    omega
  · rw [missedAfterGap_of_pos missed (Nat.pos_of_ne_zero hzero), Nat.mod_eq_of_lt (by omega)]
    omega

/-- What the play's count holds beside the intervals truly skipped. -/
structure Judged.Bounds (j : Judged) (g : Gauge) : Prop where
  missed : g.playMissed.toNat ≤ j.skipped + j.leftLate + j.countsLate.toNat
  confirmed : j.passedOn = false → g.confirmed.toNat ≤ j.skipped + j.leftLate

theorem Gauge.confirmed_le (g : Gauge) : g.confirmed.toNat ≤ g.playMissed.toNat := by
  unfold confirmed
  split
  · rw [missedAfterGap_zero]
    exact Nat.sub_le ..
  · exact Nat.le_refl _

/-- The play's judging stops, whatever its count still holds. -/
theorem Judged.Bounds.leave {j : Judged} {g : Gauge}
    (missed : g.playMissed.toNat ≤ j.skipped + j.leftLate + j.countsLate.toNat) :
    j.leave.Bounds g := by
  have hmissed : g.playMissed.toNat ≤ j.skipped + (j.leftLate + j.countsLate.toNat) := by omega
  exact ⟨hmissed, fun _ => g.confirmed_le.trans hmissed⟩

/-- A gap judged for the play. -/
theorem Judged.Bounds.judged {j : Judged} {missed : IntervalCount} {p r : Reading}
    {elapsed : UsbFrameSpan} (hmissed : missed.toNat ≤ j.skipped + j.leftLate + j.countsLate.toNat)
    (late : j.countsLate = true → p.late = true) (hlt : p.interval < r.interval)
    (hgap : elapsed.toNat = r.number - p.number) :
    (missedAfterGap missed elapsed).toNat ≤
        (j.across true p r).skipped + (j.across true p r).leftLate +
          (j.across true p r).countsLate.toNat ∧
      ((j.across true p r).passedOn = false → missed.toNat < (missedAfterGap missed elapsed).toNat ∨
        (missedAfterGap missed elapsed).toNat ≤
          (j.across true p r).skipped + (j.across true p r).leftLate) := by
  have hafter := toNat_missedAfterGap_le missed elapsed
  have hexact : 0 < elapsed.toNat → (missedAfterGap missed elapsed).toNat =
      (missed.toNat + (elapsed.toNat - 1)) % 2 ^ 32 := missedAfterGap_of_pos missed
  have hm := missed.toNat_lt
  have he := elapsed.toNat_lt
  generalize (missedAfterGap missed elapsed).toNat = after at hafter hexact ⊢
  unfold Reading.number at hgap
  unfold Judged.across
  rw [if_pos rfl]
  dsimp only
  -- A late read adds one to a gap after a timely one, and takes one from the next.
  cases hp : p.late with
  | false =>
    have hj : j.countsLate = false := by
      by_contra hj
      rw [late (by simpa using hj)] at hp
      cases hp
    rw [hp] at hgap
    rw [hj] at hmissed
    cases hr : r.late with
    | false =>
      rw [hr] at hgap
      simp only [Bool.toNat_false, Bool.not_false, Bool.true_or, Bool.and_true] at *
      exact ⟨by omega, fun _ => .inr (by omega)⟩
    | true =>
      rw [hr] at hgap
      simp only [Bool.toNat_false, Bool.toNat_true, Bool.not_false, Bool.true_or, Bool.and_true] at *
      exact ⟨by omega, fun _ => by omega⟩
  | true =>
    rw [hp] at hgap
    cases hr : r.late with
    | false =>
      rw [hr] at hgap
      have hj := j.countsLate.toNat_le
      simp only [Bool.toNat_false, Bool.toNat_true, Bool.false_and] at *
      exact ⟨by omega, fun _ => .inr (by omega)⟩
    | true =>
      rw [hr] at hgap
      simp only [Bool.toNat_true, Bool.not_true, Bool.false_or, Bool.true_and, Bool.and_eq_false_iff,
        beq_eq_false_iff_ne] at *
      refine ⟨by omega, fun hpassed => ?_⟩
      rcases hpassed with hj | hlonger
      · rw [hj, Bool.toNat_false] at hmissed
        exact .inr (by omega)
      · have hj := j.countsLate.toNat_le
        omega

theorem Judged.Bounds.across {j : Judged} {g : Gauge} {p r : Reading} {elapsed : UsbFrameSpan}
    (missed : g.playMissed.toNat ≤ j.skipped + j.leftLate + j.countsLate.toNat)
    (late : j.countsLate = true → p.late = true) (hlt : p.interval < r.interval)
    (hgap : elapsed.toNat = r.number - p.number) (pending : Bool) :
    (j.across (g.judges pending elapsed) p r).Bounds (g.judge pending elapsed) := by
  have hplay : (g.judge pending elapsed).playMissed =
      if g.judges pending elapsed then missedAfterGap g.playMissed elapsed else g.playMissed := rfl
  have hunconfirmed : (g.judge pending elapsed).missUnconfirmed =
      if g.judges pending elapsed then
        decide (missedAfterGap g.playMissed elapsed > g.playMissed)
      else g.missUnconfirmed := rfl
  cases hjudges : g.judges pending elapsed with
  | false =>
    rw [hjudges, if_neg Bool.false_ne_true] at hplay
    refine .leave ?_
    rw [hplay]
    exact missed
  | true =>
    rw [hjudges, if_pos rfl] at hplay hunconfirmed
    obtain ⟨hmissed, hpassed⟩ := Bounds.judged missed late hlt hgap
    refine ⟨by rw [hplay]; exact hmissed, fun hnot => ?_⟩
    rcases hpassed hnot with hmore | hle
    · -- The gap added to the count: all but one of it is confirmed.
      have hless := (j.across true p r).countsLate.toNat_le
      rw [Gauge.confirmed, hunconfirmed, if_pos (decide_eq_true (UInt32.lt_iff_toNat_lt.mpr hmore)),
        hplay, missedAfterGap_zero]
      omega
    · refine (Gauge.confirmed_le _).trans ?_
      rw [hplay]
      exact hle

/-! ## The invariant of watched runs -/

structure Watch.Tracks (w : Watch) : Prop where
  valid : w.bus.stream.gauge.valid = !w.reads.isEmpty
  last : ∀ r ∈ w.reads.head?, w.bus.stream.gauge.last.toNat % 2048 = r.number % 2048 ∧
    w.bus.stream.gauge.lastTick = r.tick
  count : w.bus.stream.gauge.missedIntervals = w.missedBefore + w.bus.stream.gauge.streamMissed
  fresh : w.reads = [] → w.bus.stream.gauge.streamMissed = 0
  accurate : Reading.Fits w.reads → ∀ newest ∈ w.reads.head?, ∀ oldest ∈ w.reads.getLast?,
    Reading.skipped w.reads + newest.late.toNat ≤
        w.bus.stream.gauge.streamMissed.toNat + oldest.late.toNat ∧
      w.bus.stream.gauge.streamMissed.toNat ≤ Reading.skipped w.reads + newest.late.toNat
  late : w.judged.countsLate = true → ∃ r ∈ w.reads.head?, r.late = true
  bounds : w.judged.Bounds w.bus.stream.gauge

namespace Watch

variable {σ : Type} [FrameSource σ] {w : Watch}

theorem Tracks.initial : Tracks {} where
  valid := rfl
  last := nofun
  count := rfl
  fresh := fun _ => rfl
  accurate := fun _ => nofun
  late := nofun
  bounds := ⟨Nat.zero_le _, fun _ => Nat.zero_le _⟩

/-- The stream's first data completion starts its counts. -/
theorem Tracks.first (t : w.Tracks) (hnone : w.reads = []) (r : Reading) {bus : Bus}
    {pending : Bool} (hgauge : bus.stream.gauge = w.bus.stream.gauge.track pending
      (r.frame.toUInt32 &&& usbFrameNumberMask) r.tick) :
    Tracks { w.read r with bus } := by
  have hvalid := t.valid
  rw [hnone] at hvalid
  have htrack : bus.stream.gauge = { w.bus.stream.gauge with
      last := r.frame.toUInt32 &&& usbFrameNumberMask
      lastTick := r.tick
      valid := true
      streamMissed := 0
      missUnconfirmed := false } := hgauge.trans (Gauge.track_first hvalid ..)
  have hread : w.read r = { w with reads := [r] } := by
    rw [read, hnone]
    rfl
  have hlate : w.judged.countsLate = false := by
    by_contra hlate
    obtain ⟨r', hr', -⟩ := t.late (by simpa using hlate)
    rw [hnone] at hr'
    cases hr'
  have hmissed := t.bounds.missed
  rw [hlate] at hmissed
  rw [hread]
  refine ⟨?_, ?_, ?_, nofun, fun _ => ?_, fun hl => ?_, ?_, fun _ => ?_⟩
  · rw [htrack]
    rfl
  · rintro r' hr'
    cases hr'
    rw [htrack]
    refine ⟨?_, rfl⟩
    show (r.frame.toUInt32 &&& usbFrameNumberMask).toNat % 2048 = _
    rw [r.toNat_frame, Nat.mod_mod]
  · have hcount := t.count
    rw [t.fresh hnone] at hcount
    rw [htrack]
    exact hcount
  · intro newest hnewest oldest holdest
    have hn : r = newest := Option.some.inj hnewest
    have ho : r = oldest := Option.some.inj holdest
    rw [htrack, ← hn, ← ho]
    have hskipped : Reading.skipped [r] = 0 := rfl
    have hzero : (0 : IntervalCount).toNat = 0 := rfl
    dsimp only
    rw [hskipped, hzero]
    omega
  · dsimp only at hl
    rw [hlate] at hl
    cases hl
  · rw [htrack, hlate]
    exact hmissed
  · rw [htrack]
    exact hmissed

/-- Each later one ends a gap. -/
theorem Tracks.next (t : w.Tracks) {p : Reading} {rs : List Reading} (hreads : w.reads = p :: rs)
    {r : Reading} (before : p.Before r) {bus : Bus}
    (hgauge : bus.stream.gauge =
      w.bus.stream.gauge.track (decide (w.bus.stream.play.pendingFrames ≠ 0))
        (r.frame.toUInt32 &&& usbFrameNumberMask) r.tick) :
    Tracks { w.read r with bus } := by
  have hvalid := t.valid
  rw [hreads] at hvalid
  obtain ⟨hlast, htick⟩ := t.last p (by rw [hreads]; rfl)
  -- The gap as the stream tells it.
  obtain ⟨elapsed, helapsed⟩ : ∃ elapsed, elapsed = dealiasedGap
    (((r.frame.toUInt32 &&& usbFrameNumberMask) - w.bus.stream.gauge.last) &&& usbFrameNumberMask)
    (r.tick - p.tick) := ⟨_, rfl⟩
  have hgap : elapsed.toNat = r.number - p.number := by
    rw [helapsed]
    exact Reading.gap_eq before hlast
  obtain ⟨g, hg⟩ : ∃ g : Gauge, g = { w.bus.stream.gauge with
      last := w.bus.stream.gauge.last + elapsed
      lastTick := r.tick
      missUnconfirmed := false } := ⟨_, rfl⟩
  have htrack : bus.stream.gauge =
      g.judge (decide (w.bus.stream.play.pendingFrames ≠ 0)) elapsed := by
    rw [hgauge, Gauge.track_next hvalid, htick, ← helapsed, hg]
  have hle : p.number ≤ r.number := by
    have := p.late.toNat_le
    have := before.1
    unfold Reading.number
    omega
  have hjudges : w.judges p r =
      g.judges (decide (w.bus.stream.play.pendingFrames ≠ 0)) elapsed := by
    have hzero : (r.number == p.number) = (elapsed == 0) := by
      rw [Bool.eq_iff_iff, beq_iff_eq, beq_iff_eq, ← UInt32.toNat_inj, hgap]
      show _ ↔ _ = 0
      omega
    rw [judges, hzero, hg]
    rfl
  have hread : w.read r = { w with
      reads := r :: w.reads
      judged := w.judged.across (w.judges p r) p r } := by
    rw [read, hreads]
    rfl
  have hlate : w.judged.countsLate = true → p.late = true := fun hl => by
    obtain ⟨p', hp', hlate⟩ := t.late hl
    rw [hreads] at hp'
    cases hp'
    exact hlate
  have hmissed : g.playMissed.toNat ≤
      w.judged.skipped + w.judged.leftLate + w.judged.countsLate.toNat := by
    rw [hg]
    exact t.bounds.missed
  have hbounds := Judged.Bounds.across hmissed hlate before.1 hgap
    (decide (w.bus.stream.play.pendingFrames ≠ 0))
  rw [← hjudges, ← htrack] at hbounds
  rw [hread]
  refine ⟨?_, ?_, ?_, nofun, fun hfits => ?_, fun hl => ?_, hbounds⟩
  · rw [htrack, hg]
    exact hvalid
  · rintro r' hr'
    cases hr'
    rw [htrack, hg]
    refine ⟨?_, rfl⟩
    show (w.bus.stream.gauge.last + elapsed).toNat % 2048 = _
    rw [UInt32.toNat_add, hgap]
    omega
  · have hcount := t.count
    rw [htrack, hg]
    show withPartUpdated w.bus.stream.gauge.missedIntervals w.bus.stream.gauge.streamMissed _ = _
    rw [withPartUpdated, hcount, UInt32.add_sub_cancel]
    rfl
  · intro newest hnewest oldest holdest
    have hn : r = newest := Option.some.inj hnewest
    have hold : oldest ∈ w.reads.getLast? := by
      rw [hreads] at holdest ⊢
      rw [Option.mem_def] at holdest ⊢
      rw [← holdest, List.getLast?_cons_cons]
    have hskipped : Reading.skipped (r :: w.reads) =
        r.interval - p.interval - 1 + Reading.skipped w.reads := by
      rw [hreads]
      rfl
    obtain ⟨hlow, hhigh⟩ := t.accurate hfits.earlier p (by rw [hreads]; rfl) oldest hold
    have hfits' := hfits.newest
    rw [hskipped, Nat.add_comm (r.interval - p.interval - 1)] at hfits'
    have haccurate := missedAfterGap_accurate before.1 hgap hfits' hlow hhigh
    rw [htrack, hg, ← hn, hskipped, Nat.add_comm (r.interval - p.interval - 1)]
    exact haccurate
  · refine ⟨r, rfl, ?_⟩
    simp only [Judged.across] at hl
    split at hl
    · exact (Bool.and_eq_true_iff.mp hl).1
    · cases hl

/-- What leaves the stream's counts leaves the readings' bounds on them. -/
theorem Tracks.of_stream (t : w.Tracks) {bus : Bus} {judged : Judged}
    (hvalid : bus.stream.gauge.valid = w.bus.stream.gauge.valid)
    (hlast : bus.stream.gauge.last = w.bus.stream.gauge.last)
    (htick : bus.stream.gauge.lastTick = w.bus.stream.gauge.lastTick)
    (hmissed : bus.stream.gauge.streamMissed = w.bus.stream.gauge.streamMissed)
    (hcount : bus.stream.gauge.missedIntervals = w.bus.stream.gauge.missedIntervals)
    (hlate : judged.countsLate = true → w.judged.countsLate = true)
    (hbounds : judged.Bounds bus.stream.gauge) : Tracks { w with bus, judged } where
  valid := hvalid.trans t.valid
  last := by
    rw [hlast, htick]
    exact t.last
  count := by
    rw [hcount, hmissed]
    exact t.count
  fresh := fun hnone => hmissed.trans (t.fresh hnone)
  accurate := by
    rw [hmissed]
    exact t.accurate
  late := fun hl => t.late (hlate hl)
  bounds := hbounds

theorem Tracks.kept (t : w.Tracks) {bus : Bus}
    (hgauge : bus.stream.gauge = w.bus.stream.gauge) : Tracks { w with bus } :=
  t.of_stream (by rw [hgauge]) (by rw [hgauge]) (by rw [hgauge]) (by rw [hgauge]) (by rw [hgauge])
    id (by rw [hgauge]; exact t.bounds)

/-- The stream ends. -/
theorem Tracks.ended (t : w.Tracks) {bus : Bus}
    (hgauge : bus.stream.gauge = { w.bus.stream.gauge with playJudged := false }) :
    Tracks { w with bus, judged := w.judged.leave } := by
  refine t.of_stream ?_ ?_ ?_ ?_ ?_ nofun (.leave ?_)
  · rw [hgauge]
  · rw [hgauge]
  · rw [hgauge]
  · rw [hgauge]
  · rw [hgauge]
  · rw [hgauge]
    exact t.bounds.missed

/-- Another play begins, with nothing missed. -/
theorem Tracks.restarted (t : w.Tracks) {bus : Bus}
    (hgauge : bus.stream.gauge = { w.bus.stream.gauge with
      playMissed := 0, missUnconfirmed := false, playJudged := false }) :
    Tracks { w with bus, judged := {} } := by
  refine t.of_stream ?_ ?_ ?_ ?_ ?_ nofun ⟨?_, fun _ => ?_⟩
  · rw [hgauge]
  · rw [hgauge]
  · rw [hgauge]
  · rw [hgauge]
  · rw [hgauge]
  · rw [hgauge]
    exact Nat.zero_le _
  · rw [hgauge]
    exact Nat.zero_le _

/-- Another stream opens, with nothing heard. -/
theorem Tracks.opened (t : w.Tracks) {bus : Bus}
    (hgauge : bus.stream.gauge = { w.bus.stream.gauge with
      last := 0, lastTick := 0, valid := false, streamMissed := 0, playJudged := false }) :
    Tracks { w with
      bus
      reads := []
      missedBefore := w.bus.stream.counters.missedIntervals
      judged := w.judged.leave } := by
  refine ⟨?_, nofun, ?_, fun _ => ?_, fun _ => nofun, nofun, .leave ?_⟩
  · rw [hgauge]
    rfl
  · rw [hgauge]
    exact (UInt32.add_zero _).symm
  · rw [hgauge]
  · rw [hgauge]
    exact t.bounds.missed

/-! ## Every operation -/

theorem Tracks.txDone (t : w.Tracks) {sent : ByteCount} {r : Reading} {source : σ}
    (follows : w.Follows (.txDone sent r source)) :
    (w.step (.txDone sent r source)).Tracks := by
  by_cases hclosed : w.bus.stream.counters.state = .closed
  · have hhears : w.bus.stream.hears = false := by
      rw [UacStream.hears, hclosed]
    have hkept : (w.bus.step (TimedOp.txDone sent r source).toOp).stream = w.bus.stream := by
      show (w.bus.stream.onTxDone (⟨w.bus.fifo.packets.tail⟩ : TinyUsbFifo) source _).stream = _
      rw [UacStream.onTxDone, if_pos hclosed]
    rw [step, note, hhears]
    exact t.kept (by rw [hkept])
  · have hgauge : (w.bus.step (TimedOp.txDone sent r source).toOp).stream.gauge =
        if w.bus.stream.hears then
          w.bus.stream.gauge.track (decide (w.bus.stream.play.pendingFrames ≠ 0))
            (r.frame.toUInt32 &&& usbFrameNumberMask) r.tick
        else w.bus.stream.gauge := by
      show (w.bus.stream.onTxDone (⟨w.bus.fifo.packets.tail⟩ : TinyUsbFifo) source
        ⟨sent, r.frame, r.tick⟩).stream.gauge = _
      rw [UacStream.onTxDone, if_neg hclosed]
      exact (UacStream.gauge_topUpWithin ..).trans
        (UacStream.gauge_commit _ ⟨sent, r.frame, r.tick⟩ _ hclosed)
    rw [step, note]
    by_cases hhears : w.bus.stream.hears = true
    · rw [if_pos hhears] at hgauge ⊢
      cases hreads : w.reads with
      | nil => exact t.first hreads r hgauge
      | cons p rs => exact t.next hreads (follows hhears p (by rw [hreads]; rfl)) hgauge
    · rw [if_neg hhears] at hgauge ⊢
      exact t.kept hgauge

theorem Tracks.step (t : w.Tracks) {op : TimedOp σ} (follows : w.Follows op) :
    (w.step op).Tracks := by
  cases op with
  | txDone sent r source => exact t.txDone follows
  | other op isOther =>
    cases op with
    | configure => exact t.ended rfl
    | deconfigure => exact t.ended rfl
    | close => exact t.ended rfl
    | txDone completion source => cases isOther
    | «open» format =>
      rw [Watch.step, note]
      by_cases hopens : w.bus.stream.configured = true ∧ format ∈ streamFormats
      · have hbus := Bus.step_open (σ := σ) hopens.1 hopens.2
        rw [if_pos hopens]
        refine t.opened ?_
        show (w.bus.step (.open format)).stream.gauge = _
        rw [hbus]
        exact UacStream.gauge_topUpWithin ..
      · have hbus := Bus.step_open_refused (σ := σ) hopens
        rw [if_neg hopens]
        refine t.kept ?_
        show (w.bus.step (.open format)).stream.gauge = _
        rw [hbus]
    | acceptPlay =>
      rw [Watch.step, note]
      by_cases hclosed : w.bus.stream.counters.state = .closed
      · have hbus : w.bus.step (.acceptPlay : Op σ) = w.bus := by
          unfold Bus.step UacStream.acceptPlay
          dsimp only
          rw [if_pos hclosed]
          rfl
        rw [if_pos hclosed]
        refine t.kept ?_
        show (w.bus.step .acceptPlay).stream.gauge = _
        rw [hbus]
      · rw [if_neg hclosed]
        refine t.restarted ?_
        show (w.bus.step .acceptPlay).stream.gauge = _
        unfold Bus.step UacStream.acceptPlay
        dsimp only
        rw [if_neg hclosed]
        rfl
    | clearPlay => exact t.restarted rfl
    | arm now stallTimeout start =>
      refine t.kept ?_
      show (w.bus.stream.arm now stallTimeout start).2.gauge = _
      unfold UacStream.arm
      split <;> rfl
    | disarm => exact t.kept rfl
    | onWatchdog transfer =>
      refine t.kept ?_
      show (w.bus.stream.onWatchdog transfer).gauge = _
      unfold UacStream.onWatchdog
      split <;> rfl

theorem Tracks.run (t : w.Tracks) {ops : List (TimedOp σ)} (timely : w.Timely ops) :
    (w.run ops).Tracks := by
  induction ops generalizing w with
  | nil => exact t
  | cons op ops ih => exact ih (t.step timely.1) timely.2

end Watch

end WaveformGenerator.UsbAudio
