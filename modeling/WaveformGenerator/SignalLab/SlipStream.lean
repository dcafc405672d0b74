import WaveformGenerator.SignalLab.FadeRun
import WaveformGenerator.SignalLab.SlipRun

/-!
# The sample slip stage from block to block

`Between` is what the stage keeps between two blocks. A run of blocks from the prepared stage on
emits the spliced stream, whatever the blocks are.
-/

namespace WaveformGenerator.SignalLab.SampleSlipImpairment

open Splice (Track spliced reached track length_rtake rtake_append rtake_rtake rtake_of_length_le)

variable {R : Type} [Det R] {α : Type} {stream : List α} {n stop slack : Nat} {before : List α}
  {planned done later : List PlannedSlip} {flags : List Bool} {s : SampleSlipImpairment α}

/-! ## The end of a block -/

theorem Follows.finish {b : SlipBlock α} {t : Track α} {grown most : Nat} {pass : SlipPass α}
    (h : Follows stream n b.block.length before t grown pass)
    (hgiven : Given stream n most slack before b) (hgrown : grown ≤ slack) :
    before ++ SampleSlipImpairment.copyInput b.block pass.input b.block.length pass.output
          b.capacity =
        t.upTo stream (n + b.block.length) ∧
      (SampleSlipImpairment.copyInput b.block pass.input b.block.length pass.output
        b.capacity).length ≤ b.block.length + grown := by
  have hinput := h.input
  rcases Nat.lt_or_ge (n + pass.input) t.taken with hinside | htaken
  · -- a removed run goes on behind the block
    have hend : pass.input = b.block.length := by omega
    have houtput := h.output
    have hroom := h.room
    rw [Track.upTo_of_le (by omega)] at houtput
    rw [SampleSlipImpairment.copyInput, hend, List.take_length, List.drop_length, List.take_nil,
      List.append_nil, houtput, Track.upTo_of_le (by omega)]
    exact ⟨rfl, by omega⟩
  · exact h.copyInput hgiven.block hgrown hgiven.capacity (by omega) (Nat.le_refl _) htaken

theorem keptHistory_append {most : Nat} {history output : List α}
    (hhistory : history = before.rtake most) :
    keptHistory history most (min output.length most) ++
        output.drop (output.length - min output.length most) =
      (before ++ output).rtake most := by
  have hback : output.drop (output.length - min output.length most) = output.rtake most := by
    rw [List.rtake]
    congr 1
    omega
  rw [hback, rtake_append]
  congr 1
  rw [keptHistory]
  split
  · rename_i hkept
    have hdrop : (if most < history.length + min output.length most then
        history.length + min output.length most - most else 0) =
        history.length - (most - output.length) := by
      split
      · omega
      · omega
    rw [hdrop, ← List.rtake, hhistory, rtake_rtake _ (Nat.sub_le _ _)]
  · rename_i hnone
    rcases Nat.eq_zero_or_pos history.length with hempty | hsome
    · rw [← rtake_rtake before (Nat.sub_le most output.length), ← hhistory,
        List.length_eq_zero_iff.mp hempty, List.rtake_nil]
    · rw [Nat.sub_eq_zero_of_le (by omega), List.rtake_zero]

/-! ## Between two blocks -/

/-- The stage once `n` frames of the stream are in and `before` has gone out: the events `done` are
behind the cursor, and each of `later` is behind the frame or inside a removed run. -/
structure Between (stream : List α) (stop : Nat) (flags : List Bool) (n : Nat) (before : List α)
    (done later : List PlannedSlip) (s : SampleSlipImpairment α) : Prop where
  planned : s.planned = done ++ later
  cursor : s.cursor = done.length
  out : before = (behind stream {} done).upTo stream n
  deleteRemaining : s.deleteRemaining = (behind stream {} done).taken - n
  history : s.history = before.rtake s.maxLength
  applied : s.applied = .ofNat (behind stream {} done).worked
  playable : Playable stop (behind stream {} done).taken (behind stream {} done).out.length later
    (flags.drop done.length)
  reached : ∀ event ∈ done, event.frame < n
  clean : ∀ event ∈ later, n ≤ event.frame ∨ event.frame < (behind stream {} done).taken

theorem behind_append (stream : List α) (t : Track α) (a b : List PlannedSlip) :
    behind stream t (a ++ b) = behind stream (behind stream t a) b := by
  rw [behind, behind, behind, List.map_append, List.foldl_append]

/-- What an accepted schedule gives every block. -/
structure Accepted (planned : List PlannedSlip) (flags : List Bool) (most : Nat) : Prop where
  inOrder : InOrder planned
  length_le : ∀ slip ∈ planned, slip.length ≤ most
  roomy : overfull (planned.zip flags) = false

theorem zip_append_take (a b : List PlannedSlip) (flags : List Bool) :
    (a ++ b).zip flags = a.zip (flags.take a.length) ++ b.zip (flags.drop a.length) := by
  induction a generalizing flags with
  | nil => rfl
  | cons event a ih =>
    cases flags with
    | nil => rw [List.zip_nil_right, List.take_nil, List.drop_nil, List.zip_nil_right,
        List.zip_nil_right, List.append_nil]
    | cons flag flags => exact congrArg ((event, flag) :: ·) (ih flags)

theorem pairwise_zip (h : InOrder planned) (flags : List Bool) :
    (planned.zip flags).Pairwise (·.1.frame ≤ ·.1.frame) := by
  induction planned generalizing flags with
  | nil => exact .nil
  | cons event planned ih =>
    cases flags with
    | nil => exact .nil
    | cons flag flags =>
      obtain ⟨hfirst, horder⟩ := List.pairwise_cons.mp h
      refine .cons (fun other hother => ?_) (ih horder flags)
      exact hfirst other.1 (List.of_mem_zip hother).1

theorem Accepted.room {most frames : Nat} (h : Accepted (done ++ later) flags most)
    (hframes : frames ≤ engineBlockFrames) :
    Room engineSlackFrames n frames 0 (later.zip (flags.drop done.length)) := by
  intro near rest hnear hbelow hfrom
  rw [Nat.zero_add]
  have hparts : (done ++ later).zip flags = done.zip (flags.take done.length) ++ near ++ rest := by
    rw [zip_append_take, hnear, List.append_assoc]
  exact added_le_slack (pairwise_zip h.inOrder flags) h.roomy hparts hfrom fun event hevent =>
    Nat.lt_of_lt_of_le (hbelow event hevent) (Nat.add_le_add_left hframes n)

/-- The locals of `process` at its start follow the track. -/
theorem Between.start (h : Between stream stop flags n before done later s) (frames : Nat) :
    Follows stream n frames before (behind stream {} done) 0
      ⟨if s.deleteRemaining ≠ 0 then min s.deleteRemaining frames else 0, [],
        s.deleteRemaining - (if s.deleteRemaining ≠ 0 then min s.deleteRemaining frames else 0),
        s.applied, s.dropped⟩ := by
  have hremaining := h.deleteRemaining
  have hskip : (if s.deleteRemaining ≠ 0 then min s.deleteRemaining frames else 0) =
      min frames ((behind stream {} done).taken - n) := by
    split
    · omega
    · omega
  rw [hskip]
  refine ⟨rfl, by dsimp only; omega, ?_, Nat.zero_le _, h.applied⟩
  rw [List.append_nil, h.out]
  dsimp only
  rcases Nat.le_total (behind stream {} done).taken n with htaken | hinside
  · rw [Nat.sub_eq_zero_of_le htaken, Nat.min_zero, Nat.add_zero]
  · rw [Track.upTo_of_le hinside, Track.upTo_of_le (by omega)]

/-- One block, where the capacity has room for what it adds. -/
theorem Between.processWithin {block : List α} {capacity : Nat}
    (h : Between stream stop flags n before done later s) (horder : InOrder s.planned)
    (hlengths : ∀ event ∈ s.planned, event.length ≤ s.maxLength)
    (hroom : Room slack n block.length 0 (later.zip (flags.drop done.length)))
    (hblock : block = (stream.drop n).take block.length)
    (hinside : n + block.length ≤ stream.length) (hcapacity : block.length + slack ≤ capacity)
    (hstop : n + block.length ≤ stop) (hbound : n + block.length < 2 ^ 64) :
    ∃ more later', later = more ++ later' ∧
      (s.processWithin block n capacity).1.length ≤ block.length + slack ∧
      (s.processWithin block n capacity).2.planned = s.planned ∧
      (s.processWithin block n capacity).2.maxLength = s.maxLength ∧
      Between stream stop flags (n + block.length) (before ++ (s.processWithin block n capacity).1)
        (done ++ more) later' (s.processWithin block n capacity).2 := by
  have hgiven : Given stream n s.maxLength slack before ⟨block, n, capacity, s.history⟩ :=
    ⟨hblock, rfl, hinside, hcapacity, h.history⟩
  rw [h.planned] at horder
  rw [h.planned] at hlengths
  obtain ⟨more, later', hpassed⟩ := passed_events hgiven hstop hbound h.playable
    (List.pairwise_append.mp horder).2.1
    (fun event hevent => hlengths event (List.mem_append_right done hevent)) h.clean hroom
    (h.start block.length)
  obtain ⟨grown, hgrown, hfollows⟩ := hpassed.follows
  obtain ⟨hout, hlength⟩ := hfollows.finish hgiven hgrown
  have hcursor : s.planned.drop s.cursor = later := by
    rw [h.planned, h.cursor, List.drop_left]
  refine ⟨more, later', hpassed.events_eq, ?_, rfl, rfl, ?_⟩
  all_goals
    rw [SampleSlipImpairment.processWithin, hcursor]
    dsimp only
  · exact Nat.le_trans hlength (Nat.add_le_add_left hgrown _)
  · have htrack := behind_append stream {} done more
    refine ⟨?_, ?_, ?_, ?_, ?_, ?_, ?_, ?_, ?_⟩
    · rw [List.append_assoc, ← hpassed.events_eq]
      exact h.planned
    · rw [hpassed.moved, h.cursor, List.length_append]
    · rw [htrack]
      exact hout
    · rw [htrack]
      exact hfollows.deleteRemaining
    · exact keptHistory_append h.history
    · rw [htrack]
      exact hfollows.applied
    · rw [htrack, List.length_append, ← List.drop_drop]
      exact hpassed.playable
    · intro event hevent
      rcases List.mem_append.mp hevent with hdone | hmore
      · exact Nat.lt_of_lt_of_le (h.reached event hdone) (Nat.le_add_right ..)
      · exact hpassed.reached event hmore
    · rw [htrack]
      exact hpassed.clean

theorem Between.process {block : List α} {capacity : Nat}
    (h : Between stream stop flags n before done later s)
    (haccepted : Accepted s.planned flags s.maxLength)
    (hblock : block = (stream.drop n).take block.length)
    (hinside : n + block.length ≤ stream.length) (hframes : block.length ≤ engineBlockFrames)
    (hcapacity : block.length + engineSlackFrames ≤ capacity) (hstop : n + block.length ≤ stop)
    (hbound : n + block.length < 2 ^ 64) :
    ∃ more later', later = more ++ later' ∧
      (s.process block n capacity).1.length ≤ block.length + engineSlackFrames ∧
      (s.process block n capacity).2.planned = s.planned ∧
      (s.process block n capacity).2.maxLength = s.maxLength ∧
      Between stream stop flags (n + block.length) (before ++ (s.process block n capacity).1)
        (done ++ more) later' (s.process block n capacity).2 := by
  have hroom : Room engineSlackFrames n block.length 0 (later.zip (flags.drop done.length)) := by
    have hplanned := haccepted
    rw [h.planned] at hplanned
    exact hplanned.room hframes
  have hstorage : engineCapacityFrames = engineBlockFrames + engineSlackFrames := rfl
  exact h.processWithin haccepted.inOrder haccepted.length_le hroom hblock hinside (by omega) hstop
    hbound

/-! ## The whole stream -/

theorem Between.processBlocks {blocks : List (List α × Nat)}
    (h : Between stream stop flags n before done later s)
    (haccepted : Accepted s.planned flags s.maxLength)
    (hblocks : (blocks.map (·.1)).flatten = stream.drop n)
    (hframes : ∀ block ∈ blocks, block.1.length ≤ engineBlockFrames ∧
      block.1.length + engineSlackFrames ≤ block.2)
    (hn : n ≤ stream.length) (hstop : stream.length ≤ stop) (hbound : stream.length < 2 ^ 64) :
    ∃ done' later',
      (∀ output ∈ (s.processBlocks n blocks).1, output.length ≤ engineCapacityFrames) ∧
      (s.processBlocks n blocks).2.planned = s.planned ∧
      (s.processBlocks n blocks).2.maxLength = s.maxLength ∧
      Between stream stop flags stream.length (before ++ (s.processBlocks n blocks).1.flatten)
        done' later' (s.processBlocks n blocks).2 := by
  induction blocks generalizing n before done later s with
  | nil =>
    have hend : n = stream.length := by
      have hlength := congrArg List.length hblocks
      rw [List.length_drop] at hlength
      exact Nat.le_antisymm hn (Nat.sub_eq_zero_iff_le.mp hlength.symm)
    rw [SampleSlipImpairment.processBlocks, List.flatten_nil, List.append_nil, ← hend]
    exact ⟨done, later, fun _ hmem => absurd hmem List.not_mem_nil, rfl, rfl, h⟩
  | cons block blocks ih =>
    obtain ⟨block, capacity⟩ := block
    obtain ⟨⟨hframe, hcapacity⟩, hframes⟩ := List.forall_mem_cons.mp hframes
    rw [List.map_cons, List.flatten_cons] at hblocks
    have hlength := congrArg List.length hblocks
    rw [List.length_append, List.length_drop] at hlength
    dsimp only at hlength hframe hcapacity
    have hblock : block = (stream.drop n).take block.length := by
      rw [← hblocks, List.take_left]
    have hrest : (blocks.map (·.1)).flatten = stream.drop (n + block.length) := by
      rw [← List.drop_drop, ← hblocks, List.drop_left]
    obtain ⟨more, rest, -, hgrown, hplanned, hmost, hbetween⟩ := h.process haccepted hblock
      (by omega) hframe hcapacity (by omega) (by omega)
    rw [SampleSlipImpairment.processBlocks]
    dsimp only
    generalize s.process block n capacity = result at hgrown hplanned hmost hbetween
    obtain ⟨output, s'⟩ := result
    dsimp only at hgrown hplanned hmost hbetween ⊢
    obtain ⟨done', later', houtputs, hplanned', hmost', hend⟩ := ih hbetween
      (by rw [hplanned, hmost]; exact haccepted) hrest hframes (by omega)
    refine ⟨done', later', List.forall_mem_cons.mpr ⟨?_, houtputs⟩, hplanned'.trans hplanned,
      hmost'.trans hmost, ?_⟩
    · have : engineCapacityFrames = engineBlockFrames + engineSlackFrames := rfl
      omega
    · rw [List.flatten_cons, ← List.append_assoc]
      exact hend

theorem behind_inside {t : Track α} (h : ∀ event ∈ later, event.frame < t.taken) :
    behind stream t later = t := by
  induction later with
  | nil => rfl
  | cons event later ih =>
    rw [behind_cons, splice_inside stream (h event List.mem_cons_self)]
    exact ih fun other hother => h other (List.mem_cons_of_mem event hother)

/-- At the end of the stream the events that it reaches are behind it. -/
theorem Between.track_eq (h : Between stream stop flags stream.length before done later s) :
    track stream (Splice.reached stream (s.planned.map (·.splice))) = behind stream {} done := by
  have hdone : done.filter (fun event => decide (event.frame < stream.length)) = done :=
    List.filter_eq_self.mpr fun event hevent => decide_eq_true (h.reached event hevent)
  have hreached : Splice.reached stream (s.planned.map (·.splice)) =
      (s.planned.filter fun event => decide (event.frame < stream.length)).map (·.splice) := by
    rw [Splice.reached, List.filter_map]
    rfl
  rw [hreached, h.planned, List.filter_append, hdone]
  change behind stream {} (done ++ _) = _
  rw [behind_append]
  refine behind_inside fun event hevent => ?_
  obtain ⟨hlater, hframe⟩ := List.mem_filter.mp hevent
  exact (h.clean event hlater).resolve_left (Nat.not_le.mpr (of_decide_eq_true hframe))

/-! ## From the prepared stage on -/

theorem simulate_error {totalFrames consumed history : Nat} {status : Status}
    (h : simulate totalFrames planned consumed history = .error status) : status = noHistory := by
  have herror {f : List Bool → List Bool} {result : Result (List Bool)}
      (h : result.map f = .error status) : result = .error status := by
    cases result with
    | error _ => exact h
    | ok _ => cases h
  induction planned generalizing consumed history with
  | nil => cases h
  | cons event planned ih =>
    rw [simulate] at h
    dsimp only at h
    split at h
    · cases h
    split at h
    · exact ih (herror h)
    split at h
    · split at h
      · cases h
        rfl
      · exact ih (herror h)
    · exact ih (herror h)

theorem planned_of_prepare {p : SampleSlipParams R} {scratch : Bool} {totalFrames : UInt64}
    (h : prepare p scratch totalFrames = .ok s) :
    ∃ flags, plan (p.events.toList.take p.eventCount.toNat) [] = .ok s.planned ∧
      simulate totalFrames.toNat s.planned 0 0 = .ok flags ∧
      overfull (s.planned.zip flags) = false ∧
      s = { planned := s.planned, maxLength := (s.planned.map (·.length)).foldl max 1,
            scheduled := .ofNat s.planned.length } := by
  rw [prepare] at h
  split at h
  · cases h
  split at h
  · cases h
  rename_i planned hplan
  dsimp only at h
  split at h
  · cases h
  rename_i hschedule
  cases h
  rw [validateSchedule] at hschedule
  split at hschedule
  · rename_i status hrefused
    rw [simulate_error hrefused] at hschedule
    exact absurd rfl hschedule
  · rename_i flags hflags
    split at hschedule
    · exact absurd rfl hschedule
    · rename_i hroomy
      exact ⟨flags, hplan, hflags, by simpa using hroomy, rfl⟩

/-- A schedule that `prepare` accepts plays from the start on. -/
theorem between_of_prepare (stream : List α) {p : SampleSlipParams R} {scratch : Bool}
    {totalFrames : UInt64}
    (h : prepare p scratch totalFrames = .ok s)
    (htotal : totalFrames = 0 ∨ stop ≤ totalFrames.toNat) (hstop : stop < 2 ^ 64) :
    ∃ flags, Accepted s.planned flags s.maxLength ∧ s.maxLength ≤ maxSlipLength ∧
      Between stream stop flags 0 [] [] s.planned s := by
  obtain ⟨flags, hplan, hflags, hroomy, hs⟩ := planned_of_prepare h
  have hplanned := planned_plan .nil hplan
  have hsorted := sorted_plan .nil hplan
  have hmost : (1 :: s.planned.map (·.length)).max? = some s.maxLength := by
    rw [List.max?_cons']
    exact congrArg (some ·.maxLength) hs.symm
  obtain ⟨hmem, hgreatest⟩ := List.max?_eq_some_iff.mp hmost
  have hplayable : Playable stop 0 0 s.planned flags :=
    playable_of_simulate hsorted.inOrder (htotal.imp_left fun hzero => by rw [hzero]; rfl) hstop
      (.inl rfl) (Nat.min_zero _).symm hflags
  refine ⟨flags, ⟨hsorted.inOrder, fun slip hslip => ?_, hroomy⟩, ?_, ?_⟩
  · exact hgreatest _ (List.mem_cons_of_mem 1 (List.mem_map_of_mem hslip))
  · rcases List.mem_cons.mp hmem with hone | hlength
    · rw [hone]
      decide
    · obtain ⟨slip, hslip, hlength⟩ := List.mem_map.mp hlength
      rw [← hlength]
      exact hplanned.length_le slip hslip
  · refine ⟨rfl, ?_, rfl, ?_, ?_, ?_, hplayable, fun _ hmem => absurd hmem List.not_mem_nil,
      fun _ _ => .inl (Nat.zero_le _)⟩
    all_goals rw [hs]
    · rfl
    · rfl
    · exact (List.rtake_nil _).symm
    · rfl

/-- However a stream is cut into blocks of the engine, an accepted schedule plays it spliced with
the planned slips: no output outgrows the engine's storage, every planned slip that the stream
reaches and no earlier deletion took out is applied, and what is kept is the end of what went
out. -/
theorem processBlocks_spliced {p : SampleSlipParams R} {scratch : Bool} {totalFrames : UInt64}
    (hprepare : prepare p scratch totalFrames = .ok s) {blocks : List (List α × Nat)}
    (hframes : ∀ block ∈ blocks, block.1.length ≤ engineBlockFrames ∧
      block.1.length + engineSlackFrames ≤ block.2)
    (htotal : totalFrames = 0 ∨ (blocks.map (·.1)).flatten.length ≤ totalFrames.toNat)
    (hbound : (blocks.map (·.1)).flatten.length < 2 ^ 64) :
    Sorted ((p.events.toList.take p.eventCount.toNat).map slipOf) s.planned ∧
      (s.processBlocks 0 blocks).1.flatten =
        spliced (blocks.map (·.1)).flatten (s.planned.map (·.splice)) ∧
      (∀ output ∈ (s.processBlocks 0 blocks).1, output.length ≤ engineCapacityFrames) ∧
      (s.processBlocks 0 blocks).2.applied = .ofNat (track (blocks.map (·.1)).flatten
        (Splice.reached (blocks.map (·.1)).flatten (s.planned.map (·.splice)))).worked ∧
      (s.processBlocks 0 blocks).2.history =
        (s.processBlocks 0 blocks).1.flatten.rtake s.maxLength ∧
      s.maxLength ≤ maxSlipLength := by
  obtain ⟨flags, haccepted, hmost, hstart⟩ :=
    between_of_prepare (blocks.map (·.1)).flatten hprepare htotal hbound
  obtain ⟨done, later, houtputs, hplanned, hmax, hend⟩ := hstart.processBlocks haccepted
    List.drop_zero.symm hframes (Nat.zero_le _) (Nat.le_refl _) hbound
  obtain ⟨-, hplan, -⟩ := planned_of_prepare hprepare
  have htrack := hend.track_eq
  rw [hplanned] at htrack
  refine ⟨sorted_plan .nil hplan, ?_, houtputs, ?_, ?_, hmost⟩
  · rw [spliced, htrack, ← hend.out, List.nil_append]
  · rw [htrack]
    exact hend.applied
  · rw [← hmax]
    exact hend.history

/-- A repeat of two samples at the frame 3 and a removal of two at the frame 5, in exact numbers. -/
def twoSlips : SampleSlipParams Rat where
  events := Vector.ofFn fun i =>
    if i.val = 0 then ⟨5 / 48000, false, 2⟩ else if i.val = 1 then ⟨3 / 48000, true, 2⟩ else {}
  eventCount := 2

def preparedSlips : SampleSlipImpairment Nat where
  planned := [⟨3, true, 2⟩, ⟨5, false, 2⟩]
  maxLength := 2
  scheduled := 2

theorem processBlocks_spliced_twoSlips :
    (preparedSlips.processBlocks 0 [([1, 2, 3, 4], 300), ([5, 6, 7, 8], 300)]).1.flatten =
      [1, 2, 3, 2, 3, 4, 5, 8] := by
  have hprepare : prepare twoSlips true 8 = .ok preparedSlips := by decide +kernel
  have hframes : ∀ block ∈ [([1, 2, 3, 4], 300), ([5, 6, 7, 8], 300)],
      block.1.length ≤ engineBlockFrames ∧ block.1.length + engineSlackFrames ≤ block.2 :=
    List.forall_mem_cons.mpr ⟨by decide, List.forall_mem_singleton.mpr (by decide)⟩
  exact (processBlocks_spliced hprepare hframes (.inr (by decide)) (by decide)).2.1.trans
    (by decide +kernel)

end WaveformGenerator.SignalLab.SampleSlipImpairment
