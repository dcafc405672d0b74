import Mathlib.Data.List.Perm.Basic
import WaveformGenerator.Host.SampleSlip
import WaveformGenerator.SignalLab.SlipStream

/-!
# The host's sample slips and the engine's

A block of the host's stage is a block of the engine's with room for all its duplicates. So the
host, too, emits the spliced stream, and the two emit the same wherever they plan the same slips.
-/

namespace WaveformGenerator.Host.SampleSlip

open SignalLab (PlannedSlip SampleSlipImpairment)
open SignalLab.SampleSlipImpairment (SlipPass SlipBlock Between Room Playable InOrder Sorted behind
  added added_append added_cons keptHistory_append)
open Splice (length_rtake rtake_of_length_le spliced track)

variable {α : Type} {b : SlipBlock α} {l : Locals α} {pass : SlipPass α} {event : SlipTuple}
  {rest : Nat}

def slip (event : SlipTuple) : PlannedSlip :=
  ⟨event.frame, decide (event.kind = .duplicate), event.length⟩

theorem slip_frame (event : SlipTuple) : (slip event).frame = event.frame := rfl

/-! ## One block -/

/-- The host's locals and the engine's. -/
structure InStep (l : Locals α) (pass : SlipPass α) : Prop where
  i : l.i = pass.input
  parts : l.parts.flatten = pass.output
  deleteRemaining : l.deleteRemaining = pass.deleteRemaining
  applied : .ofNat l.applied.length = pass.applied
  dropped : .ofNat l.dropped.length = pass.dropped

/-- There is room for what is left of the block and for `rest` samples more. -/
structure Fits (b : SlipBlock α) (pass : SlipPass α) (rest : Nat) : Prop where
  input : pass.input ≤ b.block.length
  output : pass.output.length + (b.block.length - pass.input) + rest ≤ b.capacity

theorem lastOf_eq {length : Nat} (h : 0 < length) (l : List α) : lastOf length l = l.rtake length :=
  if_neg (Nat.pos_iff_ne_zero.mp h)

theorem ofNat_length_append {β : Type} {l : List β} {count : UInt32} (h : .ofNat l.length = count)
    (x : β) : .ofNat (l ++ [x]).length = count + 1 := by
  rw [List.length_append, List.length_singleton, UInt32.ofNat_add, h]
  rfl

theorem copyInput_all {block output : List α} {start stop capacity : Nat}
    (hstop : stop ≤ block.length) (h : output.length + (stop - start) ≤ capacity) :
    SampleSlipImpairment.copyInput block start stop output capacity =
      output ++ (block.take stop).drop start := by
  rw [SampleSlipImpairment.copyInput, List.take_of_length_le]
  rw [List.length_drop, List.length_take, Nat.min_eq_left hstop]
  omega

theorem InStep.take (h : InStep l pass) (hfits : Fits b pass (event.length + rest))
    (hlength : 0 < event.length) (hfrom : b.firstInputFrame + pass.input ≤ event.frame)
    (hreached : event.frame < b.firstInputFrame + b.block.length) :
    InStep (SampleSlip.take b.block b.history b.firstInputFrame event l)
        (b.take (slip event) pass) ∧
      Fits b (b.take (slip event) pass) rest := by
  obtain ⟨hinput, hroom⟩ := hfits
  have hcopied : SampleSlipImpairment.copyInput b.block pass.input
      (event.frame - b.firstInputFrame) pass.output b.capacity =
        pass.output ++ (b.block.take (event.frame - b.firstInputFrame)).drop pass.input :=
    copyInput_all (by omega) (by omega)
  have hpart : ((b.block.take (event.frame - b.firstInputFrame)).drop pass.input).length =
      event.frame - b.firstInputFrame - pass.input := by
    rw [List.length_drop, List.length_take, Nat.min_eq_left (by omega)]
  have hparts : (l.parts ++
      [(b.block.take (event.frame - b.firstInputFrame)).drop pass.input]).flatten =
        pass.output ++ (b.block.take (event.frame - b.firstInputFrame)).drop pass.input := by
    rw [List.flatten_append, List.flatten_singleton, h.parts]
  rw [SampleSlip.take, SlipBlock.take, slip]
  dsimp only
  rw [hcopied, h.i]
  generalize (b.block.take (event.frame - b.firstInputFrame)).drop pass.input = part at hpart hparts
  cases hkind : event.kind with
  | duplicate =>
    have hemitted : (b.history ++ (l.parts ++ [part]).flatten).length =
        b.history.length +
          (pass.output.length + (event.frame - b.firstInputFrame - pass.input)) := by
      rw [hparts, List.length_append, List.length_append, hpart]
    dsimp only
    rw [decide_eq_true rfl, if_pos rfl]
    rcases Nat.lt_or_ge (b.history.length + (pass.output.length +
      (event.frame - b.firstInputFrame - pass.input))) event.length with hshort | henough
    · rw [if_pos (by rw [hemitted]; exact hshort),
        if_pos (.inr (by rw [List.length_append, hpart]; omega))]
      refine ⟨⟨rfl, hparts, h.deleteRemaining, h.applied, ofNat_length_append h.dropped _⟩,
        by dsimp only; omega, ?_⟩
      dsimp only
      rw [List.length_append, hpart]
      omega
    · rw [if_neg (by rw [hemitted]; omega), if_neg (by rw [List.length_append, hpart]; omega)]
      refine ⟨⟨rfl, ?_, h.deleteRemaining, ofNat_length_append h.applied _, h.dropped⟩,
        by dsimp only; omega, ?_⟩
      · dsimp only
        rw [List.flatten_append, List.flatten_singleton, hparts, lastOf_eq hlength,
          List.append_assoc (pass.output ++ part), SampleSlipImpairment.last_of_history]
      · dsimp only
        rw [List.append_assoc (pass.output ++ part), SampleSlipImpairment.last_of_history,
          List.length_append, length_rtake, List.length_append, hpart]
        omega
  | delete =>
    dsimp only
    rw [decide_eq_false (by intro hfalse; cases hfalse), if_neg Bool.false_ne_true]
    refine ⟨⟨rfl, hparts, rfl, ofNat_length_append h.applied _, h.dropped⟩,
      by dsimp only; omega, ?_⟩
    dsimp only
    rw [List.length_append, hpart]
    omega

/-- The loops are in step, and the engine's has room for the end of the block. -/
theorem InStep.loop {events : List SlipTuple} (h : InStep l pass)
    (hfits : Fits b pass (events.map (·.length)).sum)
    (hbound : b.firstInputFrame + b.block.length < 2 ^ 64)
    (hlengths : ∀ event ∈ events, 0 < event.length) :
    InStep (SampleSlip.pass b.block b.history b.firstInputFrame events l).1
        (b.events (events.map slip) pass).1 ∧
      (SampleSlip.pass b.block b.history b.firstInputFrame events l).2 =
        (b.events (events.map slip) pass).2 ∧
      Fits b (b.events (events.map slip) pass).1 0 := by
  induction events generalizing l pass with
  | nil => exact ⟨h, rfl, hfits⟩
  | cons event events ih =>
    obtain ⟨hlength, hlengths⟩ := List.forall_mem_cons.mp hlengths
    have hinput := hfits.input
    have houtput := hfits.output
    rw [List.map_cons, List.sum_cons] at houtput
    have hdone : Fits b pass 0 := ⟨hinput, by omega⟩
    rw [List.map_cons, SampleSlip.pass, SlipBlock.events, h.i, Nat.mod_eq_of_lt hbound,
      Nat.mod_eq_of_lt (by omega)]
    rw [slip_frame]
    rcases Nat.lt_or_ge event.frame (b.firstInputFrame + b.block.length) with hreached | hbehind
    · rw [if_pos hreached, if_pos hreached]
      rcases Nat.lt_or_ge event.frame (b.firstInputFrame + pass.input) with hinside | hfrom
      · rw [if_pos hinside, if_pos hinside]
        have hdropped : InStep { l with dropped := l.dropped ++ [(event, insideDeleted)] }
            { pass with dropped := pass.dropped + 1 } :=
          ⟨h.i, h.parts, h.deleteRemaining, h.applied, ofNat_length_append h.dropped _⟩
        obtain ⟨hstep, hmoved, hfits⟩ := ih hdropped ⟨hinput, by dsimp only; omega⟩ hlengths
        rw [h.i] at hstep hmoved
        exact ⟨hstep, congrArg (· + 1) hmoved, hfits⟩
      · rw [if_neg (Nat.not_lt.mpr hfrom), if_neg (Nat.not_lt.mpr hfrom)]
        obtain ⟨htaken, hfits⟩ := h.take hfits hlength hfrom hreached
        dsimp only
        rw [htaken.deleteRemaining]
        rcases Decidable.em ((b.take (slip event) pass).deleteRemaining = 0) with hend | hmore
        · rw [if_neg (not_not_intro hend), if_neg (not_not_intro hend)]
          obtain ⟨hstep, hmoved, hfits⟩ := ih htaken hfits hlengths
          exact ⟨hstep, congrArg (· + 1) hmoved, hfits⟩
        · have houtput := hfits.output
          rw [if_pos hmore, if_pos hmore]
          exact ⟨htaken, rfl, hfits.input, by dsimp only; omega⟩
    · rw [if_neg (Nat.not_lt.mpr hbehind), if_neg (Nat.not_lt.mpr hbehind)]
      exact ⟨h, rfl, hdone⟩

/-- The host's stage as the engine's. -/
def asEngine (s : SampleSlip α) : SampleSlipImpairment α where
  planned := s.planned.map slip
  cursor := s.cursor
  deleteRemaining := s.deleteRemaining
  maxLength := s.maxLength
  history := s.history
  applied := .ofNat s.applied.length
  dropped := .ofNat s.dropped.length
  componentFrames := .ofNat s.inputFrames

/-- The samples that the planned events behind the cursor may add. -/
def ahead (s : SampleSlip α) : Nat := ((s.planned.drop s.cursor).map (·.length)).sum

variable {s : SampleSlip α} {block : List α} {n : Nat}

/-- A block of the host's is a block of the engine's with room for all that may come. -/
theorem process_asEngine (hlengths : ∀ event ∈ s.planned, 0 < event.length)
    (hmost : 0 < s.maxLength) (hkept : s.history.length ≤ s.maxLength)
    (hbound : n + block.length < 2 ^ 64) :
    (s.process block n).1 = (s.asEngine.processWithin block n (block.length + s.ahead)).1 ∧
      (s.process block n).2.asEngine =
        (s.asEngine.processWithin block n (block.length + s.ahead)).2 := by
  have hskip : (if s.asEngine.deleteRemaining ≠ 0 then
      min s.asEngine.deleteRemaining block.length else 0) =
        min s.asEngine.deleteRemaining block.length := by
    split
    · rfl
    · omega
  have hstart : InStep
      ⟨min s.deleteRemaining block.length, [],
        s.deleteRemaining - min s.deleteRemaining block.length, s.applied, s.dropped⟩
      (⟨min s.deleteRemaining block.length, [],
        s.deleteRemaining - min s.deleteRemaining block.length, .ofNat s.applied.length,
        .ofNat s.dropped.length⟩ : SlipPass α) := ⟨rfl, rfl, rfl, rfl, rfl⟩
  have hfits : Fits ⟨block, n, block.length + s.ahead, s.history⟩
      (⟨min s.deleteRemaining block.length, [],
        s.deleteRemaining - min s.deleteRemaining block.length, .ofNat s.applied.length,
        .ofNat s.dropped.length⟩ : SlipPass α) s.ahead := by
    refine ⟨Nat.min_le_right .., ?_⟩
    dsimp only [List.length_nil]
    omega
  obtain ⟨hstep, hmoved, hend⟩ := hstart.loop hfits hbound fun event hevent =>
    hlengths event (List.mem_of_mem_drop hevent)
  rw [List.map_drop] at hstep hmoved hend
  rw [SampleSlip.process, SampleSlipImpairment.processWithin]
  dsimp only
  rw [hskip]
  dsimp only [asEngine]
  dsimp only at hstep hmoved
  generalize SampleSlip.pass block s.history n (s.planned.drop s.cursor) _ = ours at hstep hmoved
  generalize SlipBlock.events _ ((s.planned.map slip).drop s.cursor) _ = theirs
    at hstep hmoved hend
  have hroom := hend.output
  have hout : (ours.1.parts ++ [block.drop ours.1.i]).flatten =
      SampleSlipImpairment.copyInput block theirs.1.input block.length theirs.1.output
        (block.length + s.ahead) := by
    rw [copyInput_all (Nat.le_refl _) (by dsimp only at hroom; omega), List.take_length,
      List.flatten_append, List.flatten_singleton, hstep.parts, hstep.i]
  rw [hout]
  refine ⟨rfl, ?_⟩
  rw [lastOf_eq hmost, keptHistory_append (rtake_of_length_le hkept).symm, hstep.applied,
    hstep.dropped, hstep.deleteRemaining, hmoved, UInt64.ofNat_add]

/-! ## Many blocks -/

theorem added_zip_le (events : List PlannedSlip) (flags : List Bool) :
    added (events.zip flags) ≤ (events.map (·.length)).sum := by
  induction events generalizing flags with
  | nil => exact Nat.zero_le _
  | cons event events ih =>
    cases flags with
    | nil => exact Nat.zero_le _
    | cons flag flags =>
      have hrest := ih flags
      rw [List.zip_cons_cons, added_cons, List.map_cons, List.sum_cons]
      dsimp only
      split
      · omega
      · omega

/-- There is always room for all that may come. -/
theorem room_all (n frames : Nat) (later : List PlannedSlip) (flags : List Bool) :
    Room (later.map (·.length)).sum n frames 0 (later.zip flags) := by
  intro near rest hnear _ _
  have hall := added_zip_le later flags
  rw [hnear, added_append] at hall
  omega

variable {stream before : List α} {stop : Nat} {flags : List Bool} {done later : List PlannedSlip}

theorem ahead_eq (h : Between stream stop flags n before done later s.asEngine) :
    (later.map (·.length)).sum = s.ahead := by
  have hlater : later = (s.planned.drop s.cursor).map slip := by
    have hplanned := congrArg (List.drop done.length) h.planned
    have hcursor : s.cursor = done.length := h.cursor
    rw [List.drop_left, ← hcursor] at hplanned
    rw [← hplanned, List.map_drop]
    rfl
  rw [hlater, ahead, List.map_map]
  rfl

theorem between_processBlocks {blocks : List (List α)}
    (h : Between stream stop flags n before done later s.asEngine)
    (horder : InOrder s.asEngine.planned)
    (hlengths : ∀ event ∈ s.planned, 0 < event.length ∧ event.length ≤ s.maxLength)
    (hmost : 0 < s.maxLength) (hblocks : blocks.flatten = stream.drop n) (hn : n ≤ stream.length)
    (hstop : stream.length ≤ stop) (hbound : stream.length < 2 ^ 64) :
    ∃ done' later', (s.processBlocks n blocks).2.planned = s.planned ∧
      (s.processBlocks n blocks).2.maxLength = s.maxLength ∧
      Between stream stop flags stream.length (before ++ (s.processBlocks n blocks).1.flatten)
        done' later' (s.processBlocks n blocks).2.asEngine := by
  induction blocks generalizing n before done later s with
  | nil =>
    have hend : n = stream.length := by
      have hlength := congrArg List.length hblocks
      rw [List.length_drop] at hlength
      exact Nat.le_antisymm hn (Nat.sub_eq_zero_iff_le.mp hlength.symm)
    rw [SampleSlip.processBlocks, List.flatten_nil, List.append_nil, ← hend]
    exact ⟨done, later, rfl, rfl, h⟩
  | cons block blocks ih =>
    rw [List.flatten_cons] at hblocks
    have hlength := congrArg List.length hblocks
    rw [List.length_append, List.length_drop] at hlength
    have hblock : block = (stream.drop n).take block.length := by
      rw [← hblocks, List.take_left]
    have hrest : blocks.flatten = stream.drop (n + block.length) := by
      rw [← List.drop_drop, ← hblocks, List.drop_left]
    have hkept : s.history.length ≤ s.maxLength := by
      have hhistory : s.history = before.rtake s.maxLength := h.history
      rw [hhistory, length_rtake]
      exact Nat.min_le_left ..
    have hbounds : ∀ slip ∈ s.asEngine.planned, slip.length ≤ s.asEngine.maxLength := by
      intro given hgiven
      obtain ⟨event, hevent, rfl⟩ := List.mem_map.mp hgiven
      exact (hlengths event hevent).2
    obtain ⟨more, rest, -, -, -, -, hbetween⟩ := h.processWithin horder hbounds
      (room_all n block.length later _) hblock (by omega)
      (Nat.le_of_eq (congrArg (block.length + ·) (ahead_eq h))) (by omega) (by omega)
    obtain ⟨hout, hnext⟩ := process_asEngine (fun event hevent => (hlengths event hevent).1) hmost
      hkept (show n + block.length < 2 ^ 64 by omega)
    rw [← hout, ← hnext] at hbetween
    rw [SampleSlip.processBlocks]
    dsimp only
    have hplanned : (s.process block n).2.planned = s.planned := rfl
    have hmax : (s.process block n).2.maxLength = s.maxLength := rfl
    generalize s.process block n = result at hbetween hplanned hmax
    obtain ⟨output, s'⟩ := result
    dsimp only at hbetween hplanned hmax ⊢
    have horder' : InOrder s'.asEngine.planned := by
      rw [asEngine, hplanned]
      exact horder
    obtain ⟨done', later', hplanned', hmax', hend⟩ := ih hbetween horder'
      (by rw [hplanned, hmax]; exact hlengths) (by rw [hmax]; exact hmost) hrest (by omega)
    refine ⟨done', later', hplanned'.trans hplanned, hmax'.trans hmax, ?_⟩
    rw [List.flatten_cons, ← List.append_assoc]
    exact hend

/-! ## The same slips -/

theorem le_iff {a b : SlipTuple} : a.le b = true ↔ a.frame < b.frame ∨ a.frame = b.frame ∧
    (a.kind = .delete ∧ b.kind = .duplicate ∨ a.kind = b.kind ∧ a.length ≤ b.length) := by
  obtain ⟨frameA, kindA, lengthA⟩ := a
  obtain ⟨frameB, kindB, lengthB⟩ := b
  rw [SlipTuple.le]
  dsimp only
  split
  · rename_i hframe
    rw [decide_eq_true_eq]
    omega
  · rename_i hframe
    rw [not_ne_iff] at hframe
    cases kindA <;> cases kindB <;> simp [SlipTuple.kindLe, hframe]

theorem le_trans (a b c : SlipTuple) (hab : a.le b = true) (hbc : b.le c = true) :
    a.le c = true := by
  rw [le_iff] at hab hbc ⊢
  obtain ⟨_, kindA, _⟩ := a
  obtain ⟨_, kindB, _⟩ := b
  obtain ⟨_, kindC, _⟩ := c
  cases kindA <;> cases kindB <;> cases kindC <;> simp at hab hbc ⊢ <;> omega

theorem le_total (a b : SlipTuple) : (a.le b || b.le a) = true := by
  rw [Bool.or_eq_true, le_iff, le_iff]
  obtain ⟨_, kindA, _⟩ := a
  obtain ⟨_, kindB, _⟩ := b
  cases kindA <;> cases kindB <;> simp <;> omega

theorem le_antisymm (a b : SlipTuple) (hab : a.le b = true) (hba : b.le a = true) : a = b := by
  rw [le_iff] at hab hba
  obtain ⟨_, kindA, _⟩ := a
  obtain ⟨_, kindB, _⟩ := b
  cases kindA <;> cases kindB <;> simp at hab hba ⊢ <;> omega

/-- Where the events of one frame are given in the host's order, it sorts them as the engine
does. -/
theorem sorted_mergeSort {given : List SlipTuple}
    (h : given.Pairwise fun a b => a.frame = b.frame → a.le b = true) :
    Sorted (given.map slip) ((given.mergeSort SlipTuple.le).map slip) := by
  have hsorted := List.pairwise_mergeSort le_trans le_total given
  refine StableOrder.Stable.map (.of_sorted (List.mergeSort_perm given _) hsorted ?_ le_antisymm h)
    slip_frame
  intro a b hle
  have := le_iff.mp hle
  omega

theorem host_of_prepare {params : SlipPlacement} {given : List SlipTuple}
    (hlisted : listed params = .ok given) (h : SampleSlip.prepare params = .ok s) :
    s = { planned := given.mergeSort SlipTuple.le
          maxLength := (given.map (·.length)).foldl max 1 } := by
  rw [SampleSlip.prepare, hlisted] at h
  change (ite _ (Except.error noHistory) _ : Except String (SampleSlip α)) = _ at h
  split at h
  · cases h
  · cases h
    rfl

variable {R : Type} [SignalLab.Det R]

/-- Given the same events, those of one frame in the host's order, the host and the engine emit the
same samples and apply as many events, however each cuts the stream into blocks. -/
theorem slips_agree {p : SignalLab.SampleSlipParams R} {scratch : Bool} {totalFrames : UInt64}
    {engine : SampleSlipImpairment α} {params : SlipPlacement} {given : List SlipTuple}
    (hengine : SampleSlipImpairment.prepare p scratch totalFrames = .ok engine)
    (hlisted : listed params = .ok given) (hhost : SampleSlip.prepare params = .ok s)
    (hsame : given.map slip =
      (p.events.toList.take p.eventCount.toNat).map SampleSlipImpairment.slipOf)
    (hgiven : given.Pairwise fun a b => a.frame = b.frame → a.le b = true)
    {blocks : List (List α × Nat)} {cutting : List (List α)}
    (hframes : ∀ block ∈ blocks, block.1.length ≤ SampleSlipImpairment.engineBlockFrames ∧
      block.1.length + SampleSlipImpairment.engineSlackFrames ≤ block.2)
    (hcutting : cutting.flatten = (blocks.map (·.1)).flatten)
    (htotal : totalFrames = 0 ∨ cutting.flatten.length ≤ totalFrames.toNat)
    (hbound : cutting.flatten.length < 2 ^ 64) :
    (s.processBlocks 0 cutting).1.flatten = (engine.processBlocks 0 blocks).1.flatten ∧
      .ofNat (s.processBlocks 0 cutting).2.applied.length =
        (engine.processBlocks 0 blocks).2.applied ∧
      (s.processBlocks 0 cutting).2.history = (engine.processBlocks 0 blocks).2.history := by
  obtain ⟨hsorted, hout, -, happlied, hhistory, -⟩ := SampleSlipImpairment.processBlocks_spliced
    hengine hframes (hcutting ▸ htotal) (hcutting ▸ hbound)
  obtain ⟨flags, haccepted, -, hstart⟩ :=
    SampleSlipImpairment.between_of_prepare cutting.flatten hengine htotal hbound
  obtain ⟨-, hplan, -, -, hprepared⟩ := SampleSlipImpairment.planned_of_prepare hengine
  have hs := host_of_prepare hlisted hhost
  have hplanned : s.planned.map slip = engine.planned := by
    rw [hs]
    rw [← hsame] at hsorted
    exact (sorted_mergeSort hgiven).unique hsorted
  have hmost : s.maxLength = engine.maxLength := by
    have hlengths : engine.planned.map (·.length) = s.planned.map (·.length) := by
      rw [← hplanned, List.map_map]
      rfl
    rw [hprepared, hs]
    dsimp only
    rw [hlengths, hs]
    exact (((List.mergeSort_perm given SlipTuple.le).map _).foldl_eq 1).symm
  have hengineOf : s.asEngine = { engine with scheduled := 0 } := by
    rw [asEngine, hplanned, hmost, hprepared, hs]
    rfl
  have hbetween : Between cutting.flatten cutting.flatten.length flags 0 [] [] engine.planned
      s.asEngine := by
    rw [hengineOf]
    exact ⟨hstart.planned, hstart.cursor, hstart.out, hstart.deleteRemaining, hstart.history,
      hstart.applied, hstart.playable, hstart.reached, hstart.clean⟩
  have hlengths : ∀ event ∈ s.planned, 0 < event.length ∧ event.length ≤ s.maxLength := by
    intro event hevent
    have hslip : slip event ∈ engine.planned := hplanned ▸ List.mem_map_of_mem hevent
    refine ⟨?_, hmost ▸ haccepted.length_le _ hslip⟩
    exact (SampleSlipImpairment.planned_plan .nil hplan).length_pos _ hslip
  have hpositive : 0 < s.maxLength := by
    have hone : (1 :: given.map (·.length)).max? = some s.maxLength := by
      rw [List.max?_cons', hs]
    exact (List.max?_eq_some_iff.mp hone).2 1 List.mem_cons_self
  have horder : InOrder s.asEngine.planned := by
    rw [hengineOf]
    exact haccepted.inOrder
  obtain ⟨done, later, hsame', hmost', hend⟩ := between_processBlocks hbetween horder hlengths
    hpositive List.drop_zero.symm (Nat.zero_le _) (Nat.le_refl _) hbound
  have htrack := hend.track_eq
  have hplanned' : (s.processBlocks 0 cutting).2.asEngine.planned = engine.planned := by
    rw [asEngine, hsame', hplanned]
  have hsent : (s.processBlocks 0 cutting).1.flatten =
      (engine.processBlocks 0 blocks).1.flatten := by
    rw [hout, ← hcutting, spliced, ← hplanned', htrack, ← hend.out, List.nil_append]
  refine ⟨hsent, ?_, ?_⟩
  · rw [happlied, ← hcutting, ← hplanned', htrack]
    exact hend.applied
  · rw [hhistory, ← hsent, ← hmost, ← hmost']
    exact hend.history

def twoTuples : List SlipTuple := [⟨5, .delete, 2⟩, ⟨3, .duplicate, 2⟩]

def preparedTuples : SampleSlip Nat where
  planned := twoTuples.mergeSort SlipTuple.le
  maxLength := 2

theorem slips_agree_twoSlips :
    (preparedTuples.processBlocks 0 [[1, 2, 3], [4, 5, 6, 7, 8]]).1.flatten =
      (SampleSlipImpairment.preparedSlips.processBlocks 0
        [([1, 2, 3, 4], 300), ([5, 6, 7, 8], 300)]).1.flatten := by
  have hengine : SampleSlipImpairment.prepare SampleSlipImpairment.twoSlips true 8 =
      .ok SampleSlipImpairment.preparedSlips := by decide +kernel
  have hframes : ∀ block ∈ [([1, 2, 3, 4], 300), ([5, 6, 7, 8], 300)],
      block.1.length ≤ SampleSlipImpairment.engineBlockFrames ∧
        block.1.length + SampleSlipImpairment.engineSlackFrames ≤ block.2 :=
    List.forall_mem_cons.mpr ⟨by decide, List.forall_mem_singleton.mpr (by decide)⟩
  have hlisted : listed (.explicit twoTuples) = .ok twoTuples := rfl
  have hhost : SampleSlip.prepare (.explicit twoTuples) = .ok preparedTuples := rfl
  have hcutting : ([[1, 2, 3], [4, 5, 6, 7, 8]] : List (List Nat)).flatten =
      ([([1, 2, 3, 4], 300), ([5, 6, 7, 8], 300)].map (·.1)).flatten := rfl
  exact (slips_agree hengine hlisted hhost (by decide +kernel) (by decide) hframes hcutting
    (.inr (by decide)) (by decide)).1

end WaveformGenerator.Host.SampleSlip
