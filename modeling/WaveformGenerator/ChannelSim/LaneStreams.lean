import Mathlib.Analysis.SpecialFunctions.Trigonometric.Basic
import WaveformGenerator.ChannelSim.LaneRates

/-!
# The lane's streams (`channel-sim/core/lane_resampler.cpp`)

`LaneDownsampler` pulls its inputs from a source, `LaneUpsampler` gives its outputs to a sink. The
sizes of their reads and writes do not show in the samples.
-/

namespace WaveformGenerator.ChannelSim

open Doubles LaneResampler

variable {R : Type} [Doubles R]

/-! ## The downsampler -/

namespace LaneDownsampler

def stagingSamples : Nat := 1024

end LaneDownsampler

/-- `upstream` holds what the source answers to each read; behind them it has ended. `staging` is
the staged part of the buffer. -/
structure LaneDownsampler (R : Type) where
  upstream : Option (List (Result (List R))) := none
  resampler : LaneResampler R
  staging : List R := []
  consumed : Nat := 0
  upstreamEnded : Bool := false

namespace LaneDownsampler

def attach (d : LaneDownsampler R) (upstream : List (Result (List R))) (input output : Nat)
    (gain : R) : Status × LaneDownsampler R :=
  match d.resampler.configure input output gain with
  | (status, resampler) =>
    (status, { upstream := some upstream, resampler })

/-- The source's answer to a read, and the source behind it. -/
def readUpstream : List (Result (List R)) → Result (List R) × List (Result (List R))
  | [] => (.ok [], [])
  | answer :: later => (answer, later)

def feed (d : LaneDownsampler R) : Status × LaneDownsampler R :=
  match d.staging[d.consumed]? with
  | some sample =>
    match d.resampler.push sample with
    | (status, resampler) => (status, { d with resampler, consumed := d.consumed + 1 })
  | none =>
    if d.upstreamEnded then (.success, { d with resampler := d.resampler.finish })
    else
      match readUpstream (d.upstream.getD []) with
      | (.error status, later) => (status, { d with upstream := some later })
      | (.ok got, later) =>
        if stagingSamples < got.length then
          (⟨.internalError, "source returned more samples than requested"⟩,
            { d with upstream := some later })
        else
          (.success, { d with
            upstream := some later
            upstreamEnded := got.isEmpty
            staging := got
            consumed := 0 })

/-- The loop of `read`, with what it has written. -/
def readFrom (size : Nat) (d : LaneDownsampler R) (written : List Int16) :
    Nat → Result (List Int16) × LaneDownsampler R
  | 0 => (.ok written, d)
  | turns + 1 =>
    if written.length < size ∧ d.resampler.done = false then
      if d.resampler.ready then
        match d.resampler.next with
        | (.error status, resampler) => (.error status, { d with resampler })
        | (.ok sample, resampler) => readFrom size { d with resampler } (written ++ [sample]) turns
      else
        match d.feed with
        | (fed, d) => if !fed.isOk then (.error fed, d) else readFrom size d written turns
    else (.ok written, d)

/-- The samples of answers. -/
def samplesOf (answers : List (Result (List R))) : List R :=
  answers.flatMap fun
    | .ok got => got
    | .error _ => []

/-- The turns that the loop of `read` takes at most: one for each output, input and read, and one
more each to see the source's end and to finish. -/
def turns (d : LaneDownsampler R) (size : Nat) : Nat :=
  size + (d.staging.length - d.consumed) + (samplesOf (d.upstream.getD [])).length +
    (d.upstream.getD []).length + 3

/-- `read`, with what it puts in a destination of `size` samples. -/
def read (d : LaneDownsampler R) (size : Nat) : Result (List Int16) × LaneDownsampler R :=
  match d.upstream with
  | none => (.error ⟨.invalidConfiguration, "downsampler has no source"⟩, d)
  | some _ => readFrom size d [] (d.turns size)

end LaneDownsampler

/-! ## The upsampler -/

namespace LaneUpsampler

def stagingSamples : Nat := 4096

end LaneUpsampler

/-- `answers` are the sink's to the writes to come, success behind them; `delivered` is what it has
accepted. `staging` is the staged part of the buffer. -/
structure LaneUpsampler (R : Type) where
  downstream : Option (List Status) := none
  delivered : List (List Int16) := []
  resampler : LaneResampler R
  staging : List Int16 := []

namespace LaneUpsampler

def attach (u : LaneUpsampler R) (downstream : List Status) (input output : Nat) (gain : R) :
    Status × LaneUpsampler R :=
  match u.resampler.configure input output gain with
  | (status, resampler) => (status, { downstream := some downstream, resampler })

def flush (u : LaneUpsampler R) : Status × LaneUpsampler R :=
  let answers := u.downstream.getD []
  let written := answers.headD .success
  (written, { u with
    downstream := some answers.tail
    delivered := if written.isOk then u.delivered ++ [u.staging] else u.delivered
    staging := [] })

/-- The loop of `drain`. -/
def drainFrom (u : LaneUpsampler R) : Nat → Status × LaneUpsampler R
  | 0 => (.success, u)
  | turns + 1 =>
    if u.resampler.ready then
      match u.resampler.next with
      | (.error status, resampler) => (status, { u with resampler })
      | (.ok sample, resampler) =>
        let u := { u with resampler, staging := u.staging ++ [sample] }
        if u.staging.length = stagingSamples then
          match u.flush with
          | (flushed, u) => if !flushed.isOk then (flushed, u) else drainFrom u turns
        else drainFrom u turns
    else (.success, u)

/-- An output is ready only below the count of the inputs so far, which bounds the turns. -/
def drain (u : LaneUpsampler R) : Status × LaneUpsampler R :=
  u.drainFrom (u.resampler.countOf u.resampler.pushed + 1)

/-- The loop of `write`. -/
def writeFrom (u : LaneUpsampler R) : List Int16 → Status × LaneUpsampler R
  | [] => u.drain
  | sample :: samples =>
    match u.drain with
    | (drained, u) =>
      if !drained.isOk then (drained, u)
      else
        match u.resampler.push (pcm16ToUnit sample) with
        | (pushed, resampler) =>
          let u := { u with resampler }
          if !pushed.isOk then (pushed, u) else u.writeFrom samples

def write (u : LaneUpsampler R) (samples : List Int16) : Status × LaneUpsampler R :=
  match u.downstream with
  | none => (⟨.invalidConfiguration, "upsampler has no sink"⟩, u)
  | some _ => u.writeFrom samples

def finish (u : LaneUpsampler R) : Status × LaneUpsampler R :=
  match u.downstream with
  | none => (⟨.invalidConfiguration, "upsampler has no sink"⟩, u)
  | some _ =>
    match { u with resampler := u.resampler.finish }.drain with
    | (drained, u) => if drained.isOk then u.flush else (drained, u)

end LaneUpsampler

/-! ## Reads -/

theorem LaneResampler.configure_finished {r : LaneResampler R} {input output : Nat} {gain : R}
    (hok : (r.configure input output gain).1.isOk = true) :
    (r.configure input output gain).2.finished = false := by
  unfold configure at hok ⊢
  split at hok
  · cases hok
  case isFalse hvalid =>
    rw [if_neg hvalid]
    rfl

variable {filter : LaneFilter R} {inputs samples : List R} {outputs : List Int16}

theorem LaneResampler.Tracks.push_ok {r : LaneResampler R} (h : Tracks filter r inputs outputs)
    (hfinished : r.finished = false) (hready : r.ready = false) {sample : R}
    (hfinite : isFinite sample = true) (hroom : inputs.length < maxInputs) :
    (r.push sample).1.isOk = true := by
  unfold LaneResampler.push
  rw [h.configured, hfinished, if_neg (show ¬ (!true || false) = true from nofun), hready,
    if_neg Bool.false_ne_true, hfinite, if_neg (show ¬ (!true) = true from nofun), h.pushed,
    if_neg (Nat.not_le.mpr hroom)]
  rfl

/-- An unfinished resampler, if it is neither ready nor done. -/
theorem LaneResampler.Tracks.not_finished {r : LaneResampler R}
    (h : Tracks filter r inputs outputs) (hready : r.ready = false) (hdone : r.done = false) :
    r.finished = false := by
  cases hfinished : r.finished with
  | false => rfl
  | true =>
    have hmore := mt h.ready_iff.mpr (ne_true_of_eq_false hready)
    rw [hfinished, if_pos rfl] at hmore
    unfold done at hdone
    rw [hfinished, h.produced, Bool.true_and, decide_eq_false_iff_not] at hdone
    omega

theorem LaneResampler.next_finished (r : LaneResampler R) : r.next.2.finished = r.finished := by
  unfold LaneResampler.next kernelFor
  split
  · rfl
  · dsimp only
    split
    · rfl
    · rfl

namespace LaneDownsampler

variable {d : LaneDownsampler R}

/-- What the source gives a read: a sample at least, and no more than asked for. -/
def Gives (answers : List (Result (List R))) : Prop :=
  ∀ answer ∈ answers, ∃ got, answer = .ok got ∧ got ≠ [] ∧ got.length ≤ stagingSamples

/-- The samples still to be pushed. -/
def pending (d : LaneDownsampler R) : List R :=
  d.staging.drop d.consumed ++
    if d.upstreamEnded then [] else samplesOf (d.upstream.getD [])

structure Feeds (filter : LaneFilter R) (samples : List R) (d : LaneDownsampler R)
    (inputs : List R) (outputs : List Int16) : Prop where
  attached : d.upstream.isSome = true
  tracks : Tracks filter d.resampler inputs outputs
  all : inputs ++ d.pending = samples
  gives : Gives (d.upstream.getD [])
  finished : d.resampler.finished = true → d.pending = []

/-- What feeding still takes. -/
def left (d : LaneDownsampler R) : Nat :=
  (d.staging.length - d.consumed) +
    (if d.upstreamEnded then 0
      else (samplesOf (d.upstream.getD [])).length + (d.upstream.getD []).length + 1) +
    if d.resampler.finished then 0 else 1

theorem feed_staged {sample : R} (hstaged : d.staging[d.consumed]? = some sample) :
    d.feed = ((d.resampler.push sample).1,
      { d with resampler := (d.resampler.push sample).2, consumed := d.consumed + 1 }) := by
  unfold feed
  rw [hstaged]

theorem feed_ended (hstaged : d.staging[d.consumed]? = none) (hended : d.upstreamEnded = true) :
    d.feed = (.success, { d with resampler := d.resampler.finish }) := by
  unfold feed
  rw [hstaged]
  exact if_pos hended

theorem feed_end (hstaged : d.staging[d.consumed]? = none) (hended : d.upstreamEnded = false)
    (hanswers : d.upstream.getD [] = []) :
    d.feed = (.success,
      { d with upstream := some [], upstreamEnded := true, staging := [], consumed := 0 }) := by
  unfold feed readUpstream
  rw [hstaged, hanswers]
  exact if_neg (ne_true_of_eq_false hended)

theorem feed_read {got : List R} {later : List (Result (List R))}
    (hstaged : d.staging[d.consumed]? = none) (hended : d.upstreamEnded = false)
    (hanswers : d.upstream.getD [] = .ok got :: later) (hsome : got ≠ [])
    (hsize : got.length ≤ stagingSamples) :
    d.feed = (.success,
      { d with upstream := some later, upstreamEnded := false, staging := got, consumed := 0 }) := by
  unfold feed readUpstream
  rw [hstaged, hanswers]
  dsimp only
  rw [if_neg (ne_true_of_eq_false hended), if_neg (Nat.not_lt.mpr hsize),
    List.isEmpty_eq_false_iff.mpr hsome]

/-- Feeding pushes a sample, finishes or refills, and each but once. -/
theorem Feeds.feed (h : Feeds filter samples d inputs outputs) (regular : filter.Regular)
    (hfinite : ∀ sample ∈ samples, isFinite sample = true) (hfew : samples.length ≤ maxInputs)
    (hready : d.resampler.ready = false) (hdone : d.resampler.done = false) :
    d.feed.1.isOk = true ∧ d.feed.2.left < d.left ∧
      ∃ inputs', Feeds filter samples d.feed.2 inputs' outputs := by
  have hfinished := h.tracks.not_finished hready hdone
  have hall := h.all
  cases hstaged : d.staging[d.consumed]? with
  | some sample =>
    obtain ⟨hless, hget⟩ := List.getElem?_eq_some_iff.mp hstaged
    have hpending : d.pending = sample :: { d with consumed := d.consumed + 1 }.pending := by
      unfold pending
      rw [List.drop_eq_getElem_cons hless, hget]
      rfl
    have hmem : sample ∈ samples := by
      rw [← hall, hpending]
      exact List.mem_append_right _ List.mem_cons_self
    have hroom : inputs.length < maxInputs := by
      have hlength := congrArg List.length hall
      rw [hpending, List.length_append, List.length_cons] at hlength
      omega
    have hok := h.tracks.push_ok hfinished hready (hfinite sample hmem) hroom
    have hopen : (d.resampler.push sample).2.finished = false := by
      obtain ⟨hrefused, -⟩ | ⟨-, -, -, -, hpush⟩ := d.resampler.push_cases sample
      · exact absurd (hok.symm.trans hrefused) nofun
      · rw [hpush]
        exact hfinished
    rw [feed_staged hstaged]
    refine ⟨hok, ?_, inputs ++ [sample], h.attached, h.tracks.push hok, ?_, h.gives,
      fun hended => ?_⟩
    · unfold left
      dsimp only
      rw [hopen, hfinished]
      omega
    · rw [← hall, hpending, List.append_assoc]
      rfl
    · exact absurd (hended.symm.trans hopen) nofun
  | none =>
    have hempty : d.staging.drop d.consumed = [] :=
      List.drop_eq_nil_of_le (List.getElem?_eq_none_iff.mp hstaged)
    cases hended : d.upstreamEnded with
    | true =>
      have hpending : d.pending = [] := by
        unfold pending
        rw [hempty, hended]
        rfl
      have hclosed : d.resampler.finish.finished = true := by
        unfold finish
        rw [hfinished]
        rfl
      rw [feed_ended hstaged hended]
      refine ⟨rfl, ?_, inputs, h.attached, h.tracks.finish regular, hall, h.gives,
        fun _ => hpending⟩
      unfold left
      dsimp only
      rw [hended, hfinished, hclosed]
      exact Nat.lt_succ_self _
    | false =>
      cases hanswers : d.upstream.getD [] with
      | nil =>
        rw [feed_end hstaged hended hanswers]
        refine ⟨rfl, ?_, inputs, rfl, h.tracks, ?_, fun _ hmem => absurd hmem List.not_mem_nil,
          fun _ => rfl⟩
        · unfold left
          dsimp only
          rw [hended, hanswers, hfinished]
          dsimp
          omega
        · rw [← hall]
          unfold pending
          rw [hempty, hended, hanswers]
          rfl
      | cons answer later =>
        obtain ⟨got, rfl, hsome, hsize⟩ := h.gives answer (by
          rw [hanswers]
          exact List.mem_cons_self)
        have hsamples : samplesOf (d.upstream.getD []) = got ++ samplesOf later := by
          rw [hanswers]
          rfl
        rw [feed_read hstaged hended hanswers hsome hsize]
        refine ⟨rfl, ?_, inputs, rfl, h.tracks, ?_, fun answer hmem => ?_, fun hend => ?_⟩
        · unfold left
          dsimp only
          rw [hended, hfinished, hsamples, hanswers, List.length_append, Option.getD_some,
            List.length_cons]
          dsimp
          omega
        · rw [← hall]
          unfold pending
          rw [hempty, hended, hsamples]
          rfl
        · exact h.gives answer (by
            rw [hanswers]
            exact List.mem_cons_of_mem _ hmem)
        · exact absurd (hend.symm.trans hfinished) nofun

theorem Feeds.next (h : Feeds filter samples d inputs outputs) (regular : filter.Regular)
    (hready : d.resampler.ready = true) :
    d.resampler.next.1 = .ok (filter.outputAt inputs outputs.length) ∧
      { d with resampler := d.resampler.next.2 }.left = d.left ∧
      Feeds filter samples { d with resampler := d.resampler.next.2 } inputs
        (outputs ++ [filter.outputAt inputs outputs.length]) := by
  obtain ⟨hsample, hnext⟩ := h.tracks.next regular hready
  have hsame : d.resampler.next.2.finished = d.resampler.finished :=
    next_finished d.resampler
  refine ⟨hsample, ?_, h.attached, hnext, h.all, h.gives, fun hfinished => h.finished ?_⟩
  · unfold left
    dsimp only
    rw [hsame]
  · rwa [← hsame]

/-- The loop of `read` writes outputs until it has enough or there are no more. -/
theorem Feeds.readFrom (h : Feeds filter samples d inputs outputs) (regular : filter.Regular)
    (hfinite : ∀ sample ∈ samples, isFinite sample = true) (hfew : samples.length ≤ maxInputs)
    {size turns : Nat} {before written : List Int16} (houtputs : outputs = before ++ written)
    (hsize : written.length ≤ size) (hturns : size - written.length + d.left < turns) :
    ∃ inputs' written', (LaneDownsampler.readFrom size d written turns).1 = .ok written' ∧
      Feeds filter samples (LaneDownsampler.readFrom size d written turns).2 inputs'
        (before ++ written') ∧
      written'.length ≤ size ∧ (written'.length = size ∨
        (LaneDownsampler.readFrom size d written turns).2.resampler.done = true) := by
  induction turns generalizing d inputs outputs written with
  | zero => exact absurd hturns (Nat.not_lt_zero _)
  | succ turns ih =>
    unfold LaneDownsampler.readFrom
    by_cases hmore : written.length < size ∧ d.resampler.done = false
    case neg =>
      rw [if_neg hmore]
      refine ⟨inputs, written, rfl, houtputs ▸ h, hsize, ?_⟩
      by_cases hless : written.length < size
      · exact .inr (Bool.not_eq_false _ ▸ fun hdone => hmore ⟨hless, hdone⟩)
      · exact .inl (Nat.le_antisymm hsize (Nat.not_lt.mp hless))
    rw [if_pos hmore]
    obtain ⟨hless, hdone⟩ := hmore
    cases hready : d.resampler.ready with
    | true =>
      obtain ⟨hsample, hleft, hnext⟩ := h.next regular hready
      rw [if_pos rfl]
      generalize d.resampler.next = answer at hsample hleft hnext
      obtain ⟨sample, resampler⟩ := answer
      dsimp only at hsample hleft hnext ⊢
      rw [hsample]
      have hlength (sample : Int16) : (written ++ [sample]).length = written.length + 1 :=
        List.length_append
      refine ih hnext (by rw [houtputs, List.append_assoc]) ?_ ?_
      · rw [hlength]
        exact hless
      · rw [hlength, hleft]
        omega
    | false =>
      obtain ⟨hok, hleft, inputs', hfed⟩ := h.feed regular hfinite hfew hready hdone
      rw [if_neg Bool.false_ne_true]
      generalize d.feed = answer at hok hleft hfed
      obtain ⟨fed, d'⟩ := answer
      dsimp only at hok hleft hfed ⊢
      rw [hok, if_neg (show ¬ (!true) = true from nofun)]
      exact ih hfed houtputs hsize (by omega)

/-- A read gives the next of the whole input's outputs. -/
theorem Feeds.read (h : Feeds filter samples d inputs outputs) (regular : filter.Regular)
    (hfinite : ∀ sample ∈ samples, isFinite sample = true) (hfew : samples.length ≤ maxInputs)
    (size : Nat) :
    ∃ inputs' written, (d.read size).1 = .ok written ∧
      Feeds filter samples (d.read size).2 inputs' (outputs ++ written) ∧
      outputs ++ written = (filter.outputsOf samples).take (outputs.length + size) := by
  have hread : d.read size = LaneDownsampler.readFrom size d [] (d.turns size) := by
    obtain ⟨answers, hanswers⟩ := Option.isSome_iff_exists.mp h.attached
    unfold LaneDownsampler.read
    rw [hanswers]
  have hturns : size - ([] : List Int16).length + d.left < d.turns size := by
    unfold left turns
    rw [List.length_nil]
    split <;> split <;> omega
  obtain ⟨inputs', written, hok, hfeeds, hle, hend⟩ :=
    h.readFrom regular hfinite hfew (List.append_nil outputs).symm (Nat.zero_le size) hturns
  rw [← hread] at hok hfeeds hend
  refine ⟨inputs', written, hok, hfeeds, ?_⟩
  have hprefix := hfeeds.tracks.isPrefix regular _ hfeeds.finished (by rw [hfeeds.all]; exact hfew)
  rw [hfeeds.all] at hprefix
  obtain hfull | hdone := hend
  · rw [List.length_append, hfull] at hprefix
    exact hprefix
  · obtain ⟨hfinished, hcount⟩ := (Bool.and_eq_true ..).mp hdone
    have hall := hfeeds.all
    rw [hfeeds.finished hfinished, List.append_nil] at hall
    have hlength : (filter.outputsOf samples).length ≤ (outputs ++ written).length := by
      have hle := of_decide_eq_true hcount
      rw [(hfeeds.tracks.ended hfinished).1, hfeeds.tracks.produced, hall] at hle
      unfold LaneFilter.outputsOf
      rwa [List.length_map, List.length_range]
    rw [List.take_of_length_le hlength] at hprefix
    rw [List.length_append] at hlength
    rw [List.take_of_length_le (by omega)]
    exact hprefix

/-- Reads of the sizes given, one behind the other. -/
def reads (d : LaneDownsampler R) : List Nat → Result (List (List Int16))
  | [] => .ok []
  | size :: sizes =>
    match d.read size with
    | (.error status, _) => .error status
    | (.ok written, d) => (written :: ·) <$> d.reads sizes

theorem Feeds.reads (h : Feeds filter samples d inputs outputs) (regular : filter.Regular)
    (hfinite : ∀ sample ∈ samples, isFinite sample = true) (hfew : samples.length ≤ maxInputs)
    (sizes : List Nat) :
    ∃ blocks, d.reads sizes = .ok blocks ∧
      outputs ++ blocks.flatten = (filter.outputsOf samples).take (outputs.length + sizes.sum) := by
  induction sizes generalizing d inputs outputs with
  | nil =>
    have hprefix := h.tracks.isPrefix regular _ h.finished (by rw [h.all]; exact hfew)
    rw [h.all] at hprefix
    exact ⟨[], rfl, (List.append_nil _).trans hprefix⟩
  | cons size sizes ih =>
    obtain ⟨inputs', written, hok, hfeeds, htake⟩ := h.read regular hfinite hfew size
    obtain ⟨blocks, hblocks, hall⟩ := ih hfeeds
    unfold LaneDownsampler.reads
    generalize d.read size = answer at hok hfeeds hblocks
    obtain ⟨result, d'⟩ := answer
    dsimp only at hok hfeeds hblocks
    rw [hok]
    refine ⟨written :: blocks, ?_, ?_⟩
    · show (written :: ·) <$> d'.reads sizes = _
      rw [hblocks]
      rfl
    · rw [List.flatten_cons, ← List.append_assoc, hall, List.sum_cons]
      -- A read falls short only of the end.
      obtain hshort | hlong := Nat.lt_or_ge (filter.outputsOf samples).length
        (outputs.length + size)
      · rw [List.take_of_length_le (Nat.le_of_lt hshort)] at htake
        rw [htake, List.take_of_length_le (by omega), List.take_of_length_le (by omega)]
      · have hlength := congrArg List.length htake
        rw [List.length_take, Nat.min_eq_left hlong] at hlength
        rw [hlength, Nat.add_assoc]

end LaneDownsampler

/-! ## Writes -/

namespace LaneUpsampler

variable {u : LaneUpsampler R}

/-- An upsampler whose sink accepts every write: it has, or will have, all outputs so far. -/
structure Writes (filter : LaneFilter R) (u : LaneUpsampler R) (inputs : List R)
    (outputs : List Int16) : Prop where
  attached : u.downstream.isSome = true
  accepts : ∀ answer ∈ u.downstream.getD [], answer.isOk = true
  tracks : Tracks filter u.resampler inputs outputs
  all : u.delivered.flatten ++ u.staging = outputs

theorem Writes.flush (h : Writes filter u inputs outputs) :
    u.flush.1.isOk = true ∧ u.flush.2.staging = [] ∧ u.flush.2.resampler = u.resampler ∧
      Writes filter u.flush.2 inputs outputs := by
  have hok : ((u.downstream.getD []).headD .success).isOk = true := by
    cases hanswers : u.downstream.getD [] with
    | nil => rfl
    | cons answer later =>
      refine h.accepts answer ?_
      rw [hanswers]
      exact List.mem_cons_self
  refine ⟨hok, rfl, rfl, rfl, fun answer hmem => ?_, h.tracks, ?_⟩
  · exact h.accepts answer (List.mem_of_mem_tail hmem)
  · unfold LaneUpsampler.flush
    dsimp only
    rw [hok, if_pos rfl, List.flatten_append, List.flatten_singleton, List.append_nil]
    exact h.all

/-- The loop of `drain` takes every output that is ready. -/
theorem Writes.drainFrom (h : Writes filter u inputs outputs) (regular : filter.Regular)
    {turns : Nat} (hturns : filter.countOf inputs.length - outputs.length < turns) :
    (u.drainFrom turns).1.isOk = true ∧ (u.drainFrom turns).2.resampler.ready = false ∧
      (u.drainFrom turns).2.resampler.finished = u.resampler.finished ∧
      ∃ outputs', Writes filter (u.drainFrom turns).2 inputs outputs' := by
  induction turns generalizing u outputs with
  | zero => exact absurd hturns (Nat.not_lt_zero _)
  | succ turns ih =>
    unfold LaneUpsampler.drainFrom
    cases hready : u.resampler.ready with
    | false => exact ⟨rfl, hready, rfl, outputs, h⟩
    | true =>
      obtain ⟨hsample, hnext⟩ := h.tracks.next regular hready
      have hless := h.tracks.ready_lt regular hready
      have hsame := u.resampler.next_finished
      rw [if_pos rfl]
      generalize u.resampler.next = answer at hsample hnext hsame
      obtain ⟨result, resampler⟩ := answer
      dsimp only at hsample hnext hsame ⊢
      rw [hsample]
      dsimp only
      have hlength (sample : Int16) : (outputs ++ [sample]).length = outputs.length + 1 :=
        List.length_append
      have hlater : filter.countOf inputs.length -
          (outputs ++ [filter.outputAt inputs outputs.length]).length < turns := by
        rw [hlength]
        omega
      have hstaged : Writes filter { u with
          resampler
          staging := u.staging ++ [filter.outputAt inputs outputs.length] } inputs
          (outputs ++ [filter.outputAt inputs outputs.length]) :=
        ⟨h.attached, h.accepts, hnext, by rw [← List.append_assoc, h.all]⟩
      split
      · obtain ⟨hok, -, hresampler, hflushed⟩ := hstaged.flush
        generalize LaneUpsampler.flush _ = answer at hok hresampler hflushed
        obtain ⟨flushed, u'⟩ := answer
        dsimp only at hok hresampler hflushed ⊢
        rw [hok, if_neg (show ¬ (!true) = true from nofun)]
        obtain ⟨hok', hready', hfinished', hwrites⟩ := ih hflushed hlater
        exact ⟨hok', hready', by rw [hfinished', hresampler, hsame], hwrites⟩
      · obtain ⟨hok', hready', hfinished', hwrites⟩ := ih hstaged hlater
        exact ⟨hok', hready', hfinished'.trans hsame, hwrites⟩

theorem Writes.drain (h : Writes filter u inputs outputs) (regular : filter.Regular) :
    u.drain.1.isOk = true ∧ u.drain.2.resampler.ready = false ∧
      u.drain.2.resampler.finished = u.resampler.finished ∧
      ∃ outputs', Writes filter u.drain.2 inputs outputs' := by
  have hcount : u.resampler.countOf u.resampler.pushed = filter.countOf inputs.length := by
    rw [h.tracks.same, h.tracks.pushed]
  unfold LaneUpsampler.drain
  rw [hcount]
  exact h.drainFrom regular (Nat.lt_succ_of_le (Nat.sub_le ..))

theorem Writes.writeFrom (h : Writes filter u inputs outputs) (regular : filter.Regular)
    (hfinite : ∀ sample : Int16, isFinite (pcm16ToUnit sample : R) = true)
    (hopen : u.resampler.finished = false) (samples : List Int16)
    (hfew : inputs.length + samples.length ≤ maxInputs) :
    (u.writeFrom samples).1.isOk = true ∧ (u.writeFrom samples).2.resampler.finished = false ∧
      ∃ outputs', Writes filter (u.writeFrom samples).2 (inputs ++ samples.map pcm16ToUnit)
        outputs' := by
  induction samples generalizing u inputs outputs with
  | nil =>
    obtain ⟨hok, -, hfinished, outputs', hwrites⟩ := h.drain regular
    refine ⟨hok, hfinished.trans hopen, outputs', ?_⟩
    rwa [List.map_nil, List.append_nil]
  | cons sample samples ih =>
    obtain ⟨hok, hready, hfinished, outputs', hdrained⟩ := h.drain regular
    unfold LaneUpsampler.writeFrom
    generalize u.drain = answer at hok hready hfinished hdrained
    obtain ⟨drained, u'⟩ := answer
    dsimp only at hok hready hfinished hdrained ⊢
    rw [hok, if_neg (show ¬ (!true) = true from nofun)]
    rw [List.length_cons] at hfew
    have hpushed := hdrained.tracks.push_ok (hfinished.trans hopen) hready (hfinite sample)
      (by omega)
    have htracks := hdrained.tracks.push hpushed
    have hopen' : (u'.resampler.push (pcm16ToUnit sample)).2.finished = false := by
      obtain ⟨hrefused, -⟩ | ⟨hstill, -, -, -, hpush⟩ :=
        u'.resampler.push_cases (pcm16ToUnit sample)
      · exact absurd (hpushed.symm.trans hrefused) nofun
      · rw [hpush]
        exact hstill
    generalize u'.resampler.push (pcm16ToUnit sample) = answer at hpushed htracks hopen'
    obtain ⟨pushed, resampler⟩ := answer
    dsimp only at hpushed htracks hopen' ⊢
    rw [hpushed, if_neg (show ¬ (!true) = true from nofun)]
    have hwrites : Writes filter { u' with resampler } (inputs ++ [pcm16ToUnit sample]) outputs' :=
      ⟨hdrained.attached, hdrained.accepts, htracks, hdrained.all⟩
    have hlength : (inputs ++ [pcm16ToUnit sample]).length = inputs.length + 1 :=
      List.length_append
    obtain ⟨hok', hopen'', outputs'', hall⟩ := ih hwrites hopen' (by rw [hlength]; omega)
    rw [List.append_assoc] at hall
    exact ⟨hok', hopen'', outputs'', hall⟩

/-- Writes of the samples given, one behind the other, and the end. -/
def writesThenFinish (u : LaneUpsampler R) : List (List Int16) → Status × LaneUpsampler R
  | [] => u.finish
  | samples :: later =>
    match u.write samples with
    | (written, u) => if !written.isOk then (written, u) else u.writesThenFinish later

theorem Writes.finish (h : Writes filter u inputs outputs) (regular : filter.Regular) :
    u.finish.1.isOk = true ∧ u.finish.2.delivered.flatten = filter.outputsOf inputs := by
  obtain ⟨answers, hanswers⟩ := Option.isSome_iff_exists.mp h.attached
  have hended : Writes filter { u with resampler := u.resampler.finish } inputs outputs :=
    ⟨h.attached, h.accepts, h.tracks.finish regular, h.all⟩
  have hclosed : u.resampler.finish.finished = true := by
    unfold LaneResampler.finish
    split
    case isTrue hfinished => exact hfinished
    case isFalse => rfl
  obtain ⟨hok, hready, hfinished, outputs', hdrained⟩ := hended.drain regular
  unfold LaneUpsampler.finish
  rw [hanswers] at hok hready hfinished hdrained ⊢
  dsimp only at hok hready hfinished hdrained ⊢
  generalize LaneUpsampler.drain (R := R) _ = answer at hok hready hfinished hdrained
  obtain ⟨drained, u'⟩ := answer
  dsimp only at hok hready hfinished hdrained ⊢
  rw [hok, if_pos rfl]
  obtain ⟨hflushed, hempty, -, hwrites⟩ := hdrained.flush
  refine ⟨hflushed, ?_⟩
  have hall := hwrites.all
  rw [hempty, List.append_nil] at hall
  rw [hall]
  -- No output is left, so they are all.
  have hdone : u'.resampler.finished = true := hfinished.trans hclosed
  obtain ⟨hcount, hle⟩ := hdrained.tracks.ended hdone
  have hlast := mt hdrained.tracks.ready_iff.mpr (ne_true_of_eq_false hready)
  rw [hdone, if_pos rfl] at hlast
  have hprefix := hdrained.tracks.isPrefix regular [] (fun _ => rfl)
    (by rw [List.append_nil]; exact hdrained.tracks.few)
  rw [List.append_nil, List.take_of_length_le] at hprefix
  · exact hprefix
  · unfold LaneFilter.outputsOf
    rw [List.length_map, List.length_range]
    omega

theorem Writes.writesThenFinish (h : Writes filter u inputs outputs) (regular : filter.Regular)
    (hfinite : ∀ sample : Int16, isFinite (pcm16ToUnit sample : R) = true)
    (hopen : u.resampler.finished = false) {chunks : List (List Int16)}
    (hfew : inputs.length + chunks.flatten.length ≤ maxInputs) :
    (u.writesThenFinish chunks).1.isOk = true ∧
      (u.writesThenFinish chunks).2.delivered.flatten =
        filter.outputsOf (inputs ++ chunks.flatten.map pcm16ToUnit) := by
  induction chunks generalizing u inputs outputs with
  | nil =>
    rw [List.flatten_nil, List.map_nil, List.append_nil]
    exact h.finish regular
  | cons samples later ih =>
    rw [List.flatten_cons, List.length_append] at hfew
    have hwrite : u.write samples = u.writeFrom samples := by
      obtain ⟨answers, hanswers⟩ := Option.isSome_iff_exists.mp h.attached
      unfold LaneUpsampler.write
      rw [hanswers]
    obtain ⟨hok, hopen', outputs', hwrites⟩ :=
      h.writeFrom regular hfinite hopen samples (by omega)
    unfold LaneUpsampler.writesThenFinish
    rw [hwrite]
    generalize u.writeFrom samples = answer at hok hopen' hwrites
    obtain ⟨written, u'⟩ := answer
    dsimp only at hok hopen' hwrites ⊢
    rw [hok, if_neg (show ¬ (!true) = true from nofun)]
    have hlength : (inputs ++ samples.map (pcm16ToUnit : Int16 → R)).length =
        inputs.length + samples.length := by rw [List.length_append, List.length_map]
    have hall := ih hwrites hopen' (by rw [hlength]; omega)
    rw [List.append_assoc, ← List.map_append] at hall
    exact hall

end LaneUpsampler

/-! ## The whole input at once -/

theorem LaneResampler.Tracks.interior_iff_finRange {r : LaneResampler R}
    (h : Tracks filter r inputs outputs) :
    r.interior = true ↔
      LaneFilter.tapsOf inputs.length r.center = List.finRange laneFilterTaps := by
  unfold LaneFilter.tapsOf
  rw [h.interior_iff, List.filter_eq_self, firstTap_eq, lastTap_eq]
  constructor
  · rintro ⟨hfirst, hlast⟩ index -
    have hindex : (index : Nat) < 192 := index.isLt
    exact decide_eq_true (by omega)
  · intro hall
    have hfirst := of_decide_eq_true (hall ⟨0, by decide⟩ (List.mem_finRange _))
    have hlast := of_decide_eq_true (hall ⟨191, by decide⟩ (List.mem_finRange _))
    dsimp only at hfirst hlast
    omega

theorem LaneResampler.Tracks.done_eq {r : LaneResampler R} (h : Tracks filter r inputs outputs)
    (regular : filter.Regular) (hdone : r.done = true) : outputs = filter.outputsOf inputs := by
  obtain ⟨hfinished, hcount⟩ := (Bool.and_eq_true ..).mp hdone
  have hle := of_decide_eq_true hcount
  rw [(h.ended hfinished).1, h.produced] at hle
  have hprefix := h.isPrefix regular [] (fun _ => rfl) (by rw [List.append_nil]; exact h.few)
  rw [List.append_nil, List.take_of_length_le] at hprefix
  · exact hprefix
  · unfold LaneFilter.outputsOf
    rwa [List.length_map, List.length_range]

/-- In every order of calls an output is the sum over its own inputs, none of them overwritten, and
the outputs are those of the whole input, whatever the sizes of the reads and of the writes. -/
theorem laneResampler_exact [LawfulDoubles R] (input output : Nat) (gain : R) :
    (∀ r : LaneResampler R, (r.configure input output gain).1.isOk = true →
      ∀ calls : List (Call R),
        let run := calls.foldl Run.call { resampler := (r.configure input output gain).2 }
        (run.resampler.ready = true →
          (∀ index ∈ LaneFilter.tapsOf run.inputs.length run.resampler.center,
            Ring.item run.resampler.history (run.resampler.center + firstTap + index).toNat =
              run.inputs.getD (run.resampler.center + firstTap + index).toNat 0.0) ∧
          (run.resampler.interior = true ↔
            LaneFilter.tapsOf run.inputs.length run.resampler.center =
              List.finRange laneFilterTaps) ∧
          run.resampler.next.1 = .ok ((LaneFilter.of input output gain).outputAt run.inputs
            run.outputs.length)) ∧
        run.outputs =
          ((LaneFilter.of input output gain).outputsOf run.inputs).take run.outputs.length ∧
        (run.resampler.done = true →
          run.outputs = (LaneFilter.of input output gain).outputsOf run.inputs)) ∧
    (∀ (d : LaneDownsampler R) (answers : List (Result (List R))),
      LaneDownsampler.Gives answers →
      (∀ sample ∈ LaneDownsampler.samplesOf answers, isFinite sample = true) →
      (LaneDownsampler.samplesOf answers).length ≤ maxInputs →
      (d.attach answers input output gain).1.isOk = true → ∀ sizes : List Nat,
        ∃ blocks, (d.attach answers input output gain).2.reads sizes = .ok blocks ∧
          blocks.flatten = ((LaneFilter.of input output gain).outputsOf
            (LaneDownsampler.samplesOf answers)).take sizes.sum) ∧
    ∀ (u : LaneUpsampler R) (answers : List Status), (∀ answer ∈ answers, answer.isOk = true) →
      (u.attach answers input output gain).1.isOk = true → ∀ chunks : List (List Int16),
        chunks.flatten.length ≤ maxInputs →
        ((u.attach answers input output gain).2.writesThenFinish chunks).1.isOk = true ∧
          ((u.attach answers input output gain).2.writesThenFinish chunks).2.delivered.flatten =
            (LaneFilter.of input output gain).outputsOf (chunks.flatten.map pcm16ToUnit) := by
  refine ⟨fun r hok calls => ?_, fun d answers hgives hfinite hfew hok sizes => ?_,
    fun u answers haccepts hok chunks hfew => ?_⟩
  · intro run
    have regular := LawfulDoubles.regular_of_configure hok
    have h : Tracks _ run.resampler run.inputs run.outputs :=
      @Tracks.calls R _ _ { resampler := (r.configure input output gain).2 }
        (tracks_configure hok regular) regular calls
    have hprefix := h.isPrefix regular [] (fun _ => rfl) (by rw [List.append_nil]; exact h.few)
    rw [List.append_nil] at hprefix
    exact ⟨fun hready => ⟨fun index htap => item_eq h.remembers h.near htap,
      h.interior_iff_finRange, (h.next regular hready).1⟩, hprefix, h.done_eq regular⟩
  · have regular := LawfulDoubles.regular_of_configure hok
    have hpending : (d.attach answers input output gain).2.pending =
        LaneDownsampler.samplesOf answers := rfl
    have h : LaneDownsampler.Feeds (.of input output gain) (LaneDownsampler.samplesOf answers)
        (d.attach answers input output gain).2 [] [] :=
      ⟨rfl, tracks_configure hok regular, hpending, hgives, fun hfinished => ?_⟩
    · obtain ⟨blocks, hblocks, hall⟩ := h.reads regular hfinite hfew sizes
      refine ⟨blocks, hblocks, ?_⟩
      rwa [List.nil_append, List.length_nil, Nat.zero_add] at hall
    · exact absurd (hfinished.symm.trans (configure_finished hok)) nofun
  · have regular := LawfulDoubles.regular_of_configure hok
    have h : LaneUpsampler.Writes (.of input output gain)
        (u.attach answers input output gain).2 [] [] :=
      ⟨rfl, haccepts, tracks_configure hok regular, rfl⟩
    have hfew' : ([] : List R).length + chunks.flatten.length ≤ maxInputs := by
      rwa [List.length_nil, Nat.zero_add]
    exact h.writesThenFinish regular LawfulDoubles.isFinite_pcm16ToUnit (configure_finished hok)
      hfew'

/-! ## Exact numbers -/

/-- Real numbers in place of doubles. -/
noncomputable instance realDoubles : Doubles ℝ where
  beq a b := open Classical in decide (a = b)
  lt a b := open Classical in decide (a < b)
  le a b := open Classical in decide (a ≤ b)
  ofInt i := i
  toInt x := ⌊x⌋
  abs x := |x|
  floor x := ⌊x⌋
  llround x := if 0 ≤ x then round x else -round (-x)
  isFinite _ := true
  isNan _ := false
  sin := Real.sin
  cos := Real.cos

theorem llround_real {a : ℝ} (_ : isFinite a = true) (hnonneg : 0 ≤ id a) (_ : id a < 2 ^ 62) :
    llround a = ⌊id a + 1 / 2⌋ :=
  (if_pos hnonneg).trans (round_eq a)

/-- Nothing is rounded. -/
noncomputable instance lawfulReal : LawfulDoubles ℝ where
  rounding := .exact
  value := id
  literal _ _ _ _ := ⟨rfl, rfl⟩
  ofInt _ _ := ⟨rfl, rfl⟩
  sub _ _ _ := ⟨rfl, rfl⟩
  mul _ _ _ := ⟨rfl, rfl⟩
  div _ _ _ _ := ⟨rfl, rfl⟩
  abs _ := ⟨rfl, rfl⟩
  floor _ := ⟨rfl, rfl⟩
  lt _ _ := decide_eq_true_iff
  le _ _ := decide_eq_true_iff
  toInt {a} _ i h _ := by
    show ⌊a⌋ = i
    rw [show a = i from h, Int.floor_intCast]
  llround := llround_real
  cos_zero {a} _ hzero := by
    show Real.cos a = 1.0
    rw [show a = 0 from hzero, Real.cos_zero]
    norm_num
  eq_of_beq h := .inl (of_decide_eq_true h)
  eq_of_value _ _ h _ := h

theorem configure_real (r : LaneResampler ℝ) :
    (r.configure 48000 8000 1).1.isOk = true := by
  unfold LaneResampler.configure
  rw [if_neg (show ¬ (!laneRate 48000 || !laneRate 8000 || !isFinite (1 : ℝ)) = true from nofun)]
  rfl

def freshDownsampler : LaneDownsampler R := { resampler := .initial }

def freshUpsampler : LaneUpsampler R := { resampler := .initial }

/-- Three samples from 48 kHz to 8 kHz in two reads, two writes, and pushed one by one. -/
theorem laneResampler_exact_real :
    (∃ blocks, ((freshDownsampler : LaneDownsampler ℝ).attach [.ok [1, 0], .ok [1]] 48000 8000
        1).2.reads [0, 5] = .ok blocks ∧
      blocks.flatten = ((LaneFilter.of 48000 8000 1).outputsOf [(1 : ℝ), 0, 1]).take 5) ∧
    (((freshUpsampler : LaneUpsampler ℝ).attach [] 48000 8000 1).2.writesThenFinish
      [[1], [0, 1]]).1.isOk = true ∧
    ([Call.push (1 : ℝ), .finish].foldl Run.call { resampler :=
      ((LaneResampler.initial : LaneResampler ℝ).configure 48000 8000 1).2 }).outputs =
      ((LaneFilter.of 48000 8000 1).outputsOf ([Call.push (1 : ℝ), .finish].foldl Run.call {
        resampler := ((LaneResampler.initial : LaneResampler ℝ).configure 48000 8000
          1).2 }).inputs).take ([Call.push (1 : ℝ), .finish].foldl Run.call { resampler :=
            ((LaneResampler.initial : LaneResampler ℝ).configure 48000 8000
              1).2 }).outputs.length := by
  obtain ⟨hcalls, hreads, hwrites⟩ :=
    laneResampler_exact 48000 8000 (1 : ℝ)
  have hgives : LaneDownsampler.Gives [.ok [(1 : ℝ), 0], .ok [1]] := by
    intro answer hmem
    obtain rfl | hmem := List.mem_cons.mp hmem
    · exact ⟨[1, 0], rfl, nofun, by decide⟩
    · rw [List.mem_singleton.mp hmem]
      exact ⟨[1], rfl, nofun, by decide⟩
  refine ⟨?_, ?_, ?_⟩
  · exact hreads freshDownsampler _ hgives (fun _ _ => rfl) (by decide) (configure_real .initial)
      [0, 5]
  · exact (hwrites freshUpsampler [] (fun _ hmem => absurd hmem List.not_mem_nil)
      (configure_real .initial) [[1], [0, 1]] (by decide)).1
  · exact (hcalls .initial (configure_real .initial) [.push 1, .finish]).2.1

end WaveformGenerator.ChannelSim
