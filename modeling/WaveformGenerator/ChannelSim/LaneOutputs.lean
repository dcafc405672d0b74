import Mathlib.Data.List.GetD
import WaveformGenerator.ChannelSim.LaneResampler

/-!
# The resampler reads the right samples

Whatever the order of its calls, an output is the weighted sum of the inputs around its center, as
it would be of the whole input at once: what it reads of the history is not yet overwritten.
-/

namespace WaveformGenerator.ChannelSim

open Doubles

variable {R : Type} [Doubles R]

theorem lastTap_eq : lastTap = 96 := rfl

theorem firstTap_eq : firstTap = -95 := rfl

/-! ## Outputs of a whole input -/

namespace LaneFilter

/-- The taps of center `center` that `count` inputs have. -/
def tapsOf (count : Nat) (center : Int) : List (Fin laneFilterTaps) :=
  (List.finRange laneFilterTaps).filter fun index =>
    0 ≤ center + firstTap + index ∧ center + firstTap + index < count

/-- The normalized sum over the inputs around `center`, each with the weight of its tap. -/
def valueAt (filter : LaneFilter R) (inputs : List R) (center : Int) (frac : R) : R :=
  let taps := tapsOf inputs.length center
  LaneResampler.normalized (taps.foldl (· + filter.weight frac ·) 0.0)
    (taps.foldl (fun sum (index : Fin laneFilterTaps) =>
      sum + inputs.getD (center + firstTap + index).toNat 0.0 * filter.weight frac index) 0.0)

/-- Output `produced` of a whole input. -/
def outputAt (filter : LaneFilter R) (inputs : List R) (produced : Nat) : Int16 :=
  let center := filter.centerOf produced
  unitToPcm16Rounded
    (filter.valueAt inputs center (filter.positionOf produced - ofInt center) * filter.gain)

/-- The outputs of a whole input. -/
def outputsOf (filter : LaneFilter R) (inputs : List R) : List Int16 :=
  (List.range (filter.countOf inputs.length)).map (filter.outputAt inputs)

/-- What the resampler relies on: the centers start at input 0 and do not go back, an output whose
last tap has arrived is among those of the whole input, and equal keys have the same weights. -/
structure Regular (filter : LaneFilter R) : Prop where
  start : filter.centerOf 0 = 0
  centers : ∀ produced ≤ maxSampleCount, filter.centerOf produced ≤ filter.centerOf (produced + 1)
  early : ∀ produced ≤ maxSampleCount, ∀ pushed ≤ maxInputs,
    filter.centerOf produced + lastTap < pushed → produced < filter.countOf pushed
  keys : ∀ frac frac' : R, (frac == frac') = true →
    ∀ index, filter.weight frac index = filter.weight frac' index

theorem countOf_le (filter : LaneFilter R) (pushed : Nat) :
    filter.countOf pushed ≤ maxSampleCount := by
  unfold countOf toUnsignedIndex maxSampleIndex
  omega

theorem tapsOf_mono {count count' : Nat} {center : Int} (hle : count ≤ count')
    (hlast : center + lastTap < count) : tapsOf count' center = tapsOf count center := by
  refine List.filter_congr fun index _ => ?_
  have hindex : (index : Nat) < 192 := index.isLt
  rw [lastTap_eq] at hlast
  rw [decide_eq_decide, firstTap_eq]
  omega

/-- An output whose last tap has arrived does not depend on what comes behind it. -/
theorem outputAt_append (filter : LaneFilter R) {inputs : List R} (later : List R) {produced : Nat}
    (hlast : filter.centerOf produced + lastTap < inputs.length) :
    filter.outputAt (inputs ++ later) produced = filter.outputAt inputs produced := by
  unfold outputAt valueAt
  dsimp only
  have htaps : tapsOf (inputs ++ later).length (filter.centerOf produced) =
      tapsOf inputs.length (filter.centerOf produced) :=
    tapsOf_mono (by rw [List.length_append]; omega) hlast
  rw [htaps]
  congr 3
  refine List.foldl_ext _ _ _ fun sum index hindex => ?_
  have hmem := of_decide_eq_true (List.mem_filter.mp hindex).2
  rw [List.getD_append _ _ _ _ (by omega)]

end LaneFilter

/-! ## The kernels -/

namespace LaneResampler

variable {r : LaneResampler R} {filter : LaneFilter R}

/-- Every kernel kept is that of its key. -/
structure Kernels (r : LaneResampler R) : Prop where
  used : r.kernelsUsed ≤ kernelCacheEntries
  victim : r.nextVictim < kernelCacheEntries
  kept : ∀ index : Fin kernelCacheEntries, index.val < r.kernelsUsed →
    r.kernels[index] = r.computeKernel r.kernels[index].frac

theorem Kernels.of_findKernel (h : Kernels r) {frac : R} {index : Fin kernelCacheEntries}
    (hfound : r.findKernel frac = some index) :
    let kernel := getElem r.kernels index index.isLt
    kernel = r.computeKernel kernel.frac ∧ (kernel.frac == frac) = true := by
  unfold findKernel at hfound
  obtain ⟨probe, hprobe, hfound⟩ := List.exists_of_findSome?_eq_some hfound
  dsimp only at hfound
  split at hfound
  case isFalse => cases hfound
  case isTrue hkey =>
    cases hfound
    have hpositive : 0 < r.kernelsUsed := Nat.zero_lt_of_lt (List.mem_range.mp hprobe)
    have hless : (r.hint + probe) % r.kernelsUsed < r.kernelsUsed := Nat.mod_lt _ hpositive
    refine ⟨h.kept _ ?_, hkey⟩
    rw [Fin.val_ofNat, Nat.mod_eq_of_lt (Nat.lt_of_lt_of_le hless h.used)]
    exact hless

/-- The kernel used has the weights of the key, and only the cache changes. -/
theorem kernelFor_spec (h : Kernels r) (hkeys : ∀ frac frac' : R, (frac == frac') = true →
    ∀ index, r.weight frac index = r.weight frac' index) (frac : R) :
    (r.kernelFor frac).1.weights = .ofFn (r.weight frac) ∧
      (r.kernelFor frac).1.weightSum =
        (List.finRange laneFilterTaps).foldl (· + r.weight frac ·) 0.0 ∧
      Kernels (r.kernelFor frac).2 ∧
      (r.kernelFor frac).2 = { r with
        kernels := (r.kernelFor frac).2.kernels
        kernelsUsed := (r.kernelFor frac).2.kernelsUsed
        nextVictim := (r.kernelFor frac).2.nextVictim
        hint := (r.kernelFor frac).2.hint
        kernelMisses := (r.kernelFor frac).2.kernelMisses } := by
  unfold kernelFor
  split
  case h_1 index hfound =>
    obtain ⟨hkernel, hkey⟩ := h.of_findKernel hfound
    have hweights : r.weight r.kernels[index].frac = r.weight frac :=
      funext (hkeys _ _ hkey)
    refine ⟨?_, ?_, ⟨h.used, h.victim, h.kept⟩, rfl⟩
    · rw [hkernel, LaneFilter.computeKernel, hweights]
    · rw [hkernel, LaneFilter.computeKernel, hweights]
  case h_2 hmiss =>
    refine ⟨rfl, rfl, ⟨?_, ?_, fun index hindex => ?_⟩, rfl⟩
    · dsimp only
      split
      · omega
      · exact h.used
    · dsimp only
      split
      · exact h.victim
      · exact Nat.mod_lt _ (by decide)
    · dsimp only at hindex ⊢
      -- The new kernel, or one that was there.
      by_cases hnew : index.val = if r.kernelsUsed < kernelCacheEntries then r.kernelsUsed
          else r.nextVictim
      · have hsame : (r.kernels.setIfInBounds (if r.kernelsUsed < kernelCacheEntries then
            r.kernelsUsed else r.nextVictim) (r.computeKernel frac))[index] =
            r.computeKernel frac := by
          rw [← hnew, Fin.getElem_fin, Vector.getElem_setIfInBounds_self]
        rw [hsame]
        rfl
      · rw [Fin.getElem_fin, Vector.getElem_setIfInBounds_ne _ (Ne.symm hnew)]
        refine h.kept index ?_
        split at hindex
        case isTrue hroom =>
          rw [if_pos hroom] at hnew
          omega
        case isFalse => exact hindex

/-! ## The sums -/

theorem neZero_historyCapacity : NeZero historyCapacity := inferInstance

/-- What the history holds of `inputs`: the last of them. -/
def Remembers (r : LaneResampler R) (inputs : List R) : Prop :=
  ∀ j < inputs.length, inputs.length ≤ j + historyCapacity →
    @Ring.item _ _ neZero_historyCapacity r.history j = inputs.getD j 0.0

/-- A loop with two sums that skips some turns is two loops over the others. -/
theorem foldl_skip {α β γ : Type} (items : List α) (skip : α → Prop) [DecidablePred skip]
    (f : β → α → β) (g : γ → α → γ) (a : β) (b : γ) :
    items.foldl (fun (sums : β × γ) item =>
        if skip item then (sums.1, sums.2) else (f sums.1 item, g sums.2 item)) (a, b) =
      ((items.filter fun item => !skip item).foldl f a,
        (items.filter fun item => !skip item).foldl g b) := by
  induction items generalizing a b with
  | nil => rfl
  | cons item items ih =>
    rw [List.foldl_cons]
    by_cases hskip : skip item
    · rw [if_pos hskip, List.filter_cons_of_neg (by simpa using hskip)]
      exact ih a b
    · rw [if_neg hskip, List.filter_cons_of_pos (by simpa using hskip)]
      exact ih _ _

theorem toUnsignedIndex_eq {index : Int} (hnonneg : 0 ≤ index) (hle : index ≤ maxSampleIndex) :
    toUnsignedIndex index = index.toNat := by
  unfold toUnsignedIndex
  rw [min_eq_left hle, max_eq_right hnonneg]

theorem toSignedIndex_eq {count : Nat} (hle : count ≤ maxSampleCount) :
    toSignedIndex count = count := by
  unfold toSignedIndex
  omega

/-- Inputs around the center that are still in the history. -/
theorem item_eq {inputs : List R} (hremembers : Remembers r inputs) {center : Int}
    (hnear : (inputs.length : Int) ≤ center + lastTap + 1) {index : Fin laneFilterTaps}
    (htap : index ∈ LaneFilter.tapsOf inputs.length center) :
    Ring.item r.history (center + firstTap + index).toNat =
      inputs.getD (center + firstTap + index).toNat 0.0 := by
  have hmem := of_decide_eq_true (List.mem_filter.mp htap).2
  rw [firstTap_eq] at hmem ⊢
  rw [lastTap_eq] at hnear
  exact hremembers _ (by omega) (by unfold historyCapacity; omega)

theorem edgeValue_eq {inputs : List R} {kernel : Kernel R} {frac : R}
    (hremembers : Remembers r inputs) (hpushed : r.pushed = inputs.length)
    (hfew : inputs.length ≤ maxSampleCount)
    (hnear : (inputs.length : Int) ≤ r.center + lastTap + 1)
    (hweights : kernel.weights = .ofFn (r.weight frac)) :
    r.edgeValue kernel (r.center + firstTap) = r.valueAt inputs r.center frac := by
  have hskip : (List.finRange laneFilterTaps).filter (fun (index : Fin laneFilterTaps) =>
      !decide (r.center + firstTap + index < 0 ∨
        (inputs.length : Int) ≤ r.center + firstTap + index)) =
      LaneFilter.tapsOf inputs.length r.center := by
    refine List.filter_congr fun index _ => ?_
    rw [← decide_not, decide_eq_decide]
    omega
  have hloop := foldl_skip (List.finRange laneFilterTaps)
    (fun index => r.center + firstTap + index < 0 ∨
      (inputs.length : Int) ≤ r.center + firstTap + index)
    (fun sum index => sum + Ring.item r.history (toUnsignedIndex (r.center + firstTap + index)) *
      kernel.weights[index])
    (fun sum index => sum + kernel.weights[index]) (0.0 : R) (0.0 : R)
  have hitem (index : Fin laneFilterTaps) : kernel.weights[index] = r.weight frac index := by
    rw [hweights, Fin.getElem_fin, Vector.getElem_ofFn]
  unfold edgeValue LaneFilter.valueAt
  rw [hpushed, toSignedIndex_eq hfew]
  dsimp only
  rw [hskip] at hloop
  refine (congrArg (fun sums : R × R => normalized sums.2 sums.1) hloop).trans ?_
  dsimp only
  congr 1
  · exact List.foldl_ext _ _ _ fun sum index _ => congrArg (sum + ·) (hitem index)
  · refine List.foldl_ext _ _ _ fun sum index htap => ?_
    have hmem := of_decide_eq_true (List.mem_filter.mp htap).2
    have hlimit : r.center + firstTap + index ≤ maxSampleIndex := by
      unfold maxSampleIndex
      omega
    rw [hitem, toUnsignedIndex_eq hmem.1 hlimit, item_eq hremembers hnear htap]

/-- With all taps there, the path without branches computes the same. -/
theorem interiorValue_eq {inputs : List R} {kernel : Kernel R} {frac : R}
    (hremembers : Remembers r inputs) (hfew : inputs.length ≤ maxSampleCount)
    (hnear : (inputs.length : Int) ≤ r.center + lastTap + 1)
    (hweights : kernel.weights = .ofFn (r.weight frac))
    (hsum : kernel.weightSum =
      (List.finRange laneFilterTaps).foldl (· + r.weight frac ·) 0.0)
    (hfirst : 0 ≤ r.center + firstTap) (hlast : r.center + lastTap < inputs.length) :
    r.interiorValue kernel (toUnsignedIndex (r.center + firstTap)) =
      r.valueAt inputs r.center frac := by
  rw [firstTap_eq] at hfirst
  rw [lastTap_eq] at hlast
  have htaps : LaneFilter.tapsOf inputs.length r.center = List.finRange laneFilterTaps := by
    refine List.filter_eq_self.mpr fun index _ => decide_eq_true ?_
    have hindex : (index : Nat) < 192 := index.isLt
    rw [firstTap_eq]
    omega
  have hlimit : r.center + firstTap ≤ maxSampleIndex := by
    rw [firstTap_eq]
    unfold maxSampleIndex
    omega
  have hturn (sum : R) (index : Fin laneFilterTaps) (htap : index ∈ List.finRange laneFilterTaps) :
      sum + Ring.item r.history (toUnsignedIndex (r.center + firstTap) + index) *
          kernel.weights[index] =
        sum + inputs.getD (r.center + firstTap + index).toNat 0.0 * r.weight frac index := by
    rw [← htaps] at htap
    have hslot : toUnsignedIndex (r.center + firstTap) + index =
        (r.center + firstTap + index).toNat := by
      rw [toUnsignedIndex_eq (by rw [firstTap_eq]; omega) hlimit, firstTap_eq]
      omega
    rw [hslot, item_eq hremembers hnear htap, hweights, Fin.getElem_fin, Vector.getElem_ofFn]
  unfold interiorValue LaneFilter.valueAt
  rw [htaps, hsum]
  exact congrArg (normalized _) (List.foldl_ext _ _ (0.0 : R) hturn)

/-! ## Runs -/

/-- The state after `inputs` and `outputs`. -/
structure Tracks (filter : LaneFilter R) (r : LaneResampler R) (inputs : List R)
    (outputs : List Int16) : Prop where
  same : r.toLaneFilter = filter
  configured : r.configured = true
  pushed : r.pushed = inputs.length
  few : inputs.length ≤ maxInputs
  remembers : Remembers r inputs
  kernels : Kernels r
  produced : r.produced = outputs.length
  bounded : outputs.length ≤ maxSampleCount
  position : r.position = filter.positionOf outputs.length
  center : r.center = filter.centerOf outputs.length
  near : (inputs.length : Int) ≤ r.center + lastTap + 1
  outputs_eq : outputs = (List.range outputs.length).map (filter.outputAt inputs)
  waiting : r.finished = false →
    ∀ i < outputs.length, filter.centerOf i + lastTap < inputs.length
  ended : r.finished = true →
    r.outputCount = filter.countOf inputs.length ∧ outputs.length ≤ r.outputCount

theorem maxInputs_le : maxInputs ≤ maxSampleCount := by decide

variable {inputs : List R} {outputs : List Int16}

theorem tracks_configure {input output : Nat} {gain : R}
    (hok : (r.configure input output gain).1.isOk = true)
    (regular : (LaneFilter.of input output gain : LaneFilter R).Regular) :
    Tracks (.of input output gain) (r.configure input output gain).2 [] [] := by
  unfold configure at hok ⊢
  split at hok
  · cases hok
  case isFalse hvalid =>
    rw [if_neg hvalid]
    exact {
      same := rfl
      configured := rfl
      pushed := rfl
      few := Nat.zero_le _
      remembers := fun j hj => absurd hj (Nat.not_lt_zero j)
      kernels := ⟨Nat.zero_le _, Nat.zero_lt_succ _,
        fun _ hindex => absurd hindex (Nat.not_lt_zero _)⟩
      produced := rfl
      bounded := Nat.zero_le _
      position := rfl
      center := rfl
      near := by
        show (0 : Int) ≤ LaneFilter.centerOf (.of input output gain) 0 + lastTap + 1
        rw [regular.start]
        decide
      outputs_eq := rfl
      waiting := fun _ i hi => absurd hi (Nat.not_lt_zero i)
      ended := nofun }

theorem Tracks.ready_iff (h : Tracks filter r inputs outputs) :
    r.ready = true ↔ if r.finished then outputs.length < r.outputCount
      else filter.centerOf outputs.length + lastTap < inputs.length := by
  have hfew := Nat.le_trans h.few maxInputs_le
  unfold ready
  rw [h.configured, h.pushed, h.center, h.produced, toSignedIndex_eq hfew]
  cases r.finished with
  | true => exact decide_eq_true_iff
  | false => exact decide_eq_true_iff

theorem push_cases (r : LaneResampler R) (sample : R) :
    ((r.push sample).1.isOk = false ∧ (r.push sample).2 = r) ∨
      (r.finished = false ∧ r.ready = false ∧ isFinite sample = true ∧ r.pushed < maxInputs ∧
        r.push sample = (.success, { r with
          history := r.history.setIfInBounds (r.pushed % historyCapacity) sample
          pushed := r.pushed + 1 })) := by
  unfold push
  split
  · exact .inl ⟨rfl, rfl⟩
  case isFalse hopen =>
    split
    · exact .inl ⟨rfl, rfl⟩
    case isFalse hready =>
      split
      · exact .inl ⟨rfl, rfl⟩
      case isFalse hfinite =>
        split
        · exact .inl ⟨rfl, rfl⟩
        case isFalse hfull =>
          rw [Bool.or_eq_true, not_or, Bool.not_eq_true, Bool.not_eq_true] at hopen
          rw [Bool.not_eq_true', Bool.not_eq_false] at hfinite
          exact .inr ⟨hopen.2, Bool.not_eq_true _ ▸ hready, hfinite, Nat.not_le.mp hfull, rfl⟩

/-- The history after a push: the oldest input is overwritten. -/
theorem Remembers.push (h : Remembers r inputs) (hpushed : r.pushed = inputs.length) (sample : R) :
    Remembers { r with
      history := r.history.setIfInBounds (r.pushed % historyCapacity) sample
      pushed := r.pushed + 1 } (inputs ++ [sample]) := by
  intro j hj hold
  rw [List.length_append, List.length_singleton] at hj hold
  show Ring.item (r.history.setIfInBounds (r.pushed % historyCapacity) sample) j = _
  rw [hpushed]
  obtain hlast | hless := Nat.eq_or_lt_of_le (Nat.lt_succ_iff.mp hj)
  · rw [hlast, Ring.item_store, List.getD_append_right _ _ _ _ (Nat.le_refl _), Nat.sub_self]
    rfl
  · have hslot : j % historyCapacity ≠ inputs.length % historyCapacity := by
      unfold historyCapacity at hold ⊢
      omega
    rw [Ring.item_store_ne _ hslot, List.getD_append _ _ _ _ hless]
    exact h j hless (by omega)

theorem Tracks.push (h : Tracks filter r inputs outputs) {sample : R}
    (hok : (r.push sample).1.isOk = true) :
    Tracks filter (r.push sample).2 (inputs ++ [sample]) outputs := by
  obtain ⟨hrefused, -⟩ | ⟨hfinished, hready, -, hroom, hpush⟩ := r.push_cases sample
  · exact absurd (hok.symm.trans hrefused) nofun
  have hlength : (inputs ++ [sample]).length = inputs.length + 1 := List.length_append
  have hlater : ¬ filter.centerOf outputs.length + lastTap < inputs.length := by
    have hwaits := mt h.ready_iff.mpr (ne_true_of_eq_false hready)
    rwa [hfinished, if_neg Bool.false_ne_true] at hwaits
  rw [hpush]
  exact {
    same := h.same
    configured := h.configured
    pushed := by rw [hlength, ← h.pushed]
    few := by
      rw [hlength, ← h.pushed]
      exact hroom
    remembers := h.remembers.push h.pushed sample
    kernels := ⟨h.kernels.used, h.kernels.victim, h.kernels.kept⟩
    produced := h.produced
    bounded := h.bounded
    position := h.position
    center := h.center
    near := by
      rw [hlength]
      show _ ≤ r.center + lastTap + 1
      rw [h.center]
      omega
    outputs_eq := by
      conv_lhs => rw [h.outputs_eq]
      refine List.map_congr_left fun i hi => ?_
      exact (filter.outputAt_append [sample] (h.waiting hfinished i (List.mem_range.mp hi))).symm
    waiting := fun _ i hi => by
      have := h.waiting hfinished i hi
      rw [hlength]
      omega
    ended := fun hended => absurd (hended.symm.trans hfinished) nofun }

theorem Tracks.finish (h : Tracks filter r inputs outputs) (regular : filter.Regular) :
    Tracks filter r.finish inputs outputs := by
  unfold LaneResampler.finish
  split
  · exact h
  case isFalse hfinished =>
    have hcount : r.countOf r.pushed = filter.countOf inputs.length := by rw [h.same, h.pushed]
    exact { h with
      remembers := h.remembers
      kernels := ⟨h.kernels.used, h.kernels.victim, h.kernels.kept⟩
      waiting := nofun
      ended := fun _ => by
        refine ⟨hcount, Nat.not_lt.mp fun hmore => ?_⟩
        -- Every output taken is among those of the whole input.
        have hmore' : filter.countOf inputs.length < outputs.length := hcount ▸ hmore
        have hlast := h.waiting (Bool.not_eq_true _ ▸ hfinished) (outputs.length - 1) (by omega)
        have hbounded := h.bounded
        have := regular.early (outputs.length - 1) (by omega) _ h.few hlast
        omega }

theorem Tracks.interior_iff (h : Tracks filter r inputs outputs) :
    r.interior = true ↔
      0 ≤ r.center + firstTap ∧ r.center + lastTap < inputs.length := by
  unfold interior
  rw [h.pushed, toSignedIndex_eq (Nat.le_trans h.few maxInputs_le), Bool.and_eq_true,
    decide_eq_true_iff, decide_eq_true_iff]

/-- The sum of the next output, on either path. -/
theorem Tracks.value_eq (h : Tracks filter r inputs outputs) {kernel : Kernel R} {frac : R}
    (hweights : kernel.weights = .ofFn (r.weight frac))
    (hsum : kernel.weightSum =
      (List.finRange laneFilterTaps).foldl (· + r.weight frac ·) 0.0) :
    (if r.interior then r.interiorValue kernel (toUnsignedIndex (r.center + firstTap))
      else r.edgeValue kernel (r.center + firstTap)) = r.valueAt inputs r.center frac := by
  have hfew := Nat.le_trans h.few maxInputs_le
  split
  case isTrue hinterior =>
    obtain ⟨hfirst, hlast⟩ := h.interior_iff.mp hinterior
    exact interiorValue_eq h.remembers hfew h.near hweights hsum hfirst hlast
  case isFalse => exact edgeValue_eq h.remembers h.pushed hfew h.near hweights

theorem Tracks.ready_lt (h : Tracks filter r inputs outputs) (regular : filter.Regular)
    (hready : r.ready = true) : outputs.length < filter.countOf inputs.length := by
  have hiff := h.ready_iff.mp hready
  split at hiff
  case isTrue hfinished => exact (h.ended hfinished).1 ▸ hiff
  case isFalse => exact regular.early _ h.bounded _ h.few hiff

theorem Tracks.next (h : Tracks filter r inputs outputs) (regular : filter.Regular)
    (hready : r.ready = true) :
    r.next.1 = .ok (filter.outputAt inputs outputs.length) ∧
      Tracks filter r.next.2 inputs (outputs ++ [filter.outputAt inputs outputs.length]) := by
  have hkeys : ∀ frac frac' : R, (frac == frac') = true →
      ∀ index, r.weight frac index = r.weight frac' index := by
    rw [h.same]
    exact regular.keys
  obtain ⟨hweights, hsum, hkernels, hcache⟩ :=
    kernelFor_spec h.kernels hkeys (r.position - ofInt r.center)
  unfold LaneResampler.next
  rw [hready, if_neg (show ¬ (!true) = true from nofun)]
  dsimp only
  generalize r.kernelFor (r.position - ofInt r.center) = answer at hweights hsum hkernels hcache
  obtain ⟨kernel, r'⟩ := answer
  dsimp only at hweights hsum hkernels hcache ⊢
  have hsame : r'.toLaneFilter = r.toLaneFilter := by rw [hcache]
  have hcenter : r'.center = r.center := by rw [hcache]
  have h' : Tracks filter r' inputs outputs := by
    rw [hcache] at hkernels ⊢
    exact { h with kernels := hkernels, remembers := h.remembers }
  have hvalue := h'.value_eq (hsame ▸ hweights) (hsame ▸ hsum)
  rw [hcenter] at hvalue
  have hoffset : r.position - ofInt r.center = filter.positionOf outputs.length -
      ofInt (filter.centerOf outputs.length) := by rw [h.position, h.center]
  have houtput : unitToPcm16Rounded (r'.valueAt inputs r.center (r.position - ofInt r.center) *
      r'.gain) = filter.outputAt inputs outputs.length := by
    rw [h'.same, hoffset, h.center]
    rfl
  rw [hvalue, houtput]
  have hlength (sample : Int16) : (outputs ++ [sample]).length = outputs.length + 1 :=
    List.length_append
  have hmore := h.ready_lt regular hready
  have hlimit := filter.countOf_le inputs.length
  refine ⟨rfl, ?_⟩
  exact {
    same := h'.same
    configured := h'.configured
    pushed := h'.pushed
    few := h'.few
    remembers := h'.remembers
    kernels := ⟨h'.kernels.used, h'.kernels.victim, h'.kernels.kept⟩
    produced := by
      show r'.produced + 1 = _
      rw [hlength, h'.produced]
    bounded := by
      rw [hlength]
      omega
    position := by
      show r'.positionOf (r'.produced + 1) = _
      rw [hlength, h'.same, h'.produced]
    center := by
      show r'.centerOf (r'.produced + 1) = _
      rw [hlength, h'.same, h'.produced]
    near := by
      show (inputs.length : Int) ≤ r'.centerOf (r'.produced + 1) + lastTap + 1
      have hnear := h'.near
      have hforward := regular.centers outputs.length h.bounded
      rw [h'.center] at hnear
      rw [h'.same, h'.produced]
      omega
    outputs_eq := by
      rw [hlength, List.range_succ, List.map_append, ← h.outputs_eq]
      rfl
    waiting := fun hfinished i hi => by
      rw [hlength] at hi
      obtain hlast | hless := Nat.eq_or_lt_of_le (Nat.lt_succ_iff.mp hi)
      · have hfinished' : r'.finished = false := hfinished
        have hready' : r'.ready = true := by rw [← hready, hcache]; rfl
        have hiff := h'.ready_iff.mp hready'
        rw [hfinished', if_neg Bool.false_ne_true] at hiff
        rwa [hlast]
      · exact h'.waiting hfinished i hless
    ended := fun hfinished => by
      have hfinished' : r'.finished = true := hfinished
      have hready' : r'.ready = true := by rw [← hready, hcache]; rfl
      have hiff := h'.ready_iff.mp hready'
      rw [hfinished', if_pos rfl] at hiff
      rw [hlength]
      exact ⟨(h'.ended hfinished').1, hiff⟩ }

/-- The outputs taken are the first of the whole input's. -/
theorem Tracks.isPrefix (h : Tracks filter r inputs outputs) (regular : filter.Regular)
    (later : List R) (hlater : r.finished = true → later = [])
    (hfew : (inputs ++ later).length ≤ maxInputs) :
    outputs = (filter.outputsOf (inputs ++ later)).take outputs.length := by
  have hcount : outputs.length ≤ filter.countOf (inputs ++ later).length ∧
      ∀ i < outputs.length, filter.outputAt (inputs ++ later) i = filter.outputAt inputs i := by
    cases hfinished : r.finished with
    | true =>
      obtain ⟨hended, hle⟩ := h.ended hfinished
      rw [hlater hfinished, List.append_nil]
      exact ⟨hended ▸ hle, fun _ _ => rfl⟩
    | false =>
      have hwaiting := h.waiting hfinished
      refine ⟨?_, fun i hi => filter.outputAt_append later (hwaiting i hi)⟩
      refine Nat.not_lt.mp fun hmore => ?_
      have hlast := hwaiting (outputs.length - 1) (by omega)
      have hlength : (inputs ++ later).length = inputs.length + later.length := List.length_append
      have hbounded := h.bounded
      have := regular.early (outputs.length - 1) (by omega) _ hfew (by rw [hlength]; omega)
      omega
  unfold LaneFilter.outputsOf
  rw [← List.map_take, List.take_range, Nat.min_eq_left hcount.1]
  conv_lhs => rw [h.outputs_eq]
  exact List.map_congr_left fun i hi => (hcount.2 i (List.mem_range.mp hi)).symm

/-! ## Schedules -/

inductive Call (R : Type)
  | push (sample : R)
  | next
  | finish

/-- A resampler with the inputs it has taken and the outputs it has given. -/
structure Run (R : Type) where
  resampler : LaneResampler R
  inputs : List R := []
  outputs : List Int16 := []

/-- A call; one that is refused is seen in the resampler only. -/
def Run.call (run : Run R) : Call R → Run R
  | .push sample =>
    match run.resampler.push sample with
    | (status, resampler) =>
      { run with
        resampler
        inputs := if status.isOk then run.inputs ++ [sample] else run.inputs }
  | .next =>
    match run.resampler.next with
    | (.ok sample, resampler) => { run with resampler, outputs := run.outputs ++ [sample] }
    | (.error _, resampler) => { run with resampler }
  | .finish => { run with resampler := run.resampler.finish }

theorem Tracks.call {run : Run R} (h : Tracks filter run.resampler run.inputs run.outputs)
    (regular : filter.Regular) (call : Call R) :
    Tracks filter (run.call call).resampler (run.call call).inputs (run.call call).outputs := by
  cases call with
  | push sample =>
    show Tracks filter (run.resampler.push sample).2
      (if (run.resampler.push sample).1.isOk then run.inputs ++ [sample] else run.inputs)
      run.outputs
    obtain ⟨hrefused, hsame⟩ | ⟨-, -, -, -, hpush⟩ := run.resampler.push_cases sample
    · rwa [hrefused, hsame]
    · have hok : (run.resampler.push sample).1.isOk = true := by rw [hpush]; rfl
      rw [hok]
      exact h.push hok
  | next =>
    cases hready : run.resampler.ready with
    | true =>
      obtain ⟨hsample, hnext⟩ := h.next regular hready
      unfold Run.call
      generalize run.resampler.next = answer at hsample hnext
      obtain ⟨sample, resampler⟩ := answer
      dsimp only at hsample hnext ⊢
      rw [hsample]
      exact hnext
    | false =>
      unfold Run.call LaneResampler.next
      rw [hready]
      exact h
  | finish => exact h.finish regular

theorem Tracks.calls {run : Run R} (h : Tracks filter run.resampler run.inputs run.outputs)
    (regular : filter.Regular) (calls : List (Call R)) :
    Tracks filter (calls.foldl Run.call run).resampler (calls.foldl Run.call run).inputs
      (calls.foldl Run.call run).outputs := by
  induction calls generalizing run with
  | nil => exact h
  | cons call calls ih => exact ih (h.call regular call)

end LaneResampler

end WaveformGenerator.ChannelSim
