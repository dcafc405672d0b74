import WaveformGenerator.Common.Status
import WaveformGenerator.Lib.Ring

/-!
# The lane resampler (`channel-sim/core/lane_resampler.cpp`)

A sample is a normalized, windowed sum over 192 inputs, of which the last 256 are kept. The model is
over any number type with the operations of doubles.
-/

namespace WaveformGenerator.ChannelSim

/-- The double operations of the source. -/
class Doubles (R : Type) extends OfScientific R, Add R, Sub R, Mul R, Div R, BEq R where
  lt : R → R → Bool
  le : R → R → Bool
  /-- `as_double` -/
  ofInt : Int → R
  /-- `static_cast<std::int64_t>`, of whole numbers in its range. -/
  toInt : R → Int
  abs : R → R
  floor : R → R
  /-- `std::llround` and `std::lround` -/
  llround : R → Int
  isFinite : R → Bool
  isNan : R → Bool
  sin : R → R
  cos : R → R

open Doubles

variable {R : Type} [Doubles R]

/-! ## Conversions (`core/convert.hpp`, `core/pcm.cpp`) -/

def maxSampleCount : Nat := 1 <<< 56
def maxSampleIndex : Int := maxSampleCount

def toSignedIndex (count : Nat) : Int := min count maxSampleCount

/-- `std::clamp`, then the cast. -/
def toUnsignedIndex (index : Int) : Nat := (max 0 (min index maxSampleIndex)).toNat

def floorToIndex (position : R) : Int :=
  let floored := floor position
  if !Doubles.le 0.0 floored then 0
  else if Doubles.le (ofInt maxSampleIndex) floored then maxSampleIndex
  else toInt floored

def pcm16ToUnit (sample : Int16) : R := ofInt sample.toInt / 32768.0

def unitToPcm16Rounded (value : R) : Int16 :=
  if isNan value then 0
  else
    let scaled := value * 32767.0
    let clamped :=
      if lt scaled (ofInt (-32768)) then ofInt (-32768)
      else if lt 32767.0 scaled then 32767.0
      else scaled
    .ofInt (llround clamped)

/-! ## The filter -/

abbrev laneFilterRadius : Nat := 96
abbrev laneFilterTaps : Nat := 2 * laneFilterRadius
def laneLowestRate : Nat := 8000
def laneHighestRate : Nat := 192000

def pi : R := 3.141592653589793
def lastTap : Int := laneFilterRadius
def firstTap : Int := 1 - lastTap
def maxRateRatio : Nat := laneHighestRate / laneLowestRate
def maxInputs : Nat := maxSampleCount / maxRateRatio

def sinc (value : R) : R :=
  if lt (abs value) 1.0e-12 then 1.0 else sin (pi * value) / (pi * value)

def laneRate (hz : Nat) : Bool := laneLowestRate ≤ hz && hz ≤ laneHighestRate

/-- The members that only `configure` sets. -/
structure LaneFilter (R : Type) where
  inputRate : Nat
  outputRate : Nat
  inputPerOutput : R
  twoCutoff : R
  gain : R

structure Kernel (R : Type) where
  frac : R
  weightSum : R
  weights : Vector R laneFilterTaps

namespace LaneFilter

def of (input output : Nat) (gain : R) : LaneFilter R where
  inputRate := input
  outputRate := output
  inputPerOutput := ofInt input / ofInt output
  twoCutoff :=
    let ratio : R := ofInt output / ofInt input
    2.0 * (0.45 * if lt ratio 1.0 then ratio else 1.0)
  gain

/-- The weight of tap `index` in a turn of the loop of `compute_kernel`. -/
def weight (filter : LaneFilter R) (frac : R) (index : Fin laneFilterTaps) : R :=
  let tap : R := ofInt (index + firstTap)
  let distance := frac - tap
  let normalized := distance / ofInt laneFilterRadius
  if lt (abs normalized) 1.0 then
    let window := 0.42 + 0.5 * cos (pi * normalized) + 0.08 * cos (2.0 * pi * normalized)
    filter.twoCutoff * sinc (filter.twoCutoff * distance) * window
  else 0.0

def computeKernel (filter : LaneFilter R) (frac : R) : Kernel R where
  frac
  weightSum := (List.finRange laneFilterTaps).foldl (· + filter.weight frac ·) 0.0
  weights := .ofFn (filter.weight frac)

/-- `position_` and `center_`, as `locate_next` sets them for output `produced`. -/
def positionOf (filter : LaneFilter R) (produced : Nat) : R :=
  ofInt produced * filter.inputPerOutput

def centerOf (filter : LaneFilter R) (produced : Nat) : Int :=
  floorToIndex (filter.positionOf produced)

/-- `output_count_`, as `finish` sets it after `pushed` inputs. -/
def countOf (filter : LaneFilter R) (pushed : Nat) : Nat :=
  toUnsignedIndex (llround (ofInt pushed * ofInt filter.outputRate / ofInt filter.inputRate : R))

end LaneFilter

/-! ## The resampler -/

abbrev historyCapacity : Nat := 256
abbrev kernelCacheEntries : Nat := 16

structure LaneResampler (R : Type) extends LaneFilter R where
  configured : Bool
  history : Vector R historyCapacity
  pushed : Nat
  produced : Nat
  outputCount : Nat
  finished : Bool
  position : R
  center : Int
  kernels : Vector (Kernel R) kernelCacheEntries
  kernelsUsed : Nat
  nextVictim : Nat
  hint : Nat
  kernelMisses : Nat

namespace LaneResampler

/-- The members' initializers. -/
def initial : LaneResampler R where
  inputRate := 0
  outputRate := 0
  inputPerOutput := 0.0
  twoCutoff := 0.0
  gain := 1.0
  configured := false
  history := .replicate _ 0.0
  pushed := 0
  produced := 0
  outputCount := 0
  finished := false
  position := 0.0
  center := 0
  kernels := .replicate _ ⟨0.0, 0.0, .replicate _ 0.0⟩
  kernelsUsed := 0
  nextVictim := 0
  hint := 0
  kernelMisses := 0

def locateNext (r : LaneResampler R) : LaneResampler R :=
  { r with
    position := r.positionOf r.produced
    center := r.centerOf r.produced }

def restart (r : LaneResampler R) : LaneResampler R :=
  locateNext { r with
    history := .replicate _ 0.0
    pushed := 0
    produced := 0
    outputCount := 0
    finished := false }

def configure (r : LaneResampler R) (input output : Nat) (gain : R) : Status × LaneResampler R :=
  if !laneRate input || !laneRate output || !isFinite gain then
    (⟨.invalidArgument, "resampler rates must be 8000..192000 Hz with a finite gain"⟩,
      { r with configured := false })
  else
    (.success, restart { r with
      toLaneFilter := .of input output gain
      configured := true
      kernelsUsed := 0
      nextVictim := 0
      hint := 0
      kernelMisses := 0 })

def ready (r : LaneResampler R) : Bool :=
  if !r.configured then false
  else if r.finished then r.produced < r.outputCount
  else r.center + lastTap < toSignedIndex r.pushed

def done (r : LaneResampler R) : Bool := r.finished && r.outputCount ≤ r.produced

def push (r : LaneResampler R) (sample : R) : Status × LaneResampler R :=
  if !r.configured || r.finished then
    (⟨.invalidConfiguration, "resampler is not accepting input"⟩, r)
  else if r.ready then (⟨.busy, "resampler has a ready output; take it first"⟩, r)
  else if !isFinite sample then
    (⟨.invalidArgument, "resampler input must be finite (no inf or NaN samples)"⟩, r)
  else if maxInputs ≤ r.pushed then
    (⟨.invalidArgument, "resampler input exceeds 2^56 / 24 samples"⟩, r)
  else
    -- The mask takes the remainder by the capacity.
    (.success, { r with
      history := r.history.setIfInBounds (r.pushed % historyCapacity) sample
      pushed := r.pushed + 1 })

def finish (r : LaneResampler R) : LaneResampler R :=
  if r.finished then r else { r with finished := true, outputCount := r.countOf r.pushed }

/-- The probe of `kernel_for`: the index of the kernel of `frac`. -/
def findKernel (r : LaneResampler R) (frac : R) : Option (Fin kernelCacheEntries) :=
  (List.range r.kernelsUsed).findSome? fun probe =>
    let index := Fin.ofNat kernelCacheEntries ((r.hint + probe) % r.kernelsUsed)
    if r.kernels[index].frac == frac then some index else none

def kernelFor (r : LaneResampler R) (frac : R) : Kernel R × LaneResampler R :=
  match r.findKernel frac with
  | some index => (r.kernels[index], { r with hint := index + 1 })
  | none =>
    let index := if r.kernelsUsed < kernelCacheEntries then r.kernelsUsed else r.nextVictim
    let kernel := r.computeKernel frac
    (kernel, { r with
      kernels := r.kernels.setIfInBounds index kernel
      kernelsUsed :=
        if r.kernelsUsed < kernelCacheEntries then r.kernelsUsed + 1 else r.kernelsUsed
      nextVictim :=
        if r.kernelsUsed < kernelCacheEntries then r.nextVictim
        else (r.nextVictim + 1) % kernelCacheEntries
      kernelMisses := r.kernelMisses + 1
      hint := index + 1 })

def normalized (weightSum weightedSum : R) : R :=
  if lt 1.0e-12 (abs weightSum) then weightedSum / weightSum else 0.0

def interiorValue (r : LaneResampler R) (kernel : Kernel R) (first : Nat) : R :=
  normalized kernel.weightSum ((List.finRange laneFilterTaps).foldl
    (fun sum (index : Fin laneFilterTaps) =>
      sum + Ring.item r.history (first + index) * kernel.weights[index]) 0.0)

def edgeValue (r : LaneResampler R) (kernel : Kernel R) (first : Int) : R :=
  let available := toSignedIndex r.pushed
  let (weightedSum, weightSum) := (List.finRange laneFilterTaps).foldl
    (fun (weightedSum, weightSum) (index : Fin laneFilterTaps) =>
      let source := first + index
      if source < 0 ∨ available ≤ source then (weightedSum, weightSum)
      else
        (weightedSum + Ring.item r.history (toUnsignedIndex source) * kernel.weights[index],
          weightSum + kernel.weights[index])) ((0.0 : R), (0.0 : R))
  normalized weightSum weightedSum

/-- Whether `next` takes the path without branches. -/
def interior (r : LaneResampler R) : Bool :=
  0 ≤ r.center + firstTap && r.center + lastTap < toSignedIndex r.pushed

def next (r : LaneResampler R) : Result Int16 × LaneResampler R :=
  if !r.ready then (.error ⟨.invalidConfiguration, "no resampler output is ready"⟩, r)
  else
    let frac := r.position - ofInt r.center
    let first := r.center + firstTap
    match r.kernelFor frac with
    | (kernel, r) =>
      let value :=
        if r.interior then r.interiorValue kernel (toUnsignedIndex first)
        else r.edgeValue kernel first
      (.ok (unitToPcm16Rounded (value * r.gain)), locateNext { r with produced := r.produced + 1 })

end LaneResampler

end WaveformGenerator.ChannelSim
