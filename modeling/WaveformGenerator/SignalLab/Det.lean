import Mathlib.Data.Int.Basic

/-!
# Deterministic arithmetic of the impairment engine (`signal_lab/det_math.hpp`)

The engine computes in IEEE doubles. Its models are over any number type with the operations of
`Det`, as little of what is proved of them depends on how these round. The random generator and the
digest are integer code and are translated as they stand.
-/

namespace WaveformGenerator.SignalLab

/-- The double operations of the target, with those `det` routines built from them of which only that
they are functions matters. -/
class Det (R : Type) extends OfScientific R, Add R, Sub R, Mul R, Div R, Neg R, BEq R where
  lt : R → R → Bool
  ofInt : Int → R
  toUInt64 : R → UInt64
  toInt : R → Int
  isFinite : R → Bool
  /-- Rounding to single precision, `static_cast<float>`. -/
  single : R → R
  sqrt : R → R
  floor : R → R
  /-- `std::frexp`: the mantissa from a half up to one, and the exponent. -/
  frexp : R → R × Int
  exp : R → R
  sin : R → R
  cos : R → R

namespace Det

variable {R : Type} [Det R]

def ofFrames (frames : UInt64) : R := ofInt frames.toNat

def pi : R := 3.141592653589793238462643383279502884
def twoPi : R := 6.283185307179586476925286766559005768
def ln2 : R := 0.693147180559945309417232121458176568
def ln10 : R := 2.302585092994045684017991454684364208

def roundHalfEven (value : R) : R :=
  let floored := floor value
  let fraction := value - floored
  if lt fraction 0.5 then floored
  else if lt 0.5 fraction then floored + 1.0
  else
    -- Exactly half way: the even neighbour.
    let half := floored * 0.5
    if half == floor half then floored else floored + 1.0

/-- The coefficients of the series of `log` but the first. -/
def logCoefficients : List R :=
  [1.0 / 25.0, 1.0 / 23.0, 1.0 / 21.0, 1.0 / 19.0, 1.0 / 17.0, 1.0 / 15.0, 1.0 / 13.0, 1.0 / 11.0,
    1.0 / 9.0, 1.0 / 7.0, 1.0 / 5.0, 1.0 / 3.0, 1.0]

/-- The logarithm of `mantissa * 2 ^ exponent`, by the series of the mantissa's. -/
def logSeries (mantissa : R) (exponent : Int) : R :=
  let z := (mantissa - 1.0) / (mantissa + 1.0)
  let z2 := z * z
  let term := logCoefficients.foldl (fun term coefficient => term * z2 + coefficient) (1.0 / 27.0)
  ofInt exponent * ln2 + 2.0 * z * term

def log (x : R) : R :=
  if !lt 0.0 x then -1.0e300
  else
    match frexp x with
    | (mantissa, exponent) =>
      if lt mantissa 0.7071067811865476 then logSeries (mantissa * 2.0) (exponent - 1)
      else logSeries mantissa exponent

def frameCountLimit : R := 18446744073709551616.0

/-- Seconds as whole frames, half to even; what is not positive is none, and what the counter does
not hold saturates it. -/
def secondsToFrames (seconds : R) (sampleRateHz : UInt32) : UInt64 :=
  if !lt 0.0 seconds then 0
  else
    let frames := roundHalfEven (seconds * ofInt sampleRateHz.toNat)
    if !isFinite frames || !lt frames frameCountLimit then 0xFFFFFFFFFFFFFFFF else toUInt64 frames

def dbToAmplitude (db : R) : R := exp (db * (ln10 / 20.0))

def pcm24Min : R := -8388608.0
def pcm24Max : R := 8388607.0
def pcm24Scale : R := 8388608.0

/-- A normalized sample as a signed 24-bit code; a NaN is silence. -/
def quantizePcm24 (sample : R) : Int :=
  if !(sample == sample) then 0
  else
    let rounded := roundHalfEven (sample * pcm24Scale)
    toInt (if lt rounded pcm24Min then pcm24Min else if lt pcm24Max rounded then pcm24Max
      else rounded)

end Det

/-! ## PCG32 -/

structure Pcg32 where
  state : UInt64 := 0x853C49E6748FEA9B
  increment : UInt64 := 0xDA3E39CB94B95BDB
  deriving DecidableEq, Repr

namespace Pcg32

/-- One `splitmix64` draw: the value, and the state after it. -/
def splitmix64 (state : UInt64) : UInt64 × UInt64 :=
  let state := state + 0x9E3779B97F4A7C15
  let z := (state ^^^ (state >>> 30)) * 0xBF58476D1CE4E5B9
  let z := (z ^^^ (z >>> 27)) * 0x94D049BB133111EB
  (z ^^^ (z >>> 31), state)

def next (rng : Pcg32) : UInt32 × Pcg32 :=
  let old := rng.state
  let xorshifted := (((old >>> 18) ^^^ old) >>> 27).toUInt32
  let rotation := (old >>> 59).toUInt32
  ((xorshifted >>> rotation) ||| (xorshifted <<< ((32 - rotation) &&& 31)),
    { rng with state := old * 6364136223846793005 + rng.increment })

def reseed (seed : UInt64) (family index : UInt32) : Pcg32 :=
  let mix := seed ^^^ (family.toUInt64 <<< 32) ^^^ (index.toUInt64 * 0x9E3779B97F4A7C15)
  let (initialState, mix) := splitmix64 mix
  let (stream, _) := splitmix64 mix
  let rng := (next { state := 0, increment := (stream <<< 1) ||| 1 }).2
  (next { rng with state := rng.state + initialState }).2

variable {R : Type} [Det R]

/-- Uniform in [0, 1) with 24 significant bits. -/
def uniform (rng : Pcg32) : R × Pcg32 :=
  let (bits, rng) := rng.next
  (Det.ofInt (bits >>> 8).toNat * (1.0 / 16777216.0), rng)

/-- Exponential with the given mean. -/
def exponential (rng : Pcg32) (mean : R) : R × Pcg32 :=
  let (u, rng) : R × Pcg32 := rng.uniform
  (-mean * Det.log (1.0 - u), rng)

end Pcg32

/-! ## The running digest -/

/-- FNV-1a, 64 bits. -/
structure StreamDigest where
  hash : UInt64 := 0xCBF29CE484222325
  deriving DecidableEq, Repr

namespace StreamDigest

def byte (digest : StreamDigest) (value : UInt64) : StreamDigest :=
  { hash := (digest.hash ^^^ value) * 0x100000001B3 }

def updatePcm16 (digest : StreamDigest) (sample : Int16) : StreamDigest :=
  let bits := sample.toUInt16
  (digest.byte (bits &&& 0xFF).toUInt64).byte (bits >>> 8).toUInt64

def updateFloat {R : Type} [Det R] (digest : StreamDigest) (sample : R) : StreamDigest :=
  let bits : UInt32 := UInt32.ofInt (Det.quantizePcm24 sample) &&& 0x00FFFFFF
  ((digest.byte (bits &&& 0xFF).toUInt64).byte ((bits >>> 8) &&& 0xFF).toUInt64).byte
    ((bits >>> 16) &&& 0xFF).toUInt64

end StreamDigest

end WaveformGenerator.SignalLab
