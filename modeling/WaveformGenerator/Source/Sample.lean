import Mathlib.Data.Rat.Floor

/-!
# Samples (`common/pcm24.hpp`, `signal-lab/src/det_math.cpp`)

An encoder's sample is an IEEE single, here by its bits; a finite one is a rational, and what is
made of it is exact.
-/

namespace WaveformGenerator.Source

/-- The bits of a `float`. -/
structure Binary32 where
  bits : UInt32
  deriving DecidableEq, Repr

namespace Binary32

def exponent (x : Binary32) : Nat := (x.bits >>> 23 &&& 0xFF).toNat

def fraction (x : Binary32) : Nat := (x.bits &&& 0x7FFFFF).toNat

def isFinite (x : Binary32) : Bool := x.exponent ≠ 255

/-- The value of a finite sample. -/
def value (x : Binary32) : ℚ :=
  let magnitude : ℚ :=
    if x.exponent = 0 then x.fraction / 2 ^ 149
    else (2 ^ 23 + x.fraction) * 2 ^ x.exponent / 2 ^ 150
  if x.bits >>> 31 = 0 then magnitude else -magnitude

/-- `0.0F`. -/
def zero : Binary32 := ⟨0⟩

end Binary32

def pcm24Min : Int := -8388608
def pcm24Max : Int := 8388607

/-- `round_half_even`. -/
def roundHalfEven (value : ℚ) : Int :=
  let floored := ⌊value⌋
  let fraction := value - floored
  if fraction < 1 / 2 then
    floored
  else if fraction > 1 / 2 then
    floored + 1
  else if floored % 2 = 0 then
    floored
  else
    floored + 1

/-- `quantize_pcm24` of a finite sample. -/
def quantizePcm24 (sample : Binary32) : Int :=
  let rounded := roundHalfEven (sample.value * 8388608)
  if rounded < pcm24Min then pcm24Min else if rounded > pcm24Max then pcm24Max else rounded

/-- The PCM16 sample of the legacy encoding. -/
def quantizePcm16 (sample : Binary32) : Int :=
  max (-32768) (min 32767 (roundHalfEven (sample.value * 32768)))

/-- `write_pcm24_le`. -/
def writePcm24Le (sample : Int) : List UInt8 :=
  let value := UInt32.ofInt sample &&& 0x00FFFFFF
  [value.toUInt8, (value >>> 8).toUInt8, (value >>> 16).toUInt8]

@[simp] theorem length_writePcm24Le (sample : Int) : (writePcm24Le sample).length = 3 := rfl

example : quantizePcm24 ⟨0x3F000000⟩ = 4194304 ∧ quantizePcm24 ⟨0xBF800000⟩ = -8388608 ∧
    quantizePcm24 ⟨0x3F800000⟩ = 8388607 ∧ quantizePcm24 ⟨0x33800000⟩ = 0 := by decide +kernel

end WaveformGenerator.Source
