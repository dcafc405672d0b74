import WaveformGenerator.Common.Status
import WaveformGenerator.Lib.Text

/-!
# Attenuations (`common/attenuation.hpp`)

An item's attenuation is 0 to 40.0 dB in tenths of a decibel, spelt `0` or as a negative level with
at most one decimal.
-/

namespace WaveformGenerator.Attenuation

open Text

def maxTenths : UInt32 := 400
def tenthsPerDb : UInt32 := 10

def badAttenuation : Status := ⟨.invalidArgument, "PLAYLIST_ATT"⟩

/-- Tenths of a decibel below full level. -/
structure Tenths where
  value : UInt32 := 0
  bounded : value ≤ maxTenths := by decide
  deriving DecidableEq

def Tenths.of (tenths : UInt32) : Result Tenths :=
  if h : tenths ≤ maxTenths then .ok ⟨tenths, h⟩ else .error badAttenuation

/-- The loop of `whole_decibels`. -/
def wholeDecibelsFrom (value : UInt32) : List Char → Option UInt32
  | [] => some value
  | c :: text =>
    match digitValue c with
    | none => none
    | some place => wholeDecibelsFrom (value * 10 + .ofNat place) text

def wholeDecibels (text : List Char) : Option UInt32 :=
  if text.isEmpty ∨ 2 < text.length ∨ (1 < text.length ∧ text.head? = some '0') then none
  else wholeDecibelsFrom 0 text

/-- The value of the only digit of `decimals`. -/
def tenthDigit : List Char → Option UInt32
  | [c] => (digitValue c).map .ofNat
  | _ => none

def parse (text : List Char) : Result Tenths :=
  let negative := text.head? = some '-'
  let magnitude := if negative then text.tail else text
  let whole := wholeDecibels (splitFirst '.' magnitude).1
  let decimals := (splitFirst '.' magnitude).2.getD ['0']
  match whole, tenthDigit decimals with
  | some whole, some tenth =>
    let tenths := whole * tenthsPerDb + tenth
    if tenths ≠ 0 ∧ ¬negative then .error badAttenuation else Tenths.of tenths
  | _, _ => .error badAttenuation

end WaveformGenerator.Attenuation
