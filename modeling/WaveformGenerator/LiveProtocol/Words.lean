import Mathlib.Data.UInt
import WaveformGenerator.Common.Status
import WaveformGenerator.Lib.Text
import WaveformGenerator.PlaylistFile.Line
import WaveformGenerator.SignalLab.Det

/-!
# Words of the live protocol (`common/live_protocol.cpp`)

The fields of a command and how a command is cut into words. A number has one spelling: decimal
digits, without a zero in front. A refusal is `BAD_REQUEST`, whatever refused.
-/

namespace WaveformGenerator.LiveProtocol

open PlaylistFile (isNameChar isNameStem)
open SignalLab (Det)
open Text

def badRequest : Status := ⟨.invalidArgument, "BAD_REQUEST"⟩

/-- `UINT64_MAX`. -/
def uint64Max : UInt64 := 0xFFFFFFFFFFFFFFFF

/-- The loop of `uint64`. -/
def uint64From (value : UInt64) : List Char → Result UInt64
  | [] => .ok value
  | c :: text =>
    if c < '0' || '9' < c then
      .error badRequest
    else
      let digit : UInt64 := .ofNat (c.toNat - '0'.toNat)
      if (uint64Max - digit) / 10 < value then
        .error badRequest
      else
        uint64From (value * 10 + digit) text

def uint64 (text : List Char) : Result UInt64 :=
  if text.isEmpty || (1 < text.length && text.head? = some '0') then
    .error badRequest
  else
    uint64From 0 text

def filename (text extension : List Char) : Bool :=
  match splitFirst '.' text with
  | (_, none) => false
  | (stem, some rest) =>
    if stem.length = 0 ∨ 8 < stem.length ∨ rest ≠ extension then false else stem.all isNameChar

/-- `playlist::is_playlist_name`: an 8.3 name whose extension may be left out. -/
def isPlaylistName (text : List Char) : Bool :=
  match splitFirst '.' text with
  | (stem, none) => isNameStem stem
  | (stem, some extension) =>
    isNameStem stem && !extension.isEmpty && decide (extension.length ≤ 3) &&
      extension.all isNameChar

def cwOscillatorCapacity : UInt32 := 4

def longestMilliseconds : UInt32 := 3600000

section
variable {R : Type} [Det R]

/-- The loop of `decimal`. -/
def decimalFrom (fraction digit : Bool) (scale value : R) : List Char → Result R
  | [] => if digit then .ok value else .error badRequest
  | c :: text =>
    if c = '.' ∧ !fraction ∧ digit then
      decimalFrom true false scale value text
    else if c < '0' || '9' < c then
      .error badRequest
    else
      let place : R := Det.ofInt (c.toNat - '0'.toNat)
      if fraction then
        let scale := scale * 0.1
        decimalFrom fraction true scale (value + place * scale) text
      else
        decimalFrom fraction true scale (value * 10.0 + place) text

def decimal (text : List Char) : Result R :=
  let negative := text.head? = some '-'
  let text := if negative then text.tail else text
  if text.isEmpty ∨ 16 < text.length then
    .error badRequest
  else
    match decimalFrom false false (1.0 : R) 0.0 text with
    | .error _ => .error badRequest
    | .ok value => .ok (if negative then -value else value)

/-- REFERENCE's level: a decimal in (0, 1]. -/
def referenceLevel (text : List Char) : Result R :=
  match decimal text with
  | .error _ => .error badRequest
  | .ok (level : R) =>
    if !Det.lt 0.0 level || !(Det.lt level 1.0 || level == 1.0) then .error badRequest
    else .ok level

end

def number32 (text : List Char) : Result UInt32 :=
  match uint64 text with
  | .error _ => .error badRequest
  | .ok parsed => if 0xFFFFFFFF < parsed then .error badRequest else .ok parsed.toUInt32

/-- A CW slot's number. -/
def cwSlot (text : List Char) : Result UInt32 :=
  match number32 text with
  | .error _ => .error badRequest
  | .ok slot => if cwOscillatorCapacity ≤ slot then .error badRequest else .ok slot

/-- A fade's duration or a sweep's interval. -/
def milliseconds (text : List Char) : Result UInt32 :=
  match number32 text with
  | .error _ => .error badRequest
  | .ok duration =>
    if duration = 0 ∨ longestMilliseconds < duration then .error badRequest else .ok duration

abbrev Words := List (List Char)

def wordsCapacity : Nat := 8

/-- A word of a command, or an empty one past its last. -/
def Words.word (words : Words) (index : Nat) : List Char := words.getD index []

/-- The loop of `split`, with room for so many more words. -/
def splitFrom (separator : Char) (found : Words) : (room : Nat) → List Char → Result Words
  | _, [] => .error badRequest
  | 0, _ => .error badRequest
  | room + 1, text =>
    match splitFirst separator text with
    | ([], _) => .error badRequest
    | (word, none) => .ok (found ++ [word])
    | (word, some rest) => splitFrom separator (found ++ [word]) room rest

/-- `text` cut at each separator into words, none of them empty. -/
def split (text : List Char) (separator : Char) : Result Words :=
  splitFrom separator [] wordsCapacity text

end WaveformGenerator.LiveProtocol
