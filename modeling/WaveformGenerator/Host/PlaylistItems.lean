import Mathlib.Data.List.DropRight
import Mathlib.Data.Rat.Defs
import Mathlib.Algebra.Field.Rat
import WaveformGenerator.Host.MakePlaylist

/-!
# Playlist files from JSON items (`host/make_playlist.py`)

`itemsFromJson` joins the fields of each item object into a line, checked as the board checks it,
and `render` joins the lines into a file.
-/

namespace WaveformGenerator.Host

/-! ## Numbers (`decimal`) -/

def signText (negative : Bool) : List Char := if negative then ['-'] else []

/-- A finite `Decimal`. -/
structure Decimal where
  negative : Bool
  coefficient : Nat
  exponent : Int
  deriving DecidableEq, Repr

namespace Decimal

def value (d : Decimal) : Rat := (if d.negative then -1 else 1) * d.coefficient * 10 ^ d.exponent

/-- `str(d)` -/
def text (d : Decimal) : List Char :=
  let digits := Nat.toDigits 10 d.coefficient
  let leftDigits := d.exponent + digits.length
  let dotPlace := if d.exponent ≤ 0 ∧ -6 < leftDigits then leftDigits else 1
  let number :=
    if dotPlace ≤ 0 then "0.".toList ++ .replicate (-dotPlace).toNat '0' ++ digits
    else if digits.length ≤ dotPlace then
      digits ++ .replicate (dotPlace - digits.length).toNat '0'
    else digits.take dotPlace.toNat ++ '.' :: digits.drop dotPlace.toNat
  let scale := leftDigits - dotPlace
  let power :=
    if scale = 0 then []
    else 'E' :: (if scale < 0 then '-' else '+') :: Nat.toDigits 10 scale.natAbs
  signText d.negative ++ number ++ power

end Decimal

/-- A double, by the numeral that `repr` gives it. -/
inductive PyFloat
  | fixed (negative : Bool) (whole : Nat) (decimals : List (Fin 10))
  | scientific (negative : Bool) (lead : Fin 10) (decimals : List (Fin 10)) (exponent : Int)
  | infinite (negative : Bool)
  | nan
  deriving DecidableEq, Repr

namespace PyFloat

def digitsText (digits : List (Fin 10)) : List Char := digits.map fun digit => digit.val.digitChar

def text : PyFloat → List Char
  | fixed negative whole decimals =>
    signText negative ++ Nat.toDigits 10 whole ++ '.' :: digitsText decimals
  | scientific negative lead decimals exponent =>
    let power := Nat.toDigits 10 exponent.natAbs
    signText negative ++ lead.val.digitChar ::
      (if decimals = [] then [] else '.' :: digitsText decimals) ++
        'e' :: (if exponent < 0 then '-' else '+') :: .replicate (2 - power.length) '0' ++ power
  | infinite negative => signText negative ++ "inf".toList
  | nan => "nan".toList

/-- The digits of a numeral, read on from `value`. -/
def digitsFrom (value : Nat) (digits : List (Fin 10)) : Nat :=
  digits.foldl (fun value digit => value * 10 + digit) value

/-- `Decimal(repr(value))`; none of an infinity or NaN. -/
def decimal : PyFloat → Option Decimal
  | fixed negative whole decimals =>
    some ⟨negative, digitsFrom whole decimals, -decimals.length⟩
  | scientific negative lead decimals exponent =>
    some ⟨negative, digitsFrom lead decimals, exponent - decimals.length⟩
  | infinite _ | nan => none

end PyFloat

/-! ## Fields -/

/-- A JSON value as Python holds it; an array or an object by its `str`. -/
inductive JsonValue
  | null
  | bool (value : Bool)
  | int (value : Int)
  | float (value : PyFloat)
  | str (text : List Char)
  | composite (text : List Char)
  deriving DecidableEq, Repr

namespace JsonValue

/-- `str(value)` -/
def text : JsonValue → List Char
  | null => "None".toList
  | bool true => "True".toList
  | bool false => "False".toList
  | int value => signText (value < 0) ++ Nat.toDigits 10 value.natAbs
  | float value => value.text
  | str text | composite text => text

/-- `repr(value)` -/
def repr : JsonValue → String
  | str text => pyRepr text
  | value => String.ofList value.text

end JsonValue

/-- What `items_from_json` raises. -/
inductive ItemsError
  | playlist (error : PlaylistError)
  /-- `OverflowError`, of an infinite number of seconds. -/
  | overflow
  deriving DecidableEq, Repr

def formatGap (frames : Nat) : List Char :=
  let milliseconds := frames / framesPerMillisecond
  let rest := milliseconds % 1000
  let seconds := Nat.toDigits 10 (milliseconds / 1000)
  if rest = 0 then seconds
  else
    let digits := Nat.toDigits 10 rest
    (seconds ++ '.' :: (.replicate (3 - digits.length) '0' ++ digits)).rdropWhile (· = '0')

/-- The spelling of a number of seconds. The product is exact here; `decimal` rounds it to 28
digits, more than any number of seconds has that the line's check takes. -/
def secondsFromNumber (code : String) (value : JsonValue) (seconds : Rat) :
    Except ItemsError (List Char) :=
  let milliseconds := seconds * 1000
  if milliseconds.den ≠ 1 ∨ milliseconds < 0 then
    .error (.playlist ⟨code, 0, s!"whole milliseconds, not {value.repr} s"⟩)
  else .ok (formatGap (milliseconds.num.toNat * framesPerMillisecond))

def gapFromJson (code : String) (value : JsonValue) : Except ItemsError (List Char) :=
  match value with
  | .null | .bool _ | .composite _ =>
    .error (.playlist ⟨code, 0, s!"a number of seconds, not {value.repr}"⟩)
  | .str text => .ok text
  | .int number => secondsFromNumber code value number
  | .float number =>
    match number.decimal with
    | some decimal => secondsFromNumber code value decimal.value
    | none =>
      if number = .infinite false then .error .overflow
      else .error (.playlist ⟨code, 0, s!"whole milliseconds, not {value.repr} s"⟩)

def attenuationFromJson (value : JsonValue) : Except ItemsError (List Char) :=
  match value with
  | .null | .bool _ | .composite _ =>
    .error (.playlist ⟨"PLAYLIST_ATT", 0, s!"att is a number of dB, not {value.repr}"⟩)
  | .str text => .ok text
  | .int number => .ok (Decimal.text ⟨number < 0, number.natAbs, 0⟩)
  | .float number =>
    match number with
    | .infinite negative => .ok (signText negative ++ "Infinity".toList)
    | .nan => .ok "NaN".toList
    | number => .ok ((number.decimal.map Decimal.text).getD [])

/-! ## Items -/

def optionKeys : List String := ["label", "scn", "seed", "cut", "att", "dur"]

/-- An element of the JSON array: an object's members by their keys, or another value. -/
inductive Entry
  | object (members : List (String × JsonValue))
  | other
  deriving DecidableEq, Repr

/-- `entry[key]` of a key the entry has. -/
def memberOf (members : List (String × JsonValue)) (key : String) : JsonValue :=
  (members.lookup key).getD .null

/-- An option that is there and not null. -/
def optionOf (members : List (String × JsonValue)) (key : String) : Option JsonValue :=
  (members.lookup key).filter (· ≠ .null)

/-- What an option's word has behind the `=`. -/
def optionText (key : String) (value : JsonValue) : Except ItemsError (List Char) :=
  if key = "att" then attenuationFromJson value
  else if key = "dur" then gapFromJson "PLAYLIST_DUR" value
  else .ok value.text

/-- The loop over the options of an item. -/
def optionWords (members : List (String × JsonValue)) :
    List String → Except ItemsError (List (List Char))
  | [] => .ok []
  | key :: keys =>
    match optionOf members key with
    | none => optionWords members keys
    | some value => do
      let text ← optionText key value
      let words ← optionWords members keys
      return (key.toList ++ '=' :: text) :: words

def itemWords (members : List (String × JsonValue)) : Except ItemsError (List (List Char)) := do
  let gap ← gapFromJson "PLAYLIST_GAP" (memberOf members "gap")
  let options ← optionWords members optionKeys
  return (memberOf members "file").text :: gap :: (memberOf members "route").text :: options

def isItemObject (members : List (String × JsonValue)) : Bool :=
  ["file", "gap", "route"].all (fun key => (members.lookup key).isSome) &&
    members.all fun entry => entry.1 ∈ "file" :: "gap" :: "route" :: optionKeys

def itemLine (number : Nat) : Entry → Except ItemsError (List Char)
  | .object members => do
    if !isItemObject members then throw (notAnItem number)
    let words ← itemWords members
    return [' '].intercalate words
  | .other => .error (notAnItem number)
where
  notAnItem (number : Nat) : ItemsError :=
    .playlist ⟨"PLAYLIST_SYNTAX", number,
      "an item has file, gap and route, and only label, scn, seed, cut, att, dur besides"⟩

/-- The loop of `items_from_json`, from line `number` on. -/
def itemLines (number : Nat) : List Entry → Except ItemsError (List (List Char))
  | [] => .ok []
  | entry :: entries => do
    let line ← itemLine number entry
    let _ ← (parseLine line number true).mapError .playlist
    let lines ← itemLines (number + 1) entries
    return line :: lines

/-- The lines of a JSON list of items; none of a value that is no array. -/
def itemsFromJson : Option (List Entry) → Except ItemsError (List (List Char))
  | none | some [] =>
    .error (.playlist ⟨"PLAYLIST_EMPTY", 0, "the items are a non-empty JSON array"⟩)
  | some entries => itemLines 1 entries

/-- A playlist file; none where a character is not ASCII. -/
def render (lines : List (List Char)) (comment : Option (List Char)) : Option (List UInt8) :=
  let head := match comment with
    | none | some [] => []
    | some comment => ["# ".toList ++ comment]
  let text := ['\n'].intercalate (head ++ lines) ++ ['\n']
  if text.all (·.toNat < 128) then some (text.map fun c => .ofNat c.toNat) else none

end WaveformGenerator.Host
