import WaveformGenerator.Host.CutSchedule
import WaveformGenerator.Lib.Regex
import WaveformGenerator.Lib.Text

/-!
# How the host reads CUT entries (`host/cut_schedule.py`)

`parse_entries` splits at commas and colons and reads each number with a regular expression and
`int`.
-/

namespace WaveformGenerator.Host

open Cut (CutKind)

/-- A character class of a regular expression, by its ranges. -/
def classOf (ranges : List (Char × Char)) (c : Char) : Bool :=
  ranges.any fun range => range.1 ≤ c && c ≤ range.2

/-- `repr` of a text of printable ASCII: in single quotes, or in double ones where the text has a
single quote and no double one; a backslash or the quote itself is escaped. -/
def pyRepr (text : List Char) : String :=
  let single := Char.ofNat 39
  let double := Char.ofNat 34
  let backslash := Char.ofNat 92
  let quote := if text.contains single && !text.contains double then double else single
  let escaped := text.flatMap fun c => if c = quote ∨ c = backslash then [backslash, c] else [c]
  String.ofList (quote :: escaped ++ [quote])

def uint32Max : Nat := 2 ^ 32 - 1

/-- `0|[1-9][0-9]*` -/
def decimalPattern : Regex :=
  .alt (.literal ['0'])
    (.seq (.chars (classOf [('1', '9')]) 1 (some 1)) (.chars (classOf [('0', '9')]) 0 none))

def badRequest (message : String) : CutError := ⟨"BAD_REQUEST", message⟩

def parseUInt32 (token : List Char) : Except CutError Nat :=
  if (decimalPattern.fullmatch token).isNone ∨ uint32Max < Text.decimal token then
    .error (badRequest s!"not a canonical 32-bit decimal: {pyRepr token}")
  else .ok (Text.decimal token)

/-- `KINDS` by their names. -/
def kindOf (name : List Char) : Option CutKind :=
  if name = "drop".toList then some .drop
  else if name = "zero".toList then some .zero
  else none

/-- The body of the loop of `parse_entries`. -/
def parseEntry (item : List Char) : Except CutError CutEntry :=
  match item.splitOn ':' with
  | [offset, length, name] =>
    match kindOf name with
    | none => .error (badRequest s!"an entry is <offset>:<length>:<drop|zero>, not {pyRepr item}")
    | some kind => do
      let offset ← parseUInt32 offset
      let length ← parseUInt32 length
      return { offset, length, kind }
  | _ => .error (badRequest s!"an entry is <offset>:<length>:<drop|zero>, not {pyRepr item}")

def parseEntries (text : List Char) : Except CutError (List CutEntry) :=
  if text.isEmpty then .error (badRequest "no entries")
  else do
    let entries ← (text.splitOn ',').mapM parseEntry
    if maxEntries < entries.length then
      throw (badRequest s!"at most {maxEntries} entries in one CUT")
    return entries

def parseCommand (text : List Char) : Except CutError (List CutEntry) :=
  if text = "CUT".toList then .ok []
  else if ¬"CUT:".toList.isPrefixOf text then
    .error (badRequest "a CUT command is CUT or CUT:<entries>")
  else parseEntries (text.drop "CUT:".toList.length)

end WaveformGenerator.Host
