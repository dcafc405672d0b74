import WaveformGenerator.Cut.Schedule
import WaveformGenerator.Lib.Text

/-!
# How CUT entries are spelt (`common/cut_schedule.hpp`)

One to sixteen entries `<offset>:<length>:<drop|zero>` separated by commas, each number canonical
unsigned decimal of at most 32 bits.
-/

namespace WaveformGenerator.Cut

open Text

def badSyntax : Status := ⟨.invalidArgument, "BAD_REQUEST"⟩
def tooManyEntries : Status := ⟨.bufferTooSmall, "CUT_TOO_MANY"⟩

def CutList.push (list : CutList) (entry : CutEntry) : Result CutList :=
  if h : list.entries.length < maxEntries then
    .ok ⟨list.entries ++ [entry], by rw [List.length_append, List.length_singleton]; exact h⟩
  else
    .error tooManyEntries

/-- The loop of `parse_uint32`: it stops at the first value past 32 bits, so its 64-bit value never
overflows. -/
def parseUInt32From (value : Nat) : List Char → Result UInt32
  | [] => .ok (.ofNat value)
  | c :: text =>
    match digitValue c with
    | none => .error badSyntax
    | some digit =>
      let value := value * 10 + digit
      if 2 ^ 32 - 1 < value then .error badSyntax else parseUInt32From value text

def parseUInt32 (text : List Char) : Result UInt32 :=
  if text.isEmpty ∨ (1 < text.length ∧ text.head? = some '0') then .error badSyntax
  else parseUInt32From 0 text

def parseKind (text : List Char) : Result CutKind :=
  if text = "drop".toList then .ok .drop
  else if text = "zero".toList then .ok .zero
  else .error badSyntax

def parseEntry (text : List Char) : Result CutEntry :=
  match splitFirst ':' text with
  | (_, none) => .error badSyntax
  | (first, some rest) =>
    match splitFirst ':' rest with
    | (_, none) => .error badSyntax
    | (second, some third) =>
      match parseUInt32 first, parseUInt32 second, parseKind third with
      | .ok offset, .ok length, .ok kind => .ok { offset, length, kind }
      | _, _, _ => .error badSyntax

/-- The loop of `parse_entries`, for `passes` more entries. -/
def parseEntriesFrom (list : CutList) (rest : List Char) : (passes : Nat) → Result CutList
  | 0 => .error badSyntax
  | passes + 1 =>
    match parseEntry (splitFirst ',' rest).1 with
    | .error _ => .error badSyntax
    | .ok entry =>
      match list.push entry with
      | .error _ => .error badSyntax
      | .ok list =>
        match (splitFirst ',' rest).2 with
        | none => .ok list
        | some rest => parseEntriesFrom list rest passes

/-- One more pass than `maxEntries`, so that a 17th entry is refused by `push`. -/
def parseEntries (text : List Char) : Result CutList :=
  parseEntriesFrom ⟨[], Nat.zero_le _⟩ text (maxEntries + 1)

/-- `CUT` alone clears the pending list. -/
def parseCommand (text : List Char) : Result CutList :=
  if text = "CUT".toList then .ok ⟨[], Nat.zero_le _⟩
  else if ¬"CUT:".toList.isPrefixOf text then .error badSyntax
  else parseEntries (text.drop "CUT:".toList.length)

end WaveformGenerator.Cut
