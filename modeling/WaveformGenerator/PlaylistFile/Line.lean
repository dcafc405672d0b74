import WaveformGenerator.Common.Attenuation
import WaveformGenerator.Cut.Spelling
import WaveformGenerator.Playlist.ResultRing

/-!
# A line of a playlist file (`common/playlist.hpp`)

A line is `<FILE.WAV> <gap_seconds> <USB|CODEC>` and options `key=value`, each at most once; `#`
starts a comment. `parseLine` gives its item, none for a blank or comment line, or the first rule
that refuses it.
-/

namespace WaveformGenerator.PlaylistFile

open Text
open Playlist (Route)

/-- A line of the file, counted from 1; 0 names the file as a whole. -/
abbrev LineNumber := UInt32

/-- At most `capacity` characters. -/
structure FixedText (capacity : Nat) where
  chars : List Char := []
  bounded : chars.length ≤ capacity := by decide
  deriving DecidableEq

/-- The first `capacity` characters of `text`. -/
def FixedText.ofText (capacity : Nat) (text : List Char) : FixedText capacity :=
  ⟨text.take capacity, List.length_take_le ..⟩

def FixedText.isEmpty {capacity : Nat} (text : FixedText capacity) : Bool := text.chars.isEmpty

def nameStemMaxChars : Nat := 8
def nameMaxChars : Nat := 12
def labelMaxChars : Nat := 24
def maxItems : Nat := 256
def maxLineChars : Nat := 511
def framesPerMillisecond : UInt32 := 48
def millisecondsPerSecond : UInt32 := 1000
def maxGapMilliseconds : UInt32 := 3600 * millisecondsPerSecond
def minDurationMilliseconds : UInt32 := 1 * millisecondsPerSecond
def maxDurationMilliseconds : UInt32 := 86400 * millisecondsPerSecond
def gapMaxWholeDigits : Nat := 4
def durationMaxWholeDigits : Nat := 5
def gapMaxDecimals : Nat := 3

/-- The output routes an image offers besides the codec. -/
structure OfferedRoutes where
  usb : Bool := false
  deriving DecidableEq, Repr

def badSyntax : Status := ⟨.invalidArgument, "PLAYLIST_SYNTAX"⟩
def badFile : Status := ⟨.invalidArgument, "PLAYLIST_FILE"⟩
def badGap : Status := ⟨.invalidArgument, "PLAYLIST_GAP"⟩
def badRoute : Status := ⟨.invalidArgument, "PLAYLIST_ROUTE"⟩
def routeUnavailable : Status := ⟨.unavailable, "PLAYLIST_ROUTE_UNAVAILABLE"⟩
def badLabel : Status := ⟨.invalidArgument, "PLAYLIST_LABEL"⟩
def duplicateLabel : Status := ⟨.invalidArgument, "PLAYLIST_LABEL_DUPLICATE"⟩
def badScenario : Status := ⟨.invalidArgument, "PLAYLIST_SCN"⟩
def badSeed : Status := ⟨.invalidArgument, "PLAYLIST_SEED"⟩
def seedWithoutScenario : Status := ⟨.invalidArgument, "PLAYLIST_SEED_NO_SCN"⟩
def badCut : Status := ⟨.invalidArgument, "PLAYLIST_CUT"⟩
def badDuration : Status := ⟨.invalidArgument, "PLAYLIST_DUR"⟩
def lineTooLong : Status := ⟨.bufferTooSmall, "PLAYLIST_LINE_TOO_LONG"⟩
def tooManyItems : Status := ⟨.bufferTooSmall, "PLAYLIST_TOO_MANY"⟩
def noItems : Status := ⟨.invalidArgument, "PLAYLIST_EMPTY"⟩

def emptySchedule : Cut.ValidSchedule := ⟨⟨[], by decide⟩, by decide⟩

/-- One playlist item, as its line gives it. -/
structure Item where
  file : FixedText nameMaxChars := {}
  gap : UInt32 := 0
  route : Route := .codec
  label : FixedText labelMaxChars := {}
  scenario : FixedText nameMaxChars := {}
  seed : Option UInt32 := none
  cuts : Cut.ValidSchedule := emptySchedule
  attenuation : Attenuation.Tenths := {}
  duration : Option UInt32 := none
  line : LineNumber := 0

/-! ## Characters and names -/

def isNameChar (c : Char) : Bool :=
  ('A' ≤ c && c ≤ 'Z') || ('0' ≤ c && c ≤ '9') || c == '_'

def isLabelChar (c : Char) : Bool :=
  isNameChar c || ('a' ≤ c && c ≤ 'z') || c == '-' || c == '.'

/-- Printable ASCII or a tab. -/
def isLineChar (c : Char) : Bool := (' ' ≤ c && c ≤ '~') || c == '\t'

def isNameStem (stem : List Char) : Bool :=
  !stem.isEmpty && decide (stem.length ≤ nameStemMaxChars) && stem.all isNameChar

/-- An upper-case 8.3 name with the extension `extension`. -/
def isShortName (text extension : List Char) : Bool :=
  match splitFirst '.' text with
  | (_, none) => false
  | (stem, some rest) => isNameStem stem && rest == extension

/-! ## Gaps, durations and routes -/

/-- The loop of `fraction_milliseconds`, for `places` more decimals; missing ones are zeros. -/
def fractionFrom (milliseconds : UInt32) : (places : Nat) → List Char → Option UInt32
  | 0, _ => some milliseconds
  | places + 1, [] => fractionFrom (milliseconds * 10 + 0) places []
  | places + 1, c :: fraction =>
    match digitValue c with
    | none => none
    | some digit => fractionFrom (milliseconds * 10 + .ofNat digit) places fraction

/-- Up to three digits after the point, as milliseconds. -/
def fractionMilliseconds (fraction : List Char) : Option UInt32 :=
  if fraction.isEmpty ∨ gapMaxDecimals < fraction.length then none
  else fractionFrom 0 gapMaxDecimals fraction

def parseMilliseconds (text : List Char) (maxWholeDigits : Nat) : Option UInt32 :=
  let whole := (splitFirst '.' text).1
  match Cut.parseUInt32 whole with
  | .error _ => none
  | .ok seconds =>
    if maxWholeDigits < whole.length then none
    else
      let fraction := match (splitFirst '.' text).2 with
        | none => some 0
        | some fraction => fractionMilliseconds fraction
      fraction.map fun fraction => seconds * millisecondsPerSecond + fraction

example : parseMilliseconds "1.25".toList gapMaxWholeDigits = some 1250 := by decide +kernel

def parseGap (text : List Char) : Result UInt32 :=
  match parseMilliseconds text gapMaxWholeDigits with
  | none => .error badGap
  | some milliseconds =>
    if maxGapMilliseconds < milliseconds then .error badGap
    else .ok (milliseconds * framesPerMillisecond)

def parseDuration (text : List Char) : Result UInt32 :=
  match parseMilliseconds text durationMaxWholeDigits with
  | none => .error badDuration
  | some milliseconds =>
    if milliseconds < minDurationMilliseconds ∨ maxDurationMilliseconds < milliseconds then
      .error badDuration
    else .ok (milliseconds * framesPerMillisecond)

def parseRoute (text : List Char) (offered : OfferedRoutes) : Result Route :=
  if text = "CODEC".toList then .ok .codec
  else if text ≠ "USB".toList then .error badRoute
  else if !offered.usb then .error routeUnavailable
  else .ok .usb

/-! ## Tokens -/

def isSeparator (c : Char) : Bool := c == ' ' || c == '\t'

/-- `Tokens::next` on the text that is left: the token and the text behind it. -/
def nextToken (rest : List Char) : Option (List Char × List Char) :=
  match rest.dropWhile isSeparator with
  | [] => none
  | c :: text =>
    if c = '#' then none
    else some ((c :: text).takeWhile (!isSeparator ·), (c :: text).dropWhile (!isSeparator ·))

theorem nextToken_length {rest token after : List Char}
    (h : nextToken rest = some (token, after)) : after.length < rest.length := by
  unfold nextToken at h
  have hdrop := (List.dropWhile_sublist isSeparator (l := rest)).length_le
  have hhead := List.head?_dropWhile_not isSeparator rest
  split at h
  · cases h
  · rename_i c text hrest
    split at h
    · cases h
    · cases h
      rw [hrest] at hdrop hhead
      have hc : isSeparator c = false := by simpa using hhead
      have htail := (List.dropWhile_sublist (!isSeparator ·) (l := text)).length_le
      rw [List.dropWhile_cons_of_pos (by rw [hc]; rfl)]
      rw [List.length_cons] at hdrop
      omega

/-- The tokens that `next` gives one after the other. -/
def tokens (rest : List Char) : List (List Char) :=
  match _h : nextToken rest with
  | none => []
  | some (token, after) => token :: tokens after
termination_by rest.length
decreasing_by exact nextToken_length ‹_›

/-! ## Options -/

/-- The value of `token` when it is `key`'s option. -/
def optionValue (token key : List Char) : Option (List Char) :=
  if key.isPrefixOf token then some (token.drop key.length) else none

def parseLabel (value : List Char) (item : Item) : Result Item :=
  if value.isEmpty ∨ labelMaxChars < value.length ∨ !value.all isLabelChar then .error badLabel
  else .ok { item with label := .ofText _ value }

def parseScenario (value : List Char) (item : Item) : Result Item :=
  if !isShortName value "SCN".toList then .error badScenario
  else .ok { item with scenario := .ofText _ value }

def parseSeed (value : List Char) (item : Item) : Result Item :=
  match Cut.parseUInt32 value with
  | .error _ => .error badSeed
  | .ok seed => .ok { item with seed := some seed }

def parseCuts (value : List Char) (item : Item) : Result Item :=
  match Cut.parseEntries value with
  | .error _ => .error badCut
  | .ok list =>
    match Cut.validate list with
    | .error status => .error status
    | .ok cuts => .ok { item with cuts }

def parseAttenuation (value : List Char) (item : Item) : Result Item :=
  match Attenuation.parse value with
  | .error status => .error status
  | .ok attenuation => .ok { item with attenuation }

def parseItemDuration (value : List Char) (item : Item) : Result Item :=
  match parseDuration value with
  | .error status => .error status
  | .ok duration => .ok { item with duration := some duration }

/-- An option's key and the parser of its value. -/
structure OptionRule where
  key : List Char
  parse : List Char → Item → Result Item

def optionRules : List OptionRule :=
  [⟨"label=".toList, parseLabel⟩, ⟨"scn=".toList, parseScenario⟩, ⟨"seed=".toList, parseSeed⟩,
    ⟨"cut=".toList, parseCuts⟩, ⟨"att=".toList, parseAttenuation⟩,
    ⟨"dur=".toList, parseItemDuration⟩]

/-- The loop of `parse_option` from rule `index` on; `seen` are the places of the rules whose
options the line has given. -/
def parseOptionFrom (token : List Char) (item : Item) (seen : List Nat) (index : Nat) :
    List OptionRule → Result (Item × List Nat)
  | [] => .error badSyntax
  | rule :: rules =>
    match optionValue token rule.key with
    | none => parseOptionFrom token item seen (index + 1) rules
    | some value =>
      if index ∈ seen then .error badSyntax
      else (rule.parse value item).map (·, index :: seen)

def parseOption (token : List Char) (item : Item) (seen : List Nat) : Result (Item × List Nat) :=
  parseOptionFrom token item seen 0 optionRules

def parseOptions (item : Item) (seen : List Nat) : List (List Char) → Result Item
  | [] => .ok item
  | token :: tokens =>
    match parseOption token item seen with
    | .error status => .error status
    | .ok (item, seen) => parseOptions item seen tokens

/-! ## The line -/

def parseFields (file gap route : List Char) (offered : OfferedRoutes) (item : Item) :
    Result Item :=
  if !isShortName file "WAV".toList then .error badFile
  else
    match parseGap gap with
    | .error status => .error status
    | .ok frames =>
      match parseRoute route offered with
      | .error status => .error status
      | .ok output => .ok { item with file := .ofText _ file, gap := frames, route := output }

/-- One line, without its LF and a CR before it. -/
def parseLine (line : List Char) (number : LineNumber) (offered : OfferedRoutes) :
    Result (Option Item) :=
  if !line.all isLineChar then .error badSyntax
  else
    match tokens line with
    | [] => .ok none
    | file :: gap :: route :: options =>
      match parseFields file gap route offered { line := number } with
      | .error status => .error status
      | .ok item =>
        match parseOptions item [] options with
        | .error status => .error status
        | .ok item =>
          if item.seed.isSome ∧ item.scenario.isEmpty then .error seedWithoutScenario
          else .ok (some item)
    | _ => .error badSyntax

end WaveformGenerator.PlaylistFile
