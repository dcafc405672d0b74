import WaveformGenerator.Host.CutSpelling
import WaveformGenerator.Playlist.ResultRing

/-!
# The host's playlist checker (`host/make_playlist.py`, `host/attenuation.py`)

`parseBytes` reads a whole playlist file by the board's rules: its items, or the board's first
refusal with its code and line.
-/

namespace WaveformGenerator.Host

open Playlist (Route)

structure PlaylistError where
  code : String
  line : Nat
  message : String
  deriving DecidableEq, Repr

structure Item where
  file : List Char
  gapFrames : Nat
  route : Route
  line : Nat
  label : Option (List Char) := none
  scenario : Option (List Char) := none
  seed : Option Nat := none
  cuts : List CutEntry := []
  attenuationTenths : Nat := 0
  durationFrames : Option Nat := none
  deriving DecidableEq, Repr

def maxItems : Nat := 256
def maxLineChars : Nat := 511
def maxFileBytes : Nat := 262144
def labelMaxChars : Nat := 24
def framesPerMillisecond : Nat := 48
def maxGapMilliseconds : Nat := 3600 * 1000
def minDurationMilliseconds : Nat := 1000
def maxDurationMilliseconds : Nat := 86400 * 1000
def maxTenths : Nat := 400

/-! ## The patterns -/

def digitClass : Char → Bool := classOf [('0', '9')]

/-- `[A-Z0-9_]{1,8}` -/
def nameStem : Regex := .chars (classOf [('A', 'Z'), ('0', '9'), ('_', '_')]) 1 (some 8)

def wavPattern : Regex := .seq nameStem (.literal ".WAV".toList)
def scnPattern : Regex := .seq nameStem (.literal ".SCN".toList)

/-- `[A-Za-z0-9_.\-]{1,24}` -/
def labelPattern : Regex :=
  .chars (classOf [('A', 'Z'), ('a', 'z'), ('0', '9'), ('_', '_'), ('.', '.'), ('-', '-')]) 1
    (some labelMaxChars)

/-- `0|[1-9][0-9]{0,n}` -/
def wholePattern (n : Nat) : Regex :=
  .alt (.literal ['0'])
    (.seq (.chars (classOf [('1', '9')]) 1 (some 1)) (.chars digitClass 0 (some n)))

/-- `(0|[1-9][0-9]{0,n})(?:\.([0-9]{1,3}))?` -/
def secondsPattern (n : Nat) : Regex :=
  .seq (.group 1 (wholePattern n))
    (.opt (.seq (.literal ['.']) (.group 2 (.chars digitClass 1 (some 3)))))

def gapPattern : Regex := secondsPattern 3
def durationPattern : Regex := secondsPattern 4

/-- `(-?)(0|[1-9][0-9]?)(?:\.([0-9]))?` -/
def attenuationPattern : Regex :=
  .seq (.group 1 (.opt (.literal ['-'])))
    (.seq (.group 2 (wholePattern 1))
      (.opt (.seq (.literal ['.']) (.group 3 (.chars digitClass 1 (some 1))))))

/-- `match.group(n) or ""` -/
def groupOr (groups : Groups) (n : Nat) : List Char := (groups.lookup n).getD []

/-- `text.ljust(width, "0")` -/
def ljustZeros (width : Nat) (text : List Char) : List Char :=
  text ++ .replicate (width - text.length) '0'

/-! ## Values -/

/-- The milliseconds of a match of `secondsPattern`. -/
def millisecondsOf (groups : Groups) : Nat :=
  Text.decimal (groupOr groups 1) * 1000 + Text.decimal (ljustZeros 3 (groupOr groups 2))

def parseGap (text : List Char) (line : Nat) : Except PlaylistError Nat :=
  match gapPattern.fullmatch text with
  | none => .error ⟨"PLAYLIST_GAP", line,
      s!"a gap is 0 to 3600 seconds with up to 3 decimals, not {pyRepr text}"⟩
  | some groups =>
    let milliseconds := millisecondsOf groups
    if maxGapMilliseconds < milliseconds then
      .error ⟨"PLAYLIST_GAP", line, s!"{String.ofList text} s is longer than 3600 s"⟩
    else .ok (milliseconds * framesPerMillisecond)

def parseDuration (text : List Char) (line : Nat) : Except PlaylistError Nat :=
  let milliseconds := (durationPattern.fullmatch text).map millisecondsOf
  match milliseconds.filter fun ms =>
      minDurationMilliseconds ≤ ms && ms ≤ maxDurationMilliseconds with
  | none => .error ⟨"PLAYLIST_DUR", line,
      s!"a duration is 1 to 86400 seconds with up to 3 decimals, not {pyRepr text}"⟩
  | some milliseconds => .ok (milliseconds * framesPerMillisecond)

/-- `attenuation.parse`: the tenths of a dB, or the text of its `AttenuationError`. -/
def parseAttenuation (text : List Char) : Except String Nat :=
  match attenuationPattern.fullmatch text with
  | none => .error s!"att= is 0 to -40.0 dB with at most one decimal, not {pyRepr text}"
  | some groups =>
    let tenth := if groupOr groups 3 = [] then ['0'] else groupOr groups 3
    let tenths := Text.decimal (groupOr groups 2) * 10 + Text.decimal tenth
    if maxTenths < tenths then .error s!"att= goes down to -40.0 dB, not {String.ofList text}"
    else if tenths ≠ 0 ∧ groupOr groups 1 = [] then
      .error s!"att= never raises the level: {String.ofList text} dB is positive"
    else .ok tenths

/-- `str(error)` of a `CutError`. -/
def CutError.text (error : CutError) : String := s!"{error.code}: {error.message}"

def parseCuts (value : List Char) (line : Nat) : Except PlaylistError (List CutEntry) :=
  match parseEntries value with
  | .error error =>
    .error ⟨"PLAYLIST_CUT", line, s!"cut= is spelt as CUT's entries: {error.text}"⟩
  | .ok entries =>
    match validate entries with
    | .error error => .error ⟨error.code, line, error.text⟩
    | .ok entries => .ok entries

/-! ## Tokens and options -/

def isSeparator (c : Char) : Bool := c == ' ' || c == '\t'

/-- `text.strip(" \t")` -/
def strip (text : List Char) : List Char :=
  ((text.dropWhile isSeparator).reverse.dropWhile isSeparator).reverse

/-- `_SEPARATORS.split(text)`: the pieces between runs of separators. -/
def splitSeparators (text : List Char) : List (List Char) :=
  match _h : text.dropWhile (!isSeparator ·) with
  | [] => [text]
  | _ :: behind =>
    text.takeWhile (!isSeparator ·) :: splitSeparators (behind.dropWhile isSeparator)
termination_by text.length
decreasing_by
  have h₁ := (List.dropWhile_sublist isSeparator (l := behind)).length_le
  have h₂ := (List.dropWhile_sublist (!isSeparator ·) (l := text)).length_le
  rw [‹text.dropWhile (!isSeparator ·) = _ :: behind›, List.length_cons] at h₂
  omega

/-- A line's tokens, up to a token that starts a comment. -/
def tokens (text : List Char) : List (List Char) :=
  (splitSeparators (strip text)).takeWhile fun token => !(token.isEmpty || token.head? == some '#')

/-- The `options` dict, by its keys. -/
structure Options where
  label : Option (List Char) := none
  scn : Option (List Char) := none
  seed : Option Nat := none
  cut : Option (List CutEntry) := none
  att : Option Nat := none
  dur : Option Nat := none

/-- `PlaylistError("PLAYLIST_SYNTAX", line, f"{key}= given twice")` -/
def givenTwice (key : String) (line : Nat) : PlaylistError :=
  ⟨"PLAYLIST_SYNTAX", line, s!"{key}= given twice"⟩

def parseOption (token : List Char) (line : Nat) (options : Options) :
    Except PlaylistError Options :=
  match Text.splitFirst '=' token with
  | (key, some value) =>
    if key = "label".toList then
      if options.label.isSome then .error (givenTwice "label" line)
      else if (labelPattern.fullmatch value).isNone then
        .error ⟨"PLAYLIST_LABEL", line,
          s!"a label is 1 to {labelMaxChars} of A-Z a-z 0-9 _ - ., not {pyRepr value}"⟩
      else .ok { options with label := some value }
    else if key = "scn".toList then
      if options.scn.isSome then .error (givenTwice "scn" line)
      else if (scnPattern.fullmatch value).isNone then
        .error ⟨"PLAYLIST_SCN", line,
          s!"scn= names an upper-case 8.3 .SCN file, not {pyRepr value}"⟩
      else .ok { options with scn := some value }
    else if key = "seed".toList then
      if options.seed.isSome then .error (givenTwice "seed" line)
      else if (decimalPattern.fullmatch value).isNone ∨ uint32Max < Text.decimal value then
        .error ⟨"PLAYLIST_SEED", line, s!"a seed is a canonical 32-bit decimal, not {pyRepr value}"⟩
      else .ok { options with seed := some (Text.decimal value) }
    else if key = "cut".toList then
      if options.cut.isSome then .error (givenTwice "cut" line)
      else (parseCuts value line).map fun cut => { options with cut := some cut }
    else if key = "att".toList then
      if options.att.isSome then .error (givenTwice "att" line)
      else
        match parseAttenuation value with
        | .error message => .error ⟨"PLAYLIST_ATT", line, message⟩
        | .ok att => .ok { options with att := some att }
    else if key = "dur".toList then
      if options.dur.isSome then .error (givenTwice "dur" line)
      else (parseDuration value line).map fun dur => { options with dur := some dur }
    else .error ⟨"PLAYLIST_SYNTAX", line, s!"unknown option {pyRepr token}"⟩
  | _ => .error ⟨"PLAYLIST_SYNTAX", line, s!"unknown option {pyRepr token}"⟩

def parseOptions (line : Nat) (options : Options) : List (List Char) → Except PlaylistError Options
  | [] => .ok options
  | token :: tokens => do
    let options ← parseOption token line options
    parseOptions line options tokens

/-! ## Lines and files -/

/-- `ROUTES` by their names. -/
def routeOf (name : List Char) : Option Route :=
  if name = "USB".toList then some .usb
  else if name = "CODEC".toList then some .codec
  else none

/-- One line, without its LF and a CR before it. -/
def parseLine (text : List Char) (line : Nat) (usbOffered : Bool) :
    Except PlaylistError (Option Item) :=
  if text.any fun c => !(32 ≤ c.toNat && c.toNat ≤ 126 || c == '\t') then
    .error ⟨"PLAYLIST_SYNTAX", line, "only printable ASCII and tabs"⟩
  else
    match tokens text with
    | [] => .ok none
    | file :: gap :: route :: rest =>
      if (wavPattern.fullmatch file).isNone then
        .error ⟨"PLAYLIST_FILE", line,
          s!"an item's file is an upper-case 8.3 .WAV name, not {pyRepr file}"⟩
      else do
        let frames ← parseGap gap line
        match routeOf route with
        | none => throw ⟨"PLAYLIST_ROUTE", line, s!"the route is USB or CODEC, not {pyRepr route}"⟩
        | some output =>
          if output = .usb ∧ !usbOffered then
            throw ⟨"PLAYLIST_ROUTE_UNAVAILABLE", line, "this image has no USB sound card"⟩
          let options ← parseOptions line {} rest
          if options.seed.isSome ∧ options.scn.isNone then
            throw ⟨"PLAYLIST_SEED_NO_SCN", line, "seed= is the scenario's seed: it needs scn="⟩
          return some
            { file, gapFrames := frames, route := output, line
              label := options.label
              scenario := options.scn
              seed := options.seed
              cuts := options.cut.getD []
              attenuationTenths := options.att.getD 0
              durationFrames := options.dur }
    | _ => .error ⟨"PLAYLIST_SYNTAX", line,
        "an item is <FILE.WAV> <gap_seconds> <USB|CODEC> [options]"⟩

/-- The body of the loop of `parse_bytes`. -/
def readLine (usbOffered : Bool) (items : List Item) (number : Nat) (raw : List UInt8) :
    Except PlaylistError (List Item) :=
  if maxLineChars < raw.length then
    .error ⟨"PLAYLIST_LINE_TOO_LONG", number,
      s!"a line is at most {maxLineChars} characters before its LF"⟩
  else do
    let text := if raw.getLast? = some 13 then raw.dropLast else raw
    match ← parseLine (text.map fun byte => Char.ofNat byte.toNat) number usbOffered with
    | none => return items
    | some item =>
      if items.length = maxItems then
        throw ⟨"PLAYLIST_TOO_MANY", number, s!"at most {maxItems} items"⟩
      match item.label with
      | none => return items ++ [item]
      | some label =>
        if items.any (·.label == some label) then
          throw ⟨"PLAYLIST_LABEL_DUPLICATE", number,
            s!"label {String.ofList label} is another item's"⟩
        return items ++ [item]

/-- The loop of `parse_bytes`, from line `number` on, and what follows it. -/
def readLines (usbOffered : Bool) (items : List Item) (number : Nat) :
    List (List UInt8) → Except PlaylistError (List Item)
  | [] => if items.isEmpty then .error ⟨"PLAYLIST_EMPTY", 0, "no item"⟩ else .ok items
  | raw :: lines => do
    let items ← readLine usbOffered items number raw
    readLines usbOffered items (number + 1) lines

/-- A whole playlist file by the board's rules. -/
def parseBytes (data : List UInt8) (usbOffered : Bool) : Except PlaylistError (List Item) :=
  if maxFileBytes < data.length then
    .error ⟨"PLAYLIST_TOO_LARGE", 0, s!"a playlist file is at most {maxFileBytes} bytes"⟩
  else
    let lines := data.splitOn 10
    readLines usbOffered [] 1 (if lines.getLast? = some [] then lines.dropLast else lines)

end WaveformGenerator.Host
