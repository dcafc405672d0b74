import WaveformGenerator.LiveProtocol.Request
import WaveformGenerator.LiveProtocol.Words

/-!
# The parser of the live protocol (`common/live_protocol.cpp`)

A line is a sequence, a space and a command. The parsers of `parse_delegated` write into the request
and give a status; the others give the request they made.
-/

namespace WaveformGenerator.LiveProtocol

open SignalLab (Det)
open Text

/-! ## The sequence of a line -/

structure Sequenced where
  seq : UInt32
  command : List Char
  deriving DecidableEq, Repr

def isPrintable (c : Char) : Bool := ' ' ≤ c && c ≤ '~'

def readSequence (text : List Char) : Result Sequenced :=
  if wireCapacity < text.length + 1 then
    .error badRequest
  else
    let text := if text.getLast? = some '\r' then text.dropLast else text
    if text.any fun c => !isPrintable c then
      .error badRequest
    else
      match splitFirst ' ' text with
      | (_, none) => .error badRequest
      | (number, some command) =>
        match number32 number with
        | .error _ => .error badRequest
        | .ok seq => if seq = 0 then .error badRequest else .ok { seq, command }

def replySequence (text : List Char) : UInt32 :=
  match readSequence text with
  | .error _ => 0
  | .ok line => line.seq

variable {R : Type} [Det R]

/-! ## The delegated commands -/

def parseCut (text : List Char) (request : Request R) : Status × Request R :=
  match Cut.parseCommand text with
  | .error status => (status, request)
  | .ok cuts => (.success, { request with kind := .cut, cuts })

def parseFilesOffset (text : List Char) (request : Request R) : Status × Request R :=
  match uint64 text with
  | .error _ => (badRequest, request)
  | .ok offset => (.success, { request with kind := .files, integer := offset })

/-- `store_prepare_request`: the output, source and scenario, in this order, and the seed when there
is one. -/
def storePrepareRequest (output source scenario policy : List Char) (seed : Option (List Char))
    (request : Request R) : Status × Request R :=
  if (policy ≠ "KEEP".toList ∧ policy ≠ "TEMP".toList) ∨ !filename output "WAV".toList ∨
      !filename source "WAV".toList ∨ !filename scenario "SCN".toList then
    (badRequest, request)
  else
    match seed.elim (.ok 0) uint64 with
    | .error _ => (badRequest, request)
    | .ok value =>
      (.success, { request with
        preparation :=
          { source := fill request.preparation.source source
            scenario := fill request.preparation.scenario scenario
            output := fill request.preparation.output output
            retention := if policy = "KEEP".toList then .keep else .temporary
            seedOverride := seed.isSome
            seed := value } })

def parsePrepare (text : List Char) (request : Request R) : Status × Request R :=
  match splitFirst ':' (text.drop "PREPARE:".toList.length) with
  | (_, none) => (badRequest, request)
  | (output, some text) =>
    match splitFirst ':' text with
    | (_, none) => (badRequest, request)
    | (source, some text) =>
      match splitFirst ':' text with
      | (_, none) => (badRequest, request)
      | (scenario, some text) =>
        let (policy, seed) := splitFirst ':' text
        let (stored, request) := storePrepareRequest output source scenario policy seed request
        if !stored.isOk then (stored, request)
        else (.success, { request with kind := .prepareFile })

/-- The rate and the margin of PREPAREPLAY, and its request stored behind them. -/
def storePreparePlay (output source scenario policy rate margin : List Char)
    (seed : Option (List Char)) (request : Request R) : Status × Request R :=
  match number32 rate with
  | .error _ => (badRequest, request)
  | .ok rate =>
    if rate = 0 then (badRequest, request)
    else
      match number32 margin with
      | .error _ => (badRequest, request)
      | .ok margin =>
        let (stored, request) := storePrepareRequest output source scenario policy seed request
        if !stored.isOk then (badRequest, request)
        else
          (.success, { request with
            preparationRate := rate
            preparationMarginFrames := margin
            kind := .preparePlay })

def parsePreparePlay (text : List Char) (request : Request R) : Status × Request R :=
  match splitFirst ':' (text.drop "PREPAREPLAY:".toList.length) with
  | (_, none) => (badRequest, request)
  | (output, some text) =>
    match splitFirst ':' text with
    | (_, none) => (badRequest, request)
    | (source, some text) =>
      match splitFirst ':' text with
      | (_, none) => (badRequest, request)
      | (scenario, some text) =>
        match splitFirst ':' text with
        | (_, none) => (badRequest, request)
        | (policy, some text) =>
          match splitFirst ':' text with
          | (_, none) => (badRequest, request)
          | (rate, some text) =>
            let (margin, seed) := splitFirst ':' text
            storePreparePlay output source scenario policy rate margin seed request

def badName : Status := ⟨.invalidArgument, "PLAYLIST_NAME"⟩
def badPolicy : Status := ⟨.invalidArgument, "PLAYLIST_POLICY"⟩
def badAck : Status := ⟨.invalidArgument, "PLAYLIST_ACK"⟩
def badCommand : Status := ⟨.invalidArgument, "PLAYLIST_COMMAND"⟩

def parsePlaylistStart (text : List Char) (request : Request R) : Status × Request R :=
  let (name, policy) := splitFirst ':' text
  if !isPlaylistName name then
    (badName, request)
  else
    match policy with
    | none =>
      (.success, { request with name := fill request.name name, kind := .playlistStart })
    | some suffix =>
      if suffix ≠ "CONTINUE".toList then
        (badPolicy, request)
      else
        (.success, { request with
          policy := .continueOnError
          name := fill request.name name
          kind := .playlistStart })

def parsePlaylistCommand (text : List Char) (request : Request R) : Status × Request R :=
  if "PLAYLIST ACK:".toList.isPrefixOf text then
    match number32 (text.drop "PLAYLIST ACK:".toList.length) with
    | .error _ => (badAck, request)
    | .ok acknowledged =>
      (.success, { request with ackSeq := acknowledged, kind := .playlistAck })
  else if !"PLAYLIST:".toList.isPrefixOf text then
    (badCommand, request)
  else
    parsePlaylistStart (text.drop "PLAYLIST:".toList.length) request

/-- `cut::is_command`. -/
def isCutCommand (text : List Char) : Bool := text = "CUT".toList || "CUT:".toList.isPrefixOf text

def parseDelegated (text : List Char) (request : Request R) : Option (Status × Request R) :=
  if isCutCommand text then
    some (parseCut text request)
  else if "PLAYLIST".toList.isPrefixOf text then
    some (parsePlaylistCommand text request)
  else if "FILES? ".toList.isPrefixOf text then
    some (parseFilesOffset (text.drop "FILES? ".toList.length) request)
  else if "PREPARE:".toList.isPrefixOf text then
    some (parsePrepare text request)
  else if "PREPAREPLAY:".toList.isPrefixOf text then
    some (parsePreparePlay text request)
  else
    none

def judged (verdict : Status × Request R) : Result (Request R) :=
  if !verdict.1.isOk then .error badRequest else .ok verdict.2

/-! ## The commands without a frame -/

/-- The commands that are one text. -/
def simple : List (String × Kind) :=
  [("INFO?", .info), ("STATUS?", .status), ("COUNTERS?", .counters), ("USB?", .usbDiagnostics),
    ("PLAY", .play), ("STOP", .stop), ("MEDIA HOST", .mediaHost), ("MEDIA LOCAL", .mediaLocal),
    ("OUTPUT CODEC", .outputCodec), ("OUTPUT USB", .outputUsb), ("PLAYLIST?", .playlistStatus),
    ("ENGINE?", .engineStatus), ("FILES?", .files), ("PREPARE?", .prepareStatus),
    ("PREPAREPLAY?", .preparePlayStatus)]

def parsePlay (id : List Char) (request : Request R) : Result (Request R) :=
  if id.length ≠ 32 then .error badRequest
  else if id.any fun c => !(('0' ≤ c && c ≤ '9') || ('a' ≤ c && c ≤ 'f')) then .error badRequest
  else .ok { request with runId := fill request.runId id, kind := .play }

def parseLoad (name : List Char) (request : Request R) : Result (Request R) :=
  if !filename name "WAV".toList then .error badRequest
  else .ok { request with name := fill request.name name, kind := .load }

def parseSeed (text : List Char) (request : Request R) : Result (Request R) :=
  match uint64 text with
  | .error _ => .error badRequest
  | .ok seed => .ok { request with kind := .seed, integer := seed }

def generateFields : Nat := 5

def generateRates : List UInt32 := [75, 150, 300, 600, 1200, 2400, 4800]

def interleaveOf (text : List Char) : Result UInt32 :=
  if text = "short".toList then .ok 0
  else if text = "long".toList then .ok 1
  else if text = "zero".toList then .ok 2
  else .error badRequest

def parseGenerate (text : List Char) (request : Request R) : Result (Request R) :=
  match split text ':' with
  | .error _ => .error badRequest
  | .ok fields =>
    if fields.length ≠ generateFields then .error badRequest
    else
      match number32 (Words.word fields 1) with
      | .error _ => .error badRequest
      | .ok rate =>
        if rate ∉ generateRates then .error badRequest
        else
          match interleaveOf (Words.word fields 2) with
          | .error _ => .error badRequest
          | .ok interleave =>
            if !filename (Words.word fields 3) "BIN".toList ∨
                !filename (Words.word fields 4) "WAV".toList then
              .error badRequest
            else
              .ok { request with
                rate
                interleave
                inputName := fill request.inputName (Words.word fields 3)
                name := fill request.name (Words.word fields 4)
                kind := .generateFile }

def parseReference (text : List Char) (request : Request R) : Result (Request R) :=
  match referenceLevel text with
  | .error _ => .error badRequest
  | .ok reference => .ok { request with kind := .reference, value := reference }

/-- What an unscheduled command is before its words are looked at. -/
def parseUnscheduled (text : List Char) (request : Request R) : Option (Result (Request R)) :=
  match simple.find? fun item => item.1.toList = text with
  | some (_, kind) => some (.ok { request with kind })
  | none =>
    match parseDelegated text request with
    | some verdict => some (judged verdict)
    | none =>
      if "PLAY:".toList.isPrefixOf text then some (parsePlay (text.drop 5) request)
      else if "LOAD:".toList.isPrefixOf text then some (parseLoad (text.drop 5) request)
      else if "SEED:".toList.isPrefixOf text then some (parseSeed (text.drop 5) request)
      else if "GENERATE:".toList.isPrefixOf text then some (parseGenerate text request)
      else if "REFERENCE:".toList.isPrefixOf text then some (parseReference (text.drop 10) request)
      else none

/-! ## The commands of words -/

namespace Words

variable (words : Words)

def isOnOff (index : Nat) : Bool :=
  words.word index = "ON".toList || words.word index = "OFF".toList

/-- A switch's value. -/
def switchValue (index : Nat) : R := if words.word index = "ON".toList then 1.0 else 0.0

def parseEncode (request : Request R) : Result (Request R) :=
  let encoder := words.word 1
  let profile := words.word 2
  if encoder.isEmpty ∨ request.encoder.size ≤ encoder.length ∨ profile.isEmpty ∨
      request.profile.size ≤ profile.length ∨ !filename (words.word 3) "BIN".toList ∨
      !filename (words.word 4) "WAV".toList then
    .error badRequest
  else if encoder.any fun c => !PlaylistFile.isNameChar c then
    .error badRequest
  else if profile.any fun c => c = Char.ofNat 34 || c = Char.ofNat 92 then
    .error badRequest
  else
    .ok { request with
      encoder := fill (.zeros request.encoder.size) encoder
      profile := fill request.profile profile
      inputName := fill request.inputName (words.word 3)
      name := fill request.name (words.word 4)
      kind := .generateFile }

def parseSwitch (request : Request R) : Request R :=
  { request with
    kind := if words.word 0 = "CW".toList then .cwOn else .staticOn
    value := words.switchValue 1 }

def parseSlotSwitch (request : Request R) : Result (Request R) :=
  match cwSlot (words.word 1) with
  | .error _ => .error badRequest
  | .ok oscillator =>
    .ok { request with oscillator, kind := .cwOn, value := words.switchValue 2 }

/-- The parameter that two words name. -/
def settingKind (component parameter : List Char) : Result Kind :=
  if component = "CW".toList ∧ parameter = "FREQ".toList then .ok .cwFrequency
  else if component = "CW".toList ∧ parameter = "CI".toList then .ok .cwCi
  else if component = "STATIC".toList ∧ parameter = "RATE".toList then .ok .staticRate
  else if component = "STATIC".toList ∧ parameter = "PEAK".toList then .ok .staticPeak
  else .error badRequest

def parseSetting (value : R) (request : Request R) : Result (Request R) :=
  match settingKind (words.word 0) (words.word 1) with
  | .error _ => .error badRequest
  | .ok kind => .ok { request with value, kind }

def parseSlotSetting (value : R) (request : Request R) : Result (Request R) :=
  match cwSlot (words.word 1) with
  | .error _ => .error badRequest
  | .ok oscillator =>
    if words.word 2 = "FREQ".toList then .ok { request with oscillator, value, kind := .cwFrequency }
    else if words.word 2 = "CI".toList then .ok { request with oscillator, value, kind := .cwCi }
    else .error badRequest

def parseFade (request : Request R) : Result (Request R) :=
  match decimal (words.word 2), milliseconds (words.word 3) with
  | .ok depth, .ok duration =>
    .ok { request with kind := .fade, value := depth, durationMs := duration }
  | _, _ => .error badRequest

def mostSweepSteps : UInt32 := 16

/-- What a sweep is of, and the place of its start value. -/
def parseSweepTarget (request : Request R) : Result (Request R × Nat) :=
  if words.word 1 = "CW".toList then
    let slot := if words.length = 8 then cwSlot (words.word 2) else .ok request.oscillator
    let kind := if words.length = 8 then 3 else 2
    match slot with
    | .error _ => .error badRequest
    | .ok oscillator =>
      if words.word kind = "FREQ".toList then
        .ok ({ request with oscillator, kind := .sweepFrequency }, kind + 1)
      else if words.word kind = "CI".toList then
        .ok ({ request with oscillator, kind := .sweepCi }, kind + 1)
      else .error badRequest
  else if words.length = 7 ∧ words.word 1 = "FADE".toList then
    match milliseconds (words.word 6) with
    | .error _ => .error badRequest
    | .ok duration => .ok ({ request with kind := .sweepFade, durationMs := duration }, 2)
  else .error badRequest

def parseSweep (request : Request R) : Result (Request R) :=
  match words.parseSweepTarget request with
  | .error _ => .error badRequest
  | .ok (request, first) =>
    match decimal (words.word first), decimal (words.word (first + 1)),
        number32 (words.word (first + 2)), milliseconds (words.word (first + 3)) with
    | .ok start, .ok stop, .ok steps, .ok interval =>
      if steps < 2 ∨ mostSweepSteps < steps then .error badRequest
      else
        .ok { request with
          value := start
          endValue := stop
          steps
          intervalMs := interval }
    | _, _, _, _ => .error badRequest

/-- A decimal that one of the forms of so many words ends in. -/
def decimalOf (count : Nat) : Option R :=
  if words.length = count then (decimal (words.word (count - 1))).toOption else none

/-- The forms of four words and more. -/
def parseLonger (request : Request R) : Result (Request R) :=
  let slotSetting : Option R := if words.word 0 = "CW".toList then words.decimalOf 4 else none
  match slotSetting with
  | some value => words.parseSlotSetting value request
  | none =>
    if words.length = 4 ∧ words.word 0 = "FADE".toList ∧ words.word 1 = "NOW".toList then
      words.parseFade request
    else if (words.length = 7 ∨ words.length = 8) ∧ words.word 0 = "SWEEP".toList then
      words.parseSweep request
    else .error badRequest

def parse (request : Request R) : Result (Request R) :=
  if !request.scheduled ∧ words.length = 5 ∧ words.word 0 = "ENCODE".toList then
    words.parseEncode request
  else if words.length = 2 ∧ (words.word 0 = "CW".toList ∨ words.word 0 = "STATIC".toList) ∧
      words.isOnOff 1 then
    .ok (words.parseSwitch request)
  else if words.length = 3 ∧ words.word 0 = "CW".toList ∧ words.isOnOff 2 then
    words.parseSlotSwitch request
  else
    match words.decimalOf 3 with
    | some value => words.parseSetting value request
    | none => words.parseLonger request

end Words

/-! ## A line -/

/-- The command of a line behind its frame. -/
def parseCommand (text : List Char) (request : Request R) : Result (Request R) :=
  match if request.scheduled then none else parseUnscheduled text request with
  | some verdict => verdict
  | none =>
    match split text ' ' with
    | .error _ => .error badRequest
    | .ok words => words.parse request

/-- A command, for a frame when it begins with one. -/
def parseScheduled (text : List Char) (request : Request R) : Result (Request R) :=
  if "AT:".toList.isPrefixOf text then
    match splitFirst ' ' text with
    | (_, none) => .error badRequest
    | (first, some rest) =>
      match uint64 (first.drop 3) with
      | .error _ => .error badRequest
      | .ok frame => parseCommand rest { request with frame, scheduled := true }
  else
    parseCommand text request

/-- `parse`: the request or the refusal, and the last sequence. -/
def parse (text : List Char) (lastSequence : UInt32) : Result (Request R) × UInt32 :=
  match readSequence text with
  | .error status => (.error status, lastSequence)
  | .ok line =>
    if line.seq ≤ lastSequence then (.error badRequest, lastSequence)
    else (parseScheduled line.command { seq := line.seq }, line.seq)

end WaveformGenerator.LiveProtocol
