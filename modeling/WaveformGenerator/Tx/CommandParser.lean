import WaveformGenerator.Tx.Protocol

/-!
# TX commands (`common/tx_protocol.cpp`)

Commands come a byte at a time. The production spellings have no delimiter, and so may follow one
another closely; the added commands, which end in names, are complete with their line.
-/

namespace WaveformGenerator.Tx

/-- `name_capacity`, a file name's NUL included. -/
def nameCapacity : Nat := 13

/-- `copy_name`: what the field holds after it, and whether it was written. -/
def copyName (value : List Char) (output : Path) (extension : List Char) : Bool × Path :=
  if nameCapacity ≤ value.length then
    (false, output)
  else if !validFilename value extension then
    (false, output)
  else
    (true, value)

structure CommandParser where
  text : List Char := []
  request : Request := {}
  ready : Bool := false
  valid : Bool := false
  modeQuery : Bool := false
  overflow : Bool := false
  deriving DecidableEq, Repr

namespace CommandParser

/-- The most characters that `text_` holds before its NUL. -/
def textCapacity : Nat := 256

def info : List Char := "CMD:MODEM INFO:?".toList
def send : List Char := "CMD:SENDBUFFER".toList
def resetCommand : List Char := "CMD:RESET MDM".toList
def rate : List Char := "CMD:DATA RATE:".toList
def select : List Char := "CMD:WAV FILE:".toList
def generate : List Char := "CMD:TX FILE:".toList
def status : List Char := "CMD:STATUS:?".toList

/-- A command that is complete with its last character. -/
def complete (parser : CommandParser) (kind : Kind) : CommandParser :=
  { parser with request.kind := kind, ready := true, valid := true }

def parseRate (parser : CommandParser) (token : List Char) : CommandParser :=
  if token = ['?'] then
    { parser.complete .query with modeQuery := true }
  else
    match modes.find? fun mode => mode.1.toList = token with
    | some (_, rate, interleave) =>
      let parser := parser.complete .mode
      { parser with request.rate := rate, request.interleave := interleave }
    | none => parser

def parseSelect (parser : CommandParser) (name : List Char) : CommandParser :=
  let (valid, name) := copyName name parser.request.name "WAV".toList
  { parser with request := { parser.request with kind := .select, name }, valid, ready := true }

/-- The second name is looked at only behind a good first one. -/
def parseGenerate (parser : CommandParser) (names : List Char) : CommandParser :=
  let parser := { parser with request.kind := .generateFile, valid := false, ready := true }
  match names.span (· ≠ ':') with
  | (_, []) => parser
  | (input, _ :: output) =>
    let (inputValid, inputName) := copyName input parser.request.inputName "BIN".toList
    let parser := { parser with request.inputName := inputName }
    if !inputValid then
      parser
    else
      let (valid, name) := copyName output parser.request.name "WAV".toList
      { parser with request.name := name, valid }

def parseCommand (parser : CommandParser) (terminated : Bool) : CommandParser :=
  if parser.text = info then
    parser.complete .info
  else if parser.text = send then
    parser.complete .send
  else if parser.text = resetCommand then
    parser.complete .reset
  else if rate.isPrefixOf parser.text then
    parser.parseRate (parser.text.drop rate.length)
  else if terminated && select.isPrefixOf parser.text then
    parser.parseSelect (parser.text.drop select.length)
  else if terminated && generate.isPrefixOf parser.text then
    parser.parseGenerate (parser.text.drop generate.length)
  else if terminated && parser.text = status then
    parser.complete .query
  else
    parser

def parse (parser : CommandParser) (terminated : Bool) : CommandParser :=
  if parser.overflow then
    { parser with ready := terminated, valid := false }
  else
    let parser := parser.parseCommand terminated
    if terminated && !parser.ready then
      { parser with ready := true, valid := false }
    else
      parser

/-- `reset` and `consume`. -/
def reset (_ : CommandParser) : CommandParser := {}

def feed (parser : CommandParser) (byte : UInt8) : CommandParser :=
  if parser.ready then
    parser
  else if byte = 13 || byte = 10 then
    if parser.text ≠ [] || parser.overflow then parser.parse true else parser
  else if parser.overflow then
    parser
  else if parser.text.length = textCapacity || byte < 32 || 126 < byte then
    { parser with overflow := true }
  else
    parse { parser with text := parser.text ++ [.ofNat byte.toNat] } false

end CommandParser

end WaveformGenerator.Tx
