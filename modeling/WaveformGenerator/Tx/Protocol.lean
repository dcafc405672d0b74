import WaveformGenerator.Common.Status
import WaveformGenerator.Lib.Card

/-!
# TX requests (`common/tx_protocol.hpp`, `rt1170/error_map.hpp`)

A request of the TX link, the reply it gets, and the refusals of the artifact owner.
-/

namespace WaveformGenerator.Tx

def maximumPayload : Nat := 256
def maximumUploadBytes : Nat := 1024 * 1024

inductive Kind
  | data
  | mode
  | send
  | reset
  | select
  | info
  | query
  | generateFile
  deriving DecidableEq, Repr

/-- `data` is the first `size` bytes of the request's field. -/
structure Request where
  kind : Kind := .query
  data : List UInt8 := []
  rate : UInt16 := 600
  interleave : UInt8 := 1
  name : Path := "GEN.WAV".toList
  inputName : Path := []
  encoder : String := ""
  profile : String := ""
  deriving DecidableEq, Repr

structure Reply where
  ok : Bool := false
  error : String := "none"
  payloadBytes : Nat := 0
  frames : Nat := 0
  generating : Bool := false
  complete : Bool := false
  deriving DecidableEq, Repr

/-! ## Names and modes -/

/-- Past the stem's characters, at most as many as there is fuel for; none for a character a stem
does not have. -/
def skipStem : Nat → List Char → Option (List Char)
  | 0, text => some text
  | _, [] => some []
  | fuel + 1, ch :: text =>
    if ch = '.' then
      some (ch :: text)
    else if ('A' ≤ ch && ch ≤ 'Z') || ('0' ≤ ch && ch ≤ '9') || ch = '_' then
      skipStem fuel text
    else
      none

/-- `valid_filename`: an 8.3 name with the extension. -/
def validFilename (text : Path) (extension : List Char) : Bool :=
  match skipStem 9 text with
  | none => false
  | some rest =>
    let stem := text.length - rest.length
    1 ≤ stem && stem ≤ 8 && rest = '.' :: extension

/-- The rates and interleaves a mode has a token for. -/
def modes : List (String × UInt16 × UInt8) :=
  [("75S", 75, 0), ("75L", 75, 1), ("150S", 150, 0), ("150L", 150, 1), ("300S", 300, 0),
    ("300L", 300, 1), ("600S", 600, 0), ("600L", 600, 1), ("1200S", 1200, 0), ("1200L", 1200, 1),
    ("2400S", 2400, 0), ("2400L", 2400, 1), ("4800U", 4800, 2)]

def modeToken (rate : UInt16) (interleave : UInt8) : Option String :=
  (modes.find? fun mode => mode.2.1 = rate && mode.2.2 = interleave).map Prod.fst

theorem exists_append_of_skipStem {fuel : Nat} {text rest : List Char}
    (h : skipStem fuel text = some rest) : ∃ stem, text = stem ++ rest := by
  induction fuel generalizing text with
  | zero =>
    cases h
    exact ⟨[], rfl⟩
  | succ fuel ih =>
    cases text with
    | nil =>
      cases h
      exact ⟨[], rfl⟩
    | cons ch text =>
      unfold skipStem at h
      split at h
      · cases h
        exact ⟨[], rfl⟩
      · split at h
        · obtain ⟨stem, rfl⟩ := ih h
          exact ⟨ch :: stem, rfl⟩
        · cases h

/-- A valid name is its stem, the dot and the extension. -/
theorem eq_append_of_validFilename {text : Path} {extension : List Char}
    (h : validFilename text extension = true) : ∃ stem, text = stem ++ '.' :: extension := by
  unfold validFilename at h
  split at h
  · cases h
  case h_2 rest hrest =>
    obtain ⟨stem, rfl⟩ := exists_append_of_skipStem hrest
    simp only [Bool.and_eq_true, decide_eq_true_eq] at h
    exact ⟨stem, by rw [h.2]⟩

/-! ## Refusals -/

namespace Refusal

def busy : Status := { code := .busy, message := "BUSY" }
def badRequest : Status := { code := .invalidArgument, message := "BAD_REQUEST" }
def badMode : Status := { code := .invalidArgument, message := "BAD_MODE" }
def uploadInProgress : Status := { code := .unavailable, message := "UPLOAD_IN_PROGRESS" }
def badFilename : Status := { code := .invalidArgument, message := "BAD_FILENAME" }
def selectNewFile : Status := { code := .unavailable, message := "SELECT_NEW_FILE" }
def payloadTooLarge : Status := { code := .bufferTooSmall, message := "PAYLOAD_TOO_LARGE" }
def mediaNotLocal : Status := { code := .unavailable, message := "MEDIA_NOT_LOCAL" }
def mediaFailed : Status := { code := .ioError, message := "MEDIA_NOT_LOCAL" }
def payloadExistsOrIoError : Status :=
  { code := .ioError, message := "PAYLOAD_EXISTS_OR_IO_ERROR" }
def payloadWriteError : Status := { code := .ioError, message := "PAYLOAD_WRITE_ERROR" }
def noUploadedPayload : Status := { code := .unavailable, message := "NO_UPLOADED_PAYLOAD" }
def unknownEncoder : Status := { code := .invalidArgument, message := "UNKNOWN_ENCODER" }
def outputExists : Status := { code := .invalidArgument, message := "OUTPUT_EXISTS" }
def outputUnchecked : Status := { code := .ioError, message := "OUTPUT_EXISTS" }
def badPayloadFile : Status := { code := .invalidArgument, message := "BAD_PAYLOAD_FILE" }
def encoderWorkspaceError : Status :=
  { code := .internalError, message := "ENCODER_WORKSPACE_ERROR" }
def artifactFinalizeError : Status :=
  { code := .ioError, message := "ARTIFACT_FINALIZE_ERROR" }

end Refusal

end WaveformGenerator.Tx
