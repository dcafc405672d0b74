import Mathlib.Init

/-! # Outcomes of fallible calls (`common/status.hpp`) -/

namespace WaveformGenerator

inductive StatusCode
  | ok
  | invalidArgument
  | invalidConfiguration
  | bufferTooSmall
  | unavailable
  | ioError
  | timeout
  | busy
  | internalError
  deriving DecidableEq, Repr

/-- The outcome of a fallible call: ok, or a code and a static message. -/
structure Status where
  code : StatusCode := .ok
  message : String := "ok"
  deriving DecidableEq, Repr

namespace Status

def isOk (status : Status) : Bool := status.code == .ok

def success : Status := {}

@[simp] theorem isOk_success : success.isOk = true := rfl

end Status

/-- A value, or the status that says why there is none. -/
abbrev Result (α : Type u) := Except Status α

end WaveformGenerator
