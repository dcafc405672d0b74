import WaveformGenerator.Cut.Spelling
import WaveformGenerator.Lib.Bytes
import WaveformGenerator.Playlist.Sequencer
import WaveformGenerator.SignalLab.Det

/-!
# Requests of the live protocol (`common/live_protocol.hpp`, `common/prepare_request.hpp`)

A name is kept in a character array of its request, which is all NUL to begin with. The arrays
remember a copy that does not fit.
-/

namespace WaveformGenerator.LiveProtocol

open Playlist (Policy)
open SignalLab (Det)

/-- A request's bytes, its LF (or CR LF) included. -/
def wireCapacity : Nat := 384

inductive Kind
  | info
  | status
  | counters
  | usbDiagnostics
  | playlistStatus
  | engineStatus
  | files
  | prepareStatus
  | preparePlayStatus
  | load
  | play
  | stop
  | mediaHost
  | mediaLocal
  | generateFile
  | outputCodec
  | outputUsb
  | cut
  | playlistStart
  | playlistAck
  | seed
  | reference
  | prepareFile
  | preparePlay
  | cwOn
  | cwFrequency
  | cwCi
  | staticOn
  | staticRate
  | staticPeak
  | fade
  | sweepFrequency
  | sweepCi
  | sweepFade
  deriving DecidableEq, Repr

inductive Retention
  | temporary
  | keep
  deriving DecidableEq, Repr

/-- `prepare::Request`. -/
structure Preparation where
  source : Buffer := .zeros 13
  scenario : Buffer := .zeros 13
  output : Buffer := .zeros 13
  retention : Retention := .keep
  seedOverride : Bool := false
  seed : UInt64 := 0
  deriving DecidableEq, Repr

structure Request (R : Type) [Det R] where
  seq : UInt32 := 0
  kind : Kind := .info
  name : Buffer := .zeros 13
  runId : Buffer := .zeros 33
  inputName : Buffer := .zeros 13
  encoder : Buffer := .zeros 16
  profile : Buffer := .zeros 32
  rate : UInt32 := 0
  interleave : UInt32 := 0
  integer : UInt64 := 0
  scheduled : Bool := false
  frame : UInt64 := 0
  value : R := 0.0
  endValue : R := 0.0
  steps : UInt32 := 0
  intervalMs : UInt32 := 0
  durationMs : UInt32 := 0
  oscillator : UInt32 := 0
  cuts : Cut.CutList := ⟨[], Nat.zero_le _⟩
  policy : Policy := .stop
  ackSeq : UInt32 := 0
  preparation : Preparation := {}
  preparationRate : UInt32 := 0
  preparationMarginFrames : UInt32 := 0

/-- A text copied to the beginning of an array. -/
def fill (array : Buffer) (text : List Char) : Buffer :=
  array.copy 0 (text.map fun c => .ofNat c.toNat)

end WaveformGenerator.LiveProtocol
