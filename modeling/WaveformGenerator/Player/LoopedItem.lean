import WaveformGenerator.Player.OutputFifo
import WaveformGenerator.UsbAudio.Stream

/-!
# What ends a looped item (`rt1170/player.cpp`)

A looped playlist item ends on anomalies that leave any other play running.
-/

namespace WaveformGenerator.Player

open UsbAudio

structure PlayWatch where
  assertsAtStart : UInt32 := 0
  looped : Bool := false
  deriving DecidableEq, Repr

/-- The anomaly of a play on the stream `stream`, with `asserts` stack assertions since boot. -/
def loopedAnomaly (watch : PlayWatch) (usbRoute : Bool) (stream : UacStream) (asserts : UInt32) :
    Option PlayerError :=
  if !watch.looped then
    none
  else if usbRoute ∧ confirmedMissed stream.play ≠ 0 then
    some .missedInterval
  else if usbRoute ∧ stream.playMismatched then
    some .usbUnconfirmed
  else if asserts > watch.assertsAtStart then
    some .usbAssert
  else
    none

theorem loopedAnomaly_ne_missedInterval {stream : UacStream} (h : confirmedMissed stream.play = 0)
    (watch : PlayWatch) (usbRoute : Bool) (asserts : UInt32) :
    loopedAnomaly watch usbRoute stream asserts ≠ some .missedInterval := by
  unfold loopedAnomaly
  split
  · nofun
  split
  · rename_i hmissed
    exact absurd h hmissed.2
  split
  · nofun
  split
  · nofun
  · nofun

end WaveformGenerator.Player
