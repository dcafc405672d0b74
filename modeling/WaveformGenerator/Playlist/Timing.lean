import WaveformGenerator.Lib.UInt

/-!
# When items start (`common/playlist.hpp`)

Items on the sound card's stream start whole packets apart. Stream indices wrap after 2 ^ 32 frames,
and the packet grid does not: what is exact is the distance from one item to the next.
-/

namespace WaveformGenerator.Playlist

def chunkFrames : UInt32 := 48

def framesPerMillisecond : UInt32 := 48

def maxGapMilliseconds : UInt32 := 3600 * 1000

/-- A gap as the playlist's grammar admits it: whole milliseconds, at most an hour. -/
structure GapFrames where
  value : UInt32 := 0
  milliseconds : ∃ ms ≤ maxGapMilliseconds, value = ms * framesPerMillisecond := by
    exact ⟨0, by decide, rfl⟩
  deriving DecidableEq, Repr

def gapMilliseconds (gap : GapFrames) : UInt32 := gap.value / framesPerMillisecond

def wholeChunkFrames (frames : UInt32) : UInt32 :=
  let part : UInt32 := if frames % chunkFrames = 0 then 0 else 1
  (frames / chunkFrames + part) * chunkFrames

/-- Where the gap after an item ends, and the next item starts. -/
def nextStartIndex (firstFrameIndex sentFrames : UInt32) (gap : GapFrames) : UInt32 :=
  firstFrameIndex + wholeChunkFrames sentFrames + gap.value

end WaveformGenerator.Playlist
