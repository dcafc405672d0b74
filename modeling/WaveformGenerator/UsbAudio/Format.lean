import WaveformGenerator.Common.Status
import WaveformGenerator.Lib.UInt

/-!
# Capture formats and packets (`rt1170/usb_audio.hpp`)

A chunk is 48 stereo frames as the source supplies them. Each alternate setting carries a chunk as
one packet of its format.
-/

namespace WaveformGenerator.UsbAudio

abbrev ByteCount := UInt32
abbrev FrameCount := UInt32
abbrev IntervalCount := UInt32
abbrev UsbFrameCount := UInt32
abbrev UsbFrameSpan := UInt32
abbrev TickCount := UInt32
abbrev TickSpan := UInt32

/-- A frame of two 4-byte subslots, each a 24-bit sample shifted left by a byte. -/
structure StereoFrame where
  left : Int32 := 0
  right : Int32 := 0
  deriving DecidableEq, Repr

abbrev Chunk := Vector StereoFrame 48

def chunkFrames : FrameCount := 48

structure StreamFormat where
  alternate : UInt8 := 0
  channels : UInt8 := 0
  subslotBytes : UInt8 := 0
  bits : UInt8 := 0
  deriving DecidableEq, Repr

def stereoChannels : UInt8 := 2

def pcm24Stereo : StreamFormat := ⟨1, stereoChannels, 4, 24⟩
def pcm16Stereo : StreamFormat := ⟨2, stereoChannels, 2, 16⟩
def pcm16Mono : StreamFormat := ⟨3, 1, 2, 16⟩

def streamFormats : List StreamFormat := [pcm24Stereo, pcm16Stereo, pcm16Mono]

def frameBytes (format : StreamFormat) : ByteCount :=
  format.channels.toUInt32 * format.subslotBytes.toUInt32

def packetBytes (format : StreamFormat) : ByteCount := chunkFrames * frameBytes format

def fifoTargetChunks : UInt32 := 2

def fifoTargetBytes (format : StreamFormat) : ByteCount := fifoTargetChunks * packetBytes format

def fifoCapacityBytes : ByteCount := 1536

/-- The four bytes of a subslot, as they lie in memory. -/
def subslot (sample : Int32) : List UInt8 :=
  let word := sample.toUInt32
  [word.toUInt8, (word >>> 8).toUInt8, (word >>> 16).toUInt8, (word >>> 24).toUInt8]

/-- The top bytes of a subslot, as a format carries them. -/
def wireSubslot (source : List UInt8) (subslotBytes : UInt8) : List UInt8 :=
  source.drop (source.length - min subslotBytes.toNat source.length)

/-- The packet of a chunk: of each frame the left sample, then the right when the format is
stereo. -/
def packFrames (frames : Chunk) (format : StreamFormat) : List UInt8 :=
  frames.toList.flatMap fun frame =>
    wireSubslot (subslot frame.left) format.subslotBytes ++
      if format.channels = stereoChannels then
        wireSubslot (subslot frame.right) format.subslotBytes
      else
        []

/-- The bytes a PCM24 file stores for the sample in a subslot. -/
def pcm24Bytes (sample : Int32) : List UInt8 := (subslot sample).drop 1

/-! ## The formats' sizes -/

theorem frameBytes_pos {format : StreamFormat} (h : format ∈ streamFormats) :
    0 < (frameBytes format).toNat := by
  revert format
  decide

/-- Two packets of a format, and a third, fit the FIFO. -/
theorem packetBytes_toNat {format : StreamFormat} (h : format ∈ streamFormats) :
    (packetBytes format).toNat = 48 * (frameBytes format).toNat ∧
      (fifoTargetBytes format).toNat = 2 * (packetBytes format).toNat ∧
      3 * (packetBytes format).toNat ≤ fifoCapacityBytes.toNat := by
  revert format
  decide

theorem length_wireSubslot (sample : Int32) (subslotBytes : UInt8) :
    (wireSubslot (subslot sample) subslotBytes).length = min subslotBytes.toNat 4 := by
  have hlength : (subslot sample).length = 4 := rfl
  rw [wireSubslot, List.length_drop, hlength]
  omega

theorem length_packFrames (frames : Chunk) {format : StreamFormat} (h : format ∈ streamFormats) :
    (packFrames frames format).length = (packetBytes format).toNat := by
  have hframe : ∀ frame : StereoFrame,
      (wireSubslot (subslot frame.left) format.subslotBytes ++
        if format.channels = stereoChannels then
          wireSubslot (subslot frame.right) format.subslotBytes
        else []).length = (frameBytes format).toNat := by
    intro frame
    rw [List.length_append, length_wireSubslot]
    simp only [streamFormats, List.mem_cons, List.not_mem_nil, or_false] at h
    rcases h with rfl | rfl | rfl
    · rfl
    · rfl
    · rfl
  rw [packFrames, List.length_flatMap, (packetBytes_toNat h).1]
  simp only [hframe, List.map_const', List.sum_replicate_nat, Vector.length_toList]

end WaveformGenerator.UsbAudio
