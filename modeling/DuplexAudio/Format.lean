/-
  The stream format: one sample rate for both directions, sixteen frames to a block, eight captured
  and four played channels, and four cartridges of four channels each beside them.

  Lengths that index vectors are `Nat` abbreviations, so that bounds reduce by themselves; values
  that go into registers keep their machine width.
-/

namespace DuplexAudio

/-- Frames per second, in both directions. -/
def sampleRateHz : UInt32 := 48000

/-- Frames in one block, that is, in one half of a double buffer. -/
abbrev framesPerBlock : Nat := 16

/-- Channels in a captured frame: four stereo tracks. -/
abbrev captureChannels : Nat := 8

/-- Channels in a played frame: main left and right, cue left and right. -/
abbrev playbackChannels : Nat := 4

/-- Stereo tracks in a captured frame. -/
abbrev trackCount : Nat := 4

/-- Cartridges that exchange audio with the stream. -/
abbrev cartridgeCount : Nat := 4

/-- Channels of one cartridge. -/
abbrev cartridgeChannels : Nat := 4

/-- Bits of one slot on the wire. -/
def slotBits : UInt32 := 32

/-- Significant bits of a sample inside its slot. -/
def sampleBits : UInt32 := 24

/-- The largest 24-bit sample. -/
def fullScale : Int32 := 8388607

/-- How long a converter's clock may take to lock, in milliseconds. -/
def lockTimeoutMs : Nat := 20

/-- Name of the thread that runs the blocks. -/
def workerName : String := "audio-process"

end DuplexAudio
