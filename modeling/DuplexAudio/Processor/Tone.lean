/-
  A sine tone on every played channel.

  The oscillator keeps a phase and an increment, both in cycles, and an amplitude.  Each frame plays
  the sine at the phase and then advances it, so that the tone goes on without a seam from block to
  block, however the frames are split into blocks.

  The sine itself comes from outside (`SineFunction`).  Nothing is asked of it but that it does not
  make a number of what is none.

  The tone ignores what was captured and how it would be mixed, which makes it useful for checking
  the playback path alone.
-/
import DuplexAudio.Processor.Basic
import DuplexAudio.Signal.Sample

namespace DuplexAudio

/-- The sine of an angle in radians, as the platform's mathematical library computes it. -/
class SineFunction where
  sine : Float32 → Float32
  /-- The sine of what is not a number is not a number. -/
  isNaN_sine : ∀ x, x.isNaN = true → (sine x).isNaN = true

/-- One whole turn, in radians. -/
def wholeTurn : Float32 := Float32.ofBits 0x40c90fdb

/-- The part of a non-negative number after its point.  From two to the twenty-third on every number
is whole; infinity has no such part. -/
def fractionalPart (x : Float32) : Float32 :=
  if x < 8388608 then x - x.toUInt32.toFloat32 else x - x

/-- A sine oscillator. -/
structure Tone where
  /-- Where in the cycle the next frame is, in cycles. -/
  phase : Float32
  /-- How far a frame advances, in cycles. -/
  increment : Float32
  amplitude : Float32
  deriving DecidableEq

namespace Tone

/-- Sets the frequency, in hertz; what is not above zero counts as zero. -/
def setFrequency (t : Tone) (hz : Float32) : Tone :=
  let hz := if 0 < hz then hz else 0
  { t with increment := fractionalPart (hz / sampleRateHz.toFloat32) }

/-- Sets the peak level, held between 0 and 1. -/
def setAmplitude (t : Tone) (level : Float32) : Tone :=
  { t with amplitude := if 1 < level then 1 else if 0 < level then level else 0 }

/-- A tone of a given frequency and peak level, at the start of its cycle. -/
def ofFrequency (hz level : Float32) : Tone :=
  ((⟨0, 0, 0⟩ : Tone).setFrequency hz).setAmplitude level

instance : Inhabited Tone := ⟨ofFrequency 0 0⟩

/-- One frame later. -/
def advance (t : Tone) : Tone :=
  let phase := t.phase + t.increment
  { t with phase := if 1 ≤ phase then phase - 1 else phase }

section Play

variable [SineFunction]

/-- The sample at the phase. -/
def sample (t : Tone) : Int32 := ofLevel (t.amplitude * SineFunction.sine (wholeTurn * t.phase))

/-- The samples of the next `n` frames, and the oscillator after them. -/
def render (t : Tone) : Nat → List Int32 × Tone
  | 0 => ([], t)
  | n + 1 =>
    let (rest, last) := t.advance.render n
    (t.sample :: rest, last)

/-- What the tone writes, and the oscillator after the block: every channel of a frame plays the
same sample, and the cartridges hear nothing. -/
def output (t : Tone) (v : BlockView) : Tone × BlockOutput :=
  let frames := min v.frames framesPerBlock
  let (samples, next) := t.render frames
  let tone : PlaybackBlock := Block.ofFn fun n _ => samples.getD n.val 0
  (next, ⟨Block.overwrite frames tone v.played, CartridgeAudio.silence⟩)

instance : Processor Tone where
  process t v :=
    let (next, output) := t.output v
    .finish next output

end Play

end Tone

end DuplexAudio
