/-
  The mixer: four stereo tracks onto two stereo buses.

  Channels `2t` and `2t + 1` of a captured frame are the sides of track `t`.  Each track is added to
  the buses that its route names, with its gain there.  A bus is bent at the knee, scaled by the
  master volume, bent once more and converted back to samples; the played frame is main left, main
  right, cue left, cue right.  Tracks are added in order, one rounding for each operation.

  The mixer keeps no state, and the cartridges hear nothing of it.
-/
import DuplexAudio.Processor.Basic
import DuplexAudio.Signal.Sample

namespace DuplexAudio

/-- The levels of one stereo bus. -/
structure StereoBus where
  left : Float32
  right : Float32

namespace StereoBus

/-- A bus that nothing was added to. -/
def silence : StereoBus := ⟨0, 0⟩

/-- The bus with a track added. -/
def add (b : StereoBus) (left right gain : Float32) : StereoBus :=
  ⟨b.left + left * gain, b.right + right * gain⟩

/-- One side of a bus as a sample. -/
def side (level master : Float32) : Int32 := ofLevel (softClip (softClip level * master))

end StereoBus

/-- The mixer. -/
structure Mixer where
  deriving DecidableEq, Inhabited

namespace Mixer

/-- The left channel of a track in a captured frame. -/
def leftChannel (t : Fin trackCount) : Fin captureChannels :=
  ⟨2 * t.val, by have h : t.val < 4 := t.isLt; show 2 * t.val < 8; omega⟩

/-- The right channel of a track in a captured frame. -/
def rightChannel (t : Fin trackCount) : Fin captureChannels :=
  ⟨2 * t.val + 1, by have h : t.val < 4 := t.isLt; show 2 * t.val + 1 < 8; omega⟩

/-- One track added to a bus, if the route names that bus. -/
def feed (captured : CaptureBlock) (n : Fin framesPerBlock) (enabled : Route → Bool)
    (gain : Route → Float32) (settings : MixSettings) (b : StereoBus) (t : Fin trackCount) :
    StereoBus :=
  let route := settings.route t
  if enabled route then
    b.add (toLevel (captured.get n (leftChannel t))) (toLevel (captured.get n (rightChannel t)))
      (gain route)
  else b

/-- One bus over one frame, with the tracks added in order. -/
def bus (captured : CaptureBlock) (n : Fin framesPerBlock) (enabled : Route → Bool)
    (gain : Route → Float32) (settings : MixSettings) : StereoBus :=
  (List.finRange trackCount).foldl (feed captured n enabled gain settings) StereoBus.silence

/-- The master volume as it is used: anything not above zero is silence. -/
def master (settings : MixSettings) : Float32 := if 0 < settings.master then settings.master else 0

/-- The played sample of one channel in one frame. -/
def sample (settings : MixSettings) (captured : CaptureBlock) (n : Fin framesPerBlock)
    (ch : Fin playbackChannels) : Int32 :=
  let level := match ch with
    | 0 => (bus captured n Route.toMain Route.gainMain settings).left
    | 1 => (bus captured n Route.toMain Route.gainMain settings).right
    | 2 => (bus captured n Route.toCue Route.gainCue settings).left
    | 3 => (bus captured n Route.toCue Route.gainCue settings).right
  StereoBus.side level (master settings)

/-- The mix of a captured block. -/
def mix (settings : MixSettings) (captured : CaptureBlock) : PlaybackBlock :=
  Block.ofFn (sample settings captured)

/-- What the mixer writes: the first frames of the mix, and silence for the cartridges. -/
def output (v : BlockView) : BlockOutput where
  played := Block.overwrite v.frames (mix v.settings v.captured) v.played
  cartridgeOut := CartridgeAudio.silence

instance : Processor Mixer where
  process m v := .finish m (output v)

end Mixer

end DuplexAudio
