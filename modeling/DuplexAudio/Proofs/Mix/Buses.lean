/-
  What a played sample of the mixer depends on, and what the mixer writes.

  There are two buses with two sides each, and one function makes the samples of all four:
  `busSample`, of a master volume and of what each track brings (`Feed`).  Which of a track's
  settings and which of its channels it is given is all that the buses and the sides differ in
  (`output_eq_busSample`).

  1. A feed that is not enabled is skipped and not multiplied by zero, so that `busSample` cannot
     tell its gain and its sample, whatever they are (`busSample_congr`).  Isolation follows: two
     blocks that agree on what a played sample is made of, play the same sample there
     (`buses_isolated`).

  2. Whatever levels a mix comes to, infinite ones and what is not a number included, they end in
     the range of a sample, because the conversion back is the last thing that happens to them
     (`ofLevel_mem`).  `output_framed` says this of every frame that is written, and that nothing
     else is.
-/
import DuplexAudio.Processor.Mixer
import Mathlib.Algebra.Group.Int.Defs
import Mathlib.Data.List.FinRange

namespace DuplexAudio

namespace Mixer

/-! ## Buses, sides and feeds -/

/-- The two stereo buses. -/
inductive Bus where
  | main
  | cue
  deriving DecidableEq, Repr

/-- The two sides of a stereo signal. -/
inductive Side where
  | left
  | right
  deriving DecidableEq, Repr

/-- Whether a route names a bus. -/
def Bus.routed : Bus → Route → Bool
  | main => Route.toMain
  | cue => Route.toCue

/-- The gain of a route on a bus. -/
def Bus.gain : Bus → Route → Float32
  | main => Route.gainMain
  | cue => Route.gainCue

/-- The captured channel that holds one side of a track. -/
def Side.channel : Side → Fin trackCount → Fin captureChannels
  | left => leftChannel
  | right => rightChannel

/-- The played channel of one side of a bus. -/
def Bus.channel : Bus → Side → Fin playbackChannels
  | main, .left => ⟨0, by decide⟩
  | main, .right => ⟨1, by decide⟩
  | cue, .left => ⟨2, by decide⟩
  | cue, .right => ⟨3, by decide⟩

/-- What a track brings to one side of a bus. -/
structure Feed where
  enabled : Bool
  gain : Float32
  sample : Int32

/-- Two feeds that cannot be told apart: both enabled with the same gain and sample, or neither
enabled. -/
def Feed.Like (f g : Feed) : Prop :=
  f.enabled = g.enabled ∧ (f.enabled = true → f.gain = g.gain ∧ f.sample = g.sample)

/-- A level with a feed added, if it is enabled. -/
def Feed.addTo (level : Float32) (f : Feed) : Float32 :=
  if f.enabled then level + toLevel f.sample * f.gain else level

/-- The level that the feeds of all tracks come to, added in order. -/
def busLevel (feeds : Fin trackCount → Feed) : Float32 :=
  (List.finRange trackCount).foldl (fun level t => (feeds t).addTo level) 0

/-- The played sample that the feeds of all tracks come to under a master volume. -/
def busSample (volume : Float32) (feeds : Fin trackCount → Feed) : Int32 :=
  StereoBus.side (busLevel feeds) (if 0 < volume then volume else 0)

/-- What a track brings to one side of a bus in one frame. -/
def feedOf (settings : MixSettings) (captured : CaptureBlock) (n : Fin framesPerBlock) (bus : Bus)
    (side : Side) (t : Fin trackCount) : Feed where
  enabled := bus.routed (settings.route t)
  gain := bus.gain (settings.route t)
  sample := captured.get n (side.channel t)

/-! ## Isolation -/

theorem Feed.Like.addTo_eq {f g : Feed} (h : f.Like g) (level : Float32) :
    f.addTo level = g.addTo level := by
  obtain ⟨henabled, hsame⟩ := h
  unfold Feed.addTo
  rw [← henabled]
  split
  · next hon =>
    obtain ⟨hgain, hsample⟩ := hsame hon
    rw [hgain, hsample]
  · rfl

/-- **Feeds that are not enabled are ignored**, with their gains and samples. -/
theorem busSample_congr (volume : Float32) {f g : Fin trackCount → Feed}
    (h : ∀ t, (f t).Like (g t)) : busSample volume f = busSample volume g := by
  have hadd : (fun level t => (f t).addTo level) = fun level t => (g t).addTo level :=
    funext fun level => funext fun t => (h t).addTo_eq level
  unfold busSample busLevel
  rw [hadd]

section Levels

variable (settings : MixSettings) (captured : CaptureBlock) (n : Fin framesPerBlock) (bus : Bus)

/-- The sides of a bus do not meet: the left one adds up the left channels. -/
theorem bus_left :
    (Mixer.bus captured n bus.routed bus.gain settings).left =
      busLevel (feedOf settings captured n bus .left) := by
  refine (List.foldl_hom StereoBus.left fun b t => ?_).symm
  unfold feed Feed.addTo feedOf
  dsimp only
  split <;> rfl

/-- The right side of a bus adds up the right channels. -/
theorem bus_right :
    (Mixer.bus captured n bus.routed bus.gain settings).right =
      busLevel (feedOf settings captured n bus .right) := by
  refine (List.foldl_hom StereoBus.right fun b t => ?_).symm
  unfold feed Feed.addTo feedOf
  dsimp only
  split <;> rfl

/-- **Every sample of the mix** is made by `busSample` from the feeds of its bus and side. -/
theorem sample_eq_busSample (side : Side) :
    sample settings captured n (bus.channel side) =
      busSample settings.master (feedOf settings captured n bus side) := by
  have hleft := bus_left settings captured n bus
  have hright := bus_right settings captured n bus
  cases bus <;> cases side
  · exact congrArg (StereoBus.side · (master settings)) hleft
  · exact congrArg (StereoBus.side · (master settings)) hright
  · exact congrArg (StereoBus.side · (master settings)) hleft
  · exact congrArg (StereoBus.side · (master settings)) hright

end Levels

/-- A frame that is written holds the mix. -/
theorem played_of_lt {v : BlockView} {n : Fin framesPerBlock} (hn : n.val < v.frames)
    (ch : Fin playbackChannels) :
    (output v).played.get n ch = sample v.settings v.captured n ch := by
  unfold output
  rw [Block.get_overwrite, if_pos hn]
  exact Block.get_ofFn _ n ch

theorem output_eq_busSample {v : BlockView} {n : Fin framesPerBlock} (hn : n.val < v.frames)
    (bus : Bus) (side : Side) :
    (output v).played.get n (bus.channel side) =
      busSample v.settings.master (feedOf v.settings v.captured n bus side) := by
  rw [played_of_lt hn, sample_eq_busSample]

/-- **The buses of the mixer are isolated.**
(1) `busSample` ignores the gain and the sample of every feed that is not enabled.
(2) Whatever a block holds and however the mix is set, every played sample of a frame that is
    written is `busSample` of the master volume and of the feeds of its own frame, bus and side.
(3) So two blocks play the same sample wherever they have the same master volume, route the same
    tracks to that bus, and have the same gains there and the same samples on that side for the
    tracks that are routed.  Nothing else is looked at: no other frame, no other side, no other
    bus, no track that is not routed, no cartridge, and not what was there before. -/
theorem buses_isolated :
    (∀ (volume : Float32) (f g : Fin trackCount → Feed), (∀ t, (f t).Like (g t)) →
      busSample volume f = busSample volume g) ∧
    (∀ v : BlockView, ∃ out, Processor.process Mixer.mk v = .finish Mixer.mk out ∧
      ∀ n : Fin framesPerBlock, n.val < v.frames → ∀ (bus : Bus) (side : Side),
        out.played.get n (bus.channel side) =
          busSample v.settings.master fun t =>
            ⟨bus.routed (v.settings.route t), bus.gain (v.settings.route t),
              v.captured.get n (side.channel t)⟩) ∧
    ∀ (v w : BlockView) (n : Fin framesPerBlock) (bus : Bus) (side : Side),
      n.val < v.frames → n.val < w.frames → v.settings.master = w.settings.master →
      (∀ t, bus.routed (v.settings.route t) = bus.routed (w.settings.route t) ∧
        (bus.routed (v.settings.route t) = true →
          bus.gain (v.settings.route t) = bus.gain (w.settings.route t) ∧
            v.captured.get n (side.channel t) = w.captured.get n (side.channel t))) →
      (output v).played.get n (bus.channel side) = (output w).played.get n (bus.channel side) := by
  refine ⟨fun volume f g h => busSample_congr volume h, fun v => ?_, ?_⟩
  · exact ⟨output v, rfl, fun n hn bus side => output_eq_busSample hn bus side⟩
  · intro v w n bus side hv hw hvolume hfeeds
    rw [output_eq_busSample hv, output_eq_busSample hw, hvolume]
    exact busSample_congr _ hfeeds

/-- A track that is routed nowhere is not heard, even with an infinite gain at full scale. -/
example :
    busSample 1 (fun t => if t = 2 then ⟨false, Float32.ofBits 0x7f800000, 8388607⟩
      else ⟨true, 1, 1000⟩) =
      busSample 1 fun t => if t = 2 then ⟨false, 0, 0⟩ else ⟨true, 1, 1000⟩ := by decide +kernel

end Mixer

/-! ## The range of what is written -/

/-- The range of a 24-bit sample. -/
def InSampleRange (v : Int32) : Prop := -8388608 ≤ v.toInt ∧ v.toInt ≤ 8388607

instance (v : Int32) : Decidable (InSampleRange v) := inferInstanceAs (Decidable (_ ∧ _))

theorem toSampleRange_mem (v : Int32) : InSampleRange (toSampleRange v) := by
  have hlow : (-8388608 : Int32).toInt = -8388608 := by decide
  have hhigh : fullScale.toInt = 8388607 := by decide
  unfold InSampleRange toSampleRange
  split
  · decide
  · next hle =>
    rw [Int32.lt_iff_toInt_lt, hlow] at hle
    split
    · decide
    · next hge =>
      rw [Int32.lt_iff_toInt_lt, hhigh] at hge
      omega

/-- **Every level ends in the range of a sample**, an infinite one and what is not a number
included. -/
theorem ofLevel_mem (level : Float32) : InSampleRange (ofLevel level) := toSampleRange_mem _

namespace Mixer

theorem sample_mem (settings : MixSettings) (captured : CaptureBlock) (n : Fin framesPerBlock)
    (ch : Fin playbackChannels) : InSampleRange (sample settings captured n ch) := ofLevel_mem _

/-- **What the mixer writes**, whatever the settings and the samples are, and whatever was there
before: the frames that it was asked for, as many as a block has, all in the range of a sample;
every other frame is left as it was, and the cartridges are silent, also if no frame was asked
for. -/
theorem output_framed (v : BlockView) :
    ∃ out, Processor.process Mixer.mk v = .finish Mixer.mk out ∧
      (∀ (n : Fin framesPerBlock) (ch : Fin playbackChannels),
        (n.val < min v.frames framesPerBlock →
          out.played.get n ch = sample v.settings v.captured n ch ∧
            -2 ^ 23 ≤ (out.played.get n ch).toInt ∧ (out.played.get n ch).toInt ≤ 2 ^ 23 - 1) ∧
        (min v.frames framesPerBlock ≤ n.val → out.played.get n ch = v.played.get n ch)) ∧
      ∀ k : Fin cartridgeCount, out.cartridgeOut.get k = Block.silence := by
  refine ⟨output v, rfl, fun n ch => ⟨fun hn => ?_, fun hn => ?_⟩, CartridgeAudio.get_silence⟩
  · have hwritten := played_of_lt (Nat.lt_of_lt_of_le hn (Nat.min_le_left _ _)) ch
    obtain ⟨hlow, hhigh⟩ := sample_mem v.settings v.captured n ch
    rw [hwritten]
    exact ⟨rfl, hlow, hhigh⟩
  · have hn16 := n.isLt
    have hframes : ¬n.val < v.frames := by omega
    unfold output
    rw [Block.get_overwrite, if_neg hframes]

end Mixer

end DuplexAudio
