/-
  The playback converter.

  It has no registers to set.  All that software can do is drive its mute line, which is active low;
  boards without the line leave muting to the master volume.  `muted` tells what the line was last
  driven to: it changes only with a drive that succeeded.
-/
import DuplexAudio.Device

namespace DuplexAudio

/-- A logic line, known by whether it can be driven. -/
class OutputLine (π : Type) where
  /-- Drive the line to a level; says whether it took it. -/
  drive : Level → π → Bool × π

/-- A playback converter on a mute line, if there is one. -/
structure PlaybackConverter (π : Type) where
  line : Option π
  muted : Bool

namespace PlaybackConverter

variable {π : Type} [OutputLine π]

/-- The level that mutes or unmutes. -/
def muteLevel (mute : Bool) : Level := if mute then .low else .high

/-- Drives the mute line.  A drive that fails changes neither the line nor the flag. -/
def drive (d : PlaybackConverter π) (mute : Bool) : Reply (PlaybackConverter π) CodecFailure :=
  match d.line with
  | none => { result := .ok (), device := { d with muted := mute } }
  | some line =>
    match OutputLine.drive (muteLevel mute) line with
    | (true, line) =>
      { result := .ok ()
        device := { line := some line, muted := mute }
        wires := [.pin (.drive (muteLevel mute))] }
    | (false, line) =>
      { result := .error .gpio, device := { d with line := some line }, wires := [.pin .fault] }

/-- A converter whose muting is left to software. -/
def withoutLine : PlaybackConverter π := ⟨none, true⟩

/-- Takes the mute line and mutes at once, so that nothing plays before streaming. -/
def onLine (line : π) : Reply (PlaybackConverter π) CodecFailure :=
  drive { line := some line, muted := true } true

/-- The converter as a codec: its boot state is muted, and there is nothing to configure. -/
instance : Codec (PlaybackConverter π) where
  init d := d.drive true
  configure d := { result := .ok (), device := d }
  setMute mute d := d.drive mute

end PlaybackConverter

end DuplexAudio
