/-
  A front end: a capture side and a playback side, controlled as one codec.

  Bring-up and configuration run on the capture side first and stop there if it fails.  Muting acts
  on the playback side only, since that is what is heard.
-/
import DuplexAudio.Device

namespace DuplexAudio

/-- A capture side and a playback side. -/
structure FrontEnd (α δ : Type) where
  capture : α
  playback : δ

namespace FrontEnd

variable {α δ : Type} [Codec α] [Codec δ]

/-- Passes a call on to the capture side. -/
def onCapture (f : FrontEnd α δ) (call : CodecCall) : Reply (FrontEnd α δ) CodecFailure :=
  let r := Codec.call call f.capture
  { result := r.result
    device := { f with capture := r.device }
    wires := .passed .capture call :: r.wires
    interrupts := r.interrupts }

/-- Passes a call on to the playback side. -/
def onPlayback (f : FrontEnd α δ) (call : CodecCall) : Reply (FrontEnd α δ) CodecFailure :=
  let r := Codec.call call f.playback
  { result := r.result
    device := { f with playback := r.device }
    wires := .passed .playback call :: r.wires
    interrupts := r.interrupts }

/-- Passes a call on to both sides, capture first; a failure there leaves playback alone. -/
def onBoth (f : FrontEnd α δ) (call : CodecCall) : Reply (FrontEnd α δ) CodecFailure :=
  let first := f.onCapture call
  match first.result with
  | .error _ => first
  | .ok () =>
    let second := first.device.onPlayback call
    { second with
      wires := first.wires ++ second.wires
      interrupts := first.interrupts ++ second.interrupts }

/-- The front end as a codec. -/
instance : Codec (FrontEnd α δ) where
  init f := f.onBoth .init
  configure f := f.onBoth .configure
  setMute mute f := f.onPlayback (.setMute mute)

end FrontEnd

end DuplexAudio
