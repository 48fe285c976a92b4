/-
  The devices that an engine is built on: a codec and a serial link.

  Both are known only by how they answer.  A call takes the state of the device to a `Reply`: a
  result, the next state, what happened on the wires meanwhile, and the transfer interrupts that
  arrived while the call was running.  Nothing else is assumed, so a device may fail at any call, in
  any order, and may raise any interrupts.
-/
import DuplexAudio.Codec.Wire
import DuplexAudio.Link.FrameLayout

namespace DuplexAudio

/-- Failures of a codec. -/
inductive CodecFailure where
  | bus (fault : BusFault)
  | notResponding
  /-- The identification register held an unexpected value. -/
  | wrongIdentity (address found : UInt8)
  | clockLockTimeout
  | gpio
  deriving DecidableEq, Repr

/-- Two lower-case hexadecimal digits. -/
def hexByte (v : UInt8) : String :=
  let digit (n : Nat) : Char := Char.ofNat (if n < 10 then 48 + n else 87 + n)
  String.ofList [digit (v.toNat / 16), digit (v.toNat % 16)]

namespace CodecFailure

/-- Classifies a bus failure: where nobody acknowledged, nobody responds. -/
def ofBusFault (fault : BusFault) : CodecFailure :=
  if fault.isNack then notResponding else bus fault

/-- The text of a codec failure. -/
def message : CodecFailure → String
  | bus fault => "control bus error: " ++ fault.message
  | notResponding => "codec not responding"
  | wrongIdentity address found =>
    "unexpected device id 0x" ++ hexByte found ++ " at address 0x" ++ hexByte address
  | clockLockTimeout => "codec PLL did not lock"
  | gpio => "mute line error"

end CodecFailure

/-- How a device answers a call. -/
structure Reply (σ ε : Type) where
  /-- Success, or why not. -/
  result : Except ε Unit
  device : σ
  wires : List WireEvent := []
  /-- Transfer interrupts that arrived while the call was running. -/
  interrupts : List Interrupt := []

/-- A codec, known by how it answers. -/
class Codec (σ : Type) where
  /-- Check that the converters are present and are what they should be. -/
  init : σ → Reply σ CodecFailure
  /-- Program the streaming configuration and wait for the clocks. -/
  configure : σ → Reply σ CodecFailure
  /-- Mute or unmute the output. -/
  setMute : Bool → σ → Reply σ CodecFailure

/-- One call on a codec. -/
def Codec.call {σ : Type} [Codec σ] : CodecCall → σ → Reply σ CodecFailure
  | .init, d => Codec.init d
  | .configure, d => Codec.configure d
  | .setMute mute, d => Codec.setMute mute d

/-- A serial link with its two transfer channels, known by how it answers.  Interrupts are never
armed while a link is configured or stopped, so only a start can raise them. -/
class SerialLink (τ : Type) where
  /-- Program a frame layout. -/
  configure : FrameLayout → τ → Reply τ LinkFailure
  /-- Arm both channels and start the clocks. -/
  start : τ → Reply τ LinkFailure
  /-- Stop the clocks and both channels. -/
  stop : τ → τ
  /-- Whether the link is clocking. -/
  isRunning : τ → Bool

end DuplexAudio
