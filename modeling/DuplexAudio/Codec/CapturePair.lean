/-
  Two quad capture converters on one control bus.

  Both run as slaves of the serial bus; chip 0 feeds the slots of the first register table and chip
  1 those of the second, so that the eight captured slots are the four stereo tracks.

  `configure` switches the converter blocks off, starts the clocks, waits until both report lock,
  assigns the slots and only then switches the blocks on.  Nothing reaches the serial bus while the
  clocks settle.
-/
import DuplexAudio.Codec.ControlBus

namespace DuplexAudio

/-! ## Registers -/

namespace Register

/-- Master power. -/
def power : UInt8 := 0x00

/-- Clock multiplier control; bit 7 reads as the lock flag. -/
def clock : UInt8 := 0x01

/-- Second clock multiplier register. -/
def clock2 : UInt8 := 0x02

/-- Third clock multiplier register. -/
def clock3 : UInt8 := 0x03

/-- Power of the converter blocks. -/
def blockPower : UInt8 := 0x04

/-- Serial interface control. -/
def serial : UInt8 := 0x05

/-- The four slot registers: slot in bits 7 to 4, channel in bits 3 to 0. -/
def slots : List UInt8 := [0x07, 0x08, 0x09, 0x0a]

/-- Miscellaneous control, with the capture mute. -/
def misc : UInt8 := 0x0f

/-- Identification. -/
def identity : UInt8 := 0xf0

end Register

/-- One of the two converters. -/
inductive Chip where
  | chip0
  | chip1
  deriving DecidableEq, Repr

namespace Chip

/-- Address of a converter on the control bus. -/
def address : Chip → UInt8
  | chip0 => 0x11
  | chip1 => 0x12

/-- What a converter's slot registers are set to. -/
def slotMap : Chip → List UInt8
  | chip0 => [0x00, 0x21, 0x42, 0x63]
  | chip1 => [0x10, 0x31, 0x52, 0x73]

/-- The converter at an address. -/
def ofAddress? (address : UInt8) : Option Chip :=
  if address = 0x11 then some chip0 else if address = 0x12 then some chip1 else none

end Chip

/-- What the identification register of a converter holds. -/
def expectedIdentity : UInt8 := 0x79

/-- Master power on. -/
def masterPower : UInt8 := 0x01

/-- The lock flag of the clock register. -/
def lockFlag : UInt8 := 0x80

/-- Mute while unlocked; master clock 256 times the rate. -/
def clockSetting : UInt8 := 0x41

/-- Slot mode with 24-bit words. -/
def serialSetting : UInt8 := 0x48

/-- All converter blocks on. -/
def allBlocks : UInt8 := 0x0f

/-- The unmute flag of the miscellaneous register. -/
def unmuteFlag : UInt8 := 0x04

/-! ## The two converters as one codec -/

/-- Two capture converters on a bus. -/
structure CapturePair (β : Type) where
  /-- The bus that both answer on. -/
  bus : β

namespace CapturePair

variable {β : Type} [ControlBus β]

/-- One register of both converters set to the same value. -/
def broadcast (register value : UInt8) : List (UInt8 × UInt8 × UInt8) :=
  [(Chip.chip0.address, register, value), (Chip.chip1.address, register, value)]

/-- The slot registers of one converter. -/
def slotWrites (chip : Chip) : List (UInt8 × UInt8 × UInt8) :=
  (Register.slots.zip chip.slotMap).map fun (register, value) => (chip.address, register, value)

/-- What is written before the clocks are waited for: blocks off, then power and clocks. -/
def clockWrites : List (UInt8 × UInt8 × UInt8) :=
  broadcast Register.blockPower 0 ++ broadcast Register.power masterPower
    ++ broadcast Register.clock clockSetting ++ broadcast Register.clock2 0
    ++ broadcast Register.clock3 0

/-- What is written once the clocks have locked: the serial interface and the slots, then the blocks
on and the capture unmuted. -/
def streamWrites : List (UInt8 × UInt8 × UInt8) :=
  broadcast Register.serial serialSetting ++ slotWrites .chip0 ++ slotWrites .chip1
    ++ broadcast Register.blockPower allBlocks ++ broadcast Register.misc unmuteFlag

/-- Whether one converter reports lock. -/
def isLocked (chip : Chip) : BusProgram β Bool := do
  let value ← BusProgram.read chip.address Register.clock
  return value &&& lockFlag ≠ 0

/-- Whether both converters report lock; the second is not asked if the first does not. -/
def bothLocked : BusProgram β Bool := do
  if ← isLocked .chip0 then isLocked .chip1 else return false

/-- Polls for lock once a millisecond, `budget` times and once more at the end. -/
def waitLocked : Nat → BusProgram β Unit
  | 0 => do
    if ← bothLocked then return () else BusProgram.fail .clockLockTimeout
  | budget + 1 => do
    if ← bothLocked then return ()
    else
      BusProgram.pause 1
      waitLocked budget

/-- Checks one converter's identity. -/
def identify (chip : Chip) : BusProgram β Unit := do
  let found ← BusProgram.read chip.address Register.identity
  if found = expectedIdentity then return ()
  else BusProgram.fail (.wrongIdentity chip.address found)

/-- Checks that both converters are what they should be. -/
def initProgram : BusProgram β Unit := do
  identify .chip0
  identify .chip1

/-- Brings both converters up for streaming. -/
def configureProgram : BusProgram β Unit := do
  BusProgram.writeAll clockWrites
  waitLocked lockTimeoutMs
  BusProgram.writeAll streamWrites

/-- The miscellaneous register with the capture muted or not. -/
def withMute (mute : Bool) (misc : UInt8) : UInt8 :=
  if mute then misc &&& ~~~unmuteFlag else misc ||| unmuteFlag

/-- Mutes or unmutes the capture of one converter. -/
def muteChip (mute : Bool) (chip : Chip) : BusProgram β Unit := do
  let misc ← BusProgram.read chip.address Register.misc
  BusProgram.write chip.address Register.misc (withMute mute misc)

/-- Runs two programs one after the other, the second also if the first fails, and reports the
first failure. -/
def bothAttempted (first second : BusProgram β Unit) : BusProgram β Unit := fun wire =>
  let (r0, wire) := first wire
  let (r1, wire) := second wire
  match r0 with
  | .ok () => (r1, wire)
  | .error e => (.error e, wire)

/-- Mutes or unmutes the capture of both converters. -/
def muteCaptureProgram (mute : Bool) : BusProgram β Unit :=
  bothAttempted (muteChip mute .chip0) (muteChip mute .chip1)

/-- Runs a program on the pair's bus, keeping its value, the pair and what was done. -/
def run {α : Type} (p : CapturePair β) (program : BusProgram β α) :
    Except CodecFailure α × CapturePair β × List WireEvent :=
  let (result, wire) := program.exec p.bus
  (result, ⟨wire.bus⟩, wire.events.map .bus)

/-- The answer of a codec whose call is a program on the bus. -/
def reply (p : CapturePair β) (program : BusProgram β Unit) : Reply (CapturePair β) CodecFailure :=
  let (result, device, wires) := p.run program
  { result, device, wires }

/-- The pair as a codec.  The output mute is not here but on the playback side, so that capture
stays live for metering while the output is muted. -/
instance : Codec (CapturePair β) where
  init p := p.reply initProgram
  configure p := p.reply configureProgram
  setMute _ p := { result := .ok (), device := p }

end CapturePair

end DuplexAudio
