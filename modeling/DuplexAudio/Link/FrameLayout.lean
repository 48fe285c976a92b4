/-
  Frame layout and clocks of the serial bus.

  The receiver is the master of the bus: it divides its kernel clock down to the master clock of
  the converters and drives the bit clock.  `FrameLayout.flaw?` finds the first reason why a layout
  cannot be programmed.  The values derived from a layout saturate, so that they are defined for a
  layout that was refused too.
-/
import DuplexAudio.Link.Interrupt

namespace DuplexAudio

/-- Product of two words, held in range. -/
def saturatingMul (a b : UInt32) : UInt32 := UInt32.ofNatClamp (a.toNat * b.toNat)

/-- Most slots that a frame can have. -/
def maxSlots : UInt32 := 16

/-- Layout and clocks of a frame. -/
structure FrameLayout where
  kernelClockHz : UInt32 := 49152000
  masterClockHz : UInt32 := 256 * sampleRateHz
  /-- Frames per second. -/
  rateHz : UInt32 := sampleRateHz
  /-- Bits of a slot on the wire. -/
  slotWidth : UInt32 := slotBits
  /-- Significant bits of a sample inside its slot. -/
  dataWidth : UInt32 := sampleBits
  rxSlots : UInt32 := 8
  txSlots : UInt32 := 4
  deriving DecidableEq, Repr

instance : Inhabited FrameLayout := ⟨{}⟩

/-- Reasons why a layout cannot be programmed, in the order in which they are looked for. -/
inductive LayoutFlaw where
  | slotWidth
  | dataWidth
  | slotCount
  | stoppedClock
  | kernelClock
  | masterClock
  | bitClock
  deriving DecidableEq, Repr

/-- The text of a flaw. -/
def LayoutFlaw.reason : LayoutFlaw → String
  | slotWidth => "slot width must be 16 or 32 bits"
  | dataWidth => "data wider than slot"
  | slotCount => "slot count out of range"
  | stoppedClock => "zero clock"
  | kernelClock => "kernel clock not divisible into MCLK"
  | masterClock => "MCLK not a multiple of the sample rate"
  | bitClock => "bit clock faster than MCLK"

namespace FrameLayout

/-- Slots of a frame in one direction. -/
def slots (c : FrameLayout) : Direction → UInt32
  | .rx => c.rxSlots
  | .tx => c.txSlots

/-- Length of a frame, in bit clocks. -/
def frameBits (c : FrameLayout) (d : Direction) : UInt32 := saturatingMul (c.slots d) c.slotWidth

/-- Active length of the frame sync: half the frame. -/
def syncBits (c : FrameLayout) (d : Direction) : UInt32 := c.frameBits d / 2

/-- One bit for each active slot, slot 0 in bit 0; all ones beyond sixteen slots. -/
def slotMask (c : FrameLayout) (d : Direction) : UInt16 :=
  if maxSlots < c.slots d then 0xffff else ((1 <<< c.slots d) - 1).toUInt16

/-- Value of the clock divider field: the kernel clock divided by one more than this is the master
clock. -/
def clockDivider (c : FrameLayout) : UInt32 :=
  if c.masterClockHz = 0 then 0
  else
    let ratio := c.kernelClockHz / c.masterClockHz
    if ratio = 0 then 0 else ratio - 1

/-- Bit clock that the receiver drives, in hertz. -/
def bitClockHz (c : FrameLayout) : UInt32 := saturatingMul c.rateHz (c.frameBits .rx)

/-- Whether a slot count can be programmed. -/
def slotCountOk (n : UInt32) : Bool := n ≠ 0 && n ≤ maxSlots

/-- The first reason why the layout cannot be programmed. -/
def flaw? (c : FrameLayout) : Option LayoutFlaw :=
  if c.slotWidth ≠ 16 ∧ c.slotWidth ≠ 32 then some .slotWidth
  else if c.dataWidth = 0 ∨ c.slotWidth < c.dataWidth then some .dataWidth
  else if ¬(slotCountOk c.rxSlots ∧ slotCountOk c.txSlots) then some .slotCount
  else if c.rateHz = 0 ∨ c.masterClockHz = 0 then some .stoppedClock
  else if c.kernelClockHz < c.masterClockHz ∨ c.kernelClockHz % c.masterClockHz ≠ 0 then
    some .kernelClock
  else if c.masterClockHz % c.rateHz ≠ 0 then some .masterClock
  else if c.masterClockHz < c.bitClockHz then some .bitClock
  else none

/-- Accepts a layout that can be programmed. -/
def validate (c : FrameLayout) : Except LinkFailure Unit :=
  match c.flaw? with
  | none => .ok ()
  | some flaw => .error (.invalidConfig flaw.reason)

end FrameLayout

end DuplexAudio
