/-
  Transfer interrupts and the failures of the serial link.

  A transfer channel reports what it did in a word of flags.  `TransferFlags.completed` turns the
  flags of one interrupt into the half that was completed, or into an error of the channel's
  direction.
-/
import DuplexAudio.Block

namespace DuplexAudio

/-- Direction of a transfer channel. -/
inductive Direction where
  /-- Receive: from the serial interface to memory. -/
  | rx
  /-- Transmit: from memory to the serial interface. -/
  | tx
  deriving DecidableEq, Repr, Inhabited

/-- The short name of a direction. -/
def Direction.label : Direction → String
  | rx => "rx"
  | tx => "tx"

/-- Failures of the serial link. -/
inductive LinkFailure where
  /-- The frame layout cannot be programmed, for the stated reason. -/
  | invalidConfig (reason : String)
  /-- The link was started before it was configured. -/
  | notConfigured
  /-- The link accepted the start but is not clocking. -/
  | notRunning
  | dma (direction : Direction)
  deriving DecidableEq, Repr

/-- The text of a link failure. -/
def LinkFailure.message : LinkFailure → String
  | invalidConfig reason => "invalid TDM configuration: " ++ reason
  | notConfigured => "transport not configured"
  | notRunning => "transport did not start"
  | dma direction => direction.label ++ " DMA error"

/-- Flags of one transfer interrupt. -/
structure TransferFlags where
  /-- The flag word, with nothing but known flags set. -/
  bits : UInt32
  deriving DecidableEq, Repr

namespace TransferFlags

/-- The first half was transferred. -/
def halfTransfer : UInt32 := 0x01

/-- The second half was transferred and the channel wraps. -/
def transferComplete : UInt32 := 0x02

/-- Transfer, buffer and direct-mode errors. -/
def errors : UInt32 := 0x1c

/-- Every known flag. -/
def known : UInt32 := 0x1f

/-- The known flags of a word. -/
def ofBits (raw : UInt32) : TransferFlags := ⟨raw &&& known⟩

/-- The flags of a word, if it has no unknown ones. -/
def ofBits? (raw : UInt32) : Option TransferFlags :=
  if raw &&& ~~~known = 0 then some ⟨raw⟩ else none

/-- The half that an interrupt of the given direction completed, if any.  An error wins over
everything, the first half over the second. -/
def completed (s : TransferFlags) (direction : Direction) : Except LinkFailure (Option Half) :=
  if s.bits &&& errors ≠ 0 then .error (.dma direction)
  else if s.bits &&& halfTransfer ≠ 0 then .ok (some .first)
  else if s.bits &&& transferComplete ≠ 0 then .ok (some .second)
  else .ok none

end TransferFlags

/-- One transfer interrupt. -/
structure Interrupt where
  direction : Direction
  flags : TransferFlags
  deriving DecidableEq, Repr

end DuplexAudio
