/-
  What happens on the wires between a codec driver and its converters.

  A driver talks to its converters over a control bus with registers and over a mute line.  Every
  transaction, drive and pause that it makes leaves one `WireEvent`, in the order in which they were
  made, failed ones included.
-/

namespace DuplexAudio

/-- Kinds of failure of a control bus. -/
inductive BusFault where
  | bus
  | arbitrationLoss
  | nackAddress
  | nackData
  | nackUnknown
  | overrun
  | other
  deriving DecidableEq, Repr, Inhabited

namespace BusFault

/-- The text of a bus failure. -/
def message : BusFault → String
  | bus => "Bus error occurred"
  | arbitrationLoss => "The arbitration was lost"
  | nackAddress => "The device did not acknowledge its address"
  | nackData => "The device did not acknowledge the data"
  | nackUnknown => "The device did not acknowledge its address or the data"
  | overrun => "The peripheral receive buffer was overrun"
  | other => "A different error occurred. The original error may contain more information"

/-- Whether the failure means that nobody answered. -/
def isNack : BusFault → Bool
  | nackAddress | nackData | nackUnknown => true
  | bus | arbitrationLoss | overrun | other => false

end BusFault

/-- Level of a logic line. -/
inductive Level where
  | low
  | high
  deriving DecidableEq, Repr

/-- One thing that a driver did on its control bus. -/
inductive BusEvent where
  | write (address register value : UInt8)
  | read (address register value : UInt8)
  | fault (address : UInt8) (kind : BusFault)
  | pause (milliseconds : Nat)
  deriving DecidableEq, Repr

/-- One drive of a mute line. -/
inductive PinEvent where
  | drive (level : Level)
  /-- The line could not be driven and kept its level. -/
  | fault
  deriving DecidableEq, Repr

/-- What may be asked of a codec. -/
inductive CodecCall where
  | init
  | configure
  | setMute (mute : Bool)
  deriving DecidableEq, Repr

/-- The two sides of a front end. -/
inductive ConverterSide where
  | capture
  | playback
  deriving DecidableEq, Repr

/-- One thing that happened below a codec. -/
inductive WireEvent where
  /-- On the control bus. -/
  | bus (event : BusEvent)
  /-- On the mute line. -/
  | pin (event : PinEvent)
  /-- A call was passed on to one side of a front end. -/
  | passed (side : ConverterSide) (call : CodecCall)
  deriving DecidableEq, Repr

end DuplexAudio
