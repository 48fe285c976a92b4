/-
  Programs on a control bus.

  A bus is known by how it answers a write, a read and a pause.  A program on it is a sequence of
  such requests in which a failed transaction ends the program; everything it did is kept as a list
  of events, so that what was sent can be told from what the converters made of it.
-/
import DuplexAudio.Device

namespace DuplexAudio

/-- A control bus with registers, known by how it answers. -/
class ControlBus (β : Type) where
  write : UInt8 → UInt8 → UInt8 → β → Except BusFault Unit × β
  read : UInt8 → UInt8 → β → Except BusFault UInt8 × β
  /-- Let a number of milliseconds pass. -/
  pause : Nat → β → β

/-- A bus together with what was done on it. -/
structure Wire (β : Type) where
  bus : β
  /-- What was done, oldest first. -/
  events : List BusEvent := []

/-- A program on a bus: it may fail, and keeps what it did up to there. -/
abbrev BusProgram (β α : Type) : Type := ExceptT CodecFailure (StateM (Wire β)) α

namespace BusProgram

variable {β α : Type}

/-- What a program makes of a bus: its result, the bus afterwards, and what it did. -/
def exec (p : BusProgram β α) (bus : β) : Except CodecFailure α × Wire β :=
  StateT.run (ExceptT.run p) { bus }

/-- The outcome of one transaction, as an event. -/
def record (address : UInt8) (done : α → BusEvent) : Except BusFault α → BusEvent
  | .ok a => done a
  | .error fault => .fault address fault

/-- One transaction: it is recorded whether it succeeds or not, and a failure ends the program. -/
def transact (address : UInt8) (request : β → Except BusFault α × β) (done : α → BusEvent) :
    BusProgram β α := fun wire =>
  let (answer, bus) := request wire.bus
  let wire : Wire β := { bus, events := wire.events ++ [record address done answer] }
  match answer with
  | .ok a => (.ok a, wire)
  | .error fault => (.error (.ofBusFault fault), wire)

variable [ControlBus β]

/-- Writes one register. -/
def write (address register value : UInt8) : BusProgram β Unit :=
  transact address (ControlBus.write address register value) fun _ => .write address register value

/-- Reads one register. -/
def read (address register : UInt8) : BusProgram β UInt8 :=
  transact address (ControlBus.read address register) fun value => .read address register value

/-- Waits. -/
def pause (milliseconds : Nat) : BusProgram β Unit := fun wire =>
  (.ok (), {
    bus := ControlBus.pause milliseconds wire.bus
    events := wire.events ++ [.pause milliseconds] })

/-- Fails. -/
def fail (e : CodecFailure) : BusProgram β α := fun wire => (.error e, wire)

/-- Writes a list of registers, in order, up to the first failure. -/
def writeAll : List (UInt8 × UInt8 × UInt8) → BusProgram β Unit
  | [] => pure ()
  | (address, register, value) :: rest => do
    write address register value
    writeAll rest

end BusProgram

end DuplexAudio
