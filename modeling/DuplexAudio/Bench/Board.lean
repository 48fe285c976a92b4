/-
  A test board: two capture converters with plain register files, and a mute line.

  Transactions on the bus and drives of the line are counted, and a schedule says which of them
  fail.  The clock register of a converter shows the lock flag from a given read on, whatever was
  written there.
-/
import DuplexAudio.Codec.CapturePair
import DuplexAudio.Codec.FrontEnd
import DuplexAudio.Codec.PlaybackConverter

namespace DuplexAudio.Bench

/-- A register file. -/
abbrev Registers := UInt8 → UInt8

/-- The registers with one of them changed. -/
def Registers.set (r : Registers) (register value : UInt8) : Registers :=
  fun k => if k = register then value else r k

/-- Both converters on their bus. -/
structure Board where
  /-- The register file of each converter; all zero at first but for the identification. -/
  registers : Chip → Registers :=
    fun _ register => if register = Register.identity then expectedIdentity else 0
  /-- How many reads of the clock register come before a converter reports lock, if it ever does. -/
  lockAfter : Chip → Option Nat := fun _ => some 0
  /-- Reads of the clock register so far. -/
  clockReads : Chip → Nat := fun _ => 0
  /-- An address that does not answer. -/
  absent : Option UInt8 := none
  /-- The transactions that fail, by number. -/
  faults : List (Nat × BusFault) := []
  /-- Transactions so far, failed ones included. -/
  transactions : Nat := 0

namespace Board

instance : Inhabited Board := ⟨{}⟩

/-- The converter that answers at an address. -/
def answering (b : Board) (address : UInt8) : Except BusFault Chip :=
  if b.absent = some address then .error .nackAddress
  else
    match Chip.ofAddress? address with
    | some chip => .ok chip
    | none => .error .nackAddress

/-- One transaction: it fails if the schedule says so or nobody answers. -/
def transact {α : Type} (b : Board) (address : UInt8) (f : Board → Chip → α × Board) :
    Except BusFault α × Board :=
  let scheduled := b.faults.lookup b.transactions
  let b := { b with transactions := b.transactions + 1 }
  match scheduled with
  | some fault => (.error fault, b)
  | none =>
    match b.answering address with
    | .error fault => (.error fault, b)
    | .ok chip =>
      let (a, b) := f b chip
      (.ok a, b)

/-- The board with one register changed. -/
def setRegister (b : Board) (chip : Chip) (register value : UInt8) : Board :=
  { b with
    registers := fun k => if k = chip then (b.registers k).set register value else b.registers k }

/-- What a read of a register shows, and the board after it. -/
def show? (b : Board) (chip : Chip) (register : UInt8) : UInt8 × Board :=
  let stored := b.registers chip register
  if register = Register.clock then
    let reads := b.clockReads chip + 1
    let locked := (b.lockAfter chip).any (· < reads)
    (if locked then stored ||| lockFlag else stored &&& ~~~lockFlag,
      { b with clockReads := fun k => if k = chip then reads else b.clockReads k })
  else (stored, b)

instance : ControlBus Board where
  write address register value b :=
    b.transact address fun b chip => ((), b.setRegister chip register value)
  read address register b := b.transact address fun b chip => b.show? chip register
  pause _ b := b

/-- The registers of a converter that are not zero, in order. -/
def nonzero (b : Board) (chip : Chip) : List (UInt8 × UInt8) :=
  ((List.range 256).map fun n => (n.toUInt8, b.registers chip n.toUInt8)).filter (·.2 ≠ 0)

end Board

/-- The mute line of a board. -/
structure MuteLine where
  level : Option Level := none
  /-- The drives that fail, by number. -/
  faults : List Nat := []
  /-- Drives so far, failed ones included. -/
  drives : Nat := 0

instance : OutputLine MuteLine where
  drive level line :=
    let failed := line.faults.contains line.drives
    let line := { line with drives := line.drives + 1 }
    if failed then (false, line) else (true, { line with level := some level })

/-- The capture side of a test board. -/
abbrev BoardCapture := CapturePair Board

/-- The playback side of a test board. -/
abbrev BoardPlayback := PlaybackConverter MuteLine

/-- The converters of a test board. -/
abbrev BoardFrontEnd := FrontEnd BoardCapture BoardPlayback

/-- The milliseconds that were waited in a list of events. -/
def pausedMs (events : List WireEvent) : Nat :=
  let pauses := events.map fun
    | .bus (.pause milliseconds) => milliseconds
    | _ => 0
  pauses.foldl (· + ·) 0

end DuplexAudio.Bench
