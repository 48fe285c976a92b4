/-
  The engine's state: devices, stream, worker and journal, and how it takes in interrupts.

  The devices are arbitrary (`Codec`, `SerialLink`), and so are the processor and the hooks.  The
  system may refuse a thread for the worker.  An operation takes an engine to an engine; what it did
  on the way is appended to the journal.

  A wake-up of the worker is one flag: while one is pending, further ones change nothing.
-/
import DuplexAudio.Engine.Journal

namespace DuplexAudio

/-- The thread that runs the blocks. -/
inductive Worker where
  | absent
  /-- It sleeps until it is woken. -/
  | idle
  /-- It is inside a block, before the call of the processor. -/
  | inBlock (block : Stream.OpenBlock)
  /-- It unwound and was not joined yet. -/
  | dead
  deriving DecidableEq

/-- Whether there is a worker to be joined, alive or dead. -/
def Worker.isHeld : Worker → Bool
  | absent => false
  | idle | inBlock _ | dead => true

/-- An engine with codec `σ`, link `τ`, processor `π` and cartridge hooks `η`. -/
structure Engine (σ τ π η : Type) where
  codec : σ
  link : τ
  processor : π
  bay : CartridgeBay η := {}
  /-- The layout that the next `init` programs. -/
  config : FrameLayout := {}
  /-- What interrupts and worker share. -/
  stream : Stream := {}
  state : Lifecycle := .stopped
  /-- Whether the devices were brought up. -/
  initialized : Bool := false
  worker : Worker := .absent
  wake : Bool := false
  /-- Wake-ups posted since the engine was built. -/
  signals : UInt32 := 0
  /-- Why the system gives no thread, as long as it gives none. -/
  threadRefusal : Option String := none
  journal : Journal := []

namespace Engine

variable {σ τ π η : Type}

/-! ## Keeping the journal -/

/-- Appends one event. -/
def record (e : Engine σ τ π η) (event : EngineEvent) : Engine σ τ π η :=
  { e with journal := e.journal ++ [event] }

/-- Appends what happened on the stream. -/
def recordStream (e : Engine σ τ π η) (events : List StreamEvent) : Engine σ τ π η :=
  { e with journal := e.journal ++ events.map EngineEvent.stream }

/-- Logs a record. -/
def log (e : Engine σ τ π η) (n : Notice) : Engine σ τ π η := e.record (.notice n)

/-! ## Interrupts -/

/-- Takes in one transfer interrupt.  A ready pair posts a wake-up; an error puts the engine at
fault. -/
def deliver (e : Engine σ τ π η) (event : Interrupt) : InterruptOutcome × Engine σ τ π η :=
  let (outcome, stream) := e.stream.onInterrupt event
  let e := { e with stream }
  match outcome with
  | .idle => (outcome, e)
  | .pairReady _ => (outcome, { e with signals := e.signals + 1, wake := true })
  | .fault _ => (outcome, { e with state := e.state.afterError })

/-- Takes in the interrupts that arrived during a device call. -/
def absorb (e : Engine σ τ π η) (events : List Interrupt) : Engine σ τ π η :=
  events.foldl (fun e event =>
    let (outcome, e) := e.deliver event
    e.record (.interrupt outcome e.state)) e

end Engine

end DuplexAudio
