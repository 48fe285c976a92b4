/-
  The life cycle of an engine.

      stopped --init--> ready --start--> running --stop--> ready
                          |                 |
                          +---- a failure --+--> fault          (left only through init)

  Every start mutes first, configures the converters, arms the stream, starts the link and creates
  the worker, and unmutes only once the engine is running.  Every halt mutes first, disarms the
  stream, stops the link and joins the worker.  A failure on the way puts the engine at fault.

  What the worker owns, the cartridge bay and the processor, can be changed only while there is no
  worker.
-/
import DuplexAudio.Engine.Worker

namespace DuplexAudio

namespace Engine

variable {σ τ π η : Type}

/-! ## Calls on the devices -/

section Codec

variable [Codec σ]

/-- One call on the codec. -/
def callCodec (e : Engine σ τ π η) (call : CodecCall) : Except CodecFailure Unit × Engine σ τ π η :=
  let r := Codec.call call e.codec
  let e := e.record (.codec call e.state)
  let e := { e with codec := r.device, journal := e.journal ++ r.wires.map EngineEvent.wire }
  (r.result, e.absorb r.interrupts)

/-- Mutes or unmutes the output; a failure is logged and nothing more. -/
def mute (e : Engine σ τ π η) (mute : Bool) : Engine σ τ π η :=
  match e.callCodec (.setMute mute) with
  | (.ok (), e) => e
  | (.error cause, e) => e.log (.muteFailed mute cause)

end Codec

section Link

variable [SerialLink τ]

/-- Whether the link is clocking. -/
def linkRunning (e : Engine σ τ π η) : Bool := SerialLink.isRunning e.link

/-- The engine after the link answered a call. -/
def answered (e : Engine σ τ π η) (call : LinkCall) (r : Reply τ LinkFailure) :
    Except LinkFailure Unit × Engine σ τ π η :=
  let e := e.record (.link call)
  let e := { e with link := r.device, journal := e.journal ++ r.wires.map EngineEvent.wire }
  (r.result, e.absorb r.interrupts)

/-- Programs the layout. -/
def configureLink (e : Engine σ τ π η) : Except LinkFailure Unit × Engine σ τ π η :=
  e.answered .configure (SerialLink.configure e.config e.link)

/-- Arms the channels. -/
def startLink (e : Engine σ τ π η) : Except LinkFailure Unit × Engine σ τ π η :=
  e.answered .start (SerialLink.start e.link)

/-- Disarms the channels. -/
def stopLink (e : Engine σ τ π η) : Engine σ τ π η :=
  { e with link := SerialLink.stop e.link }.record (.link .stop)

end Link

/-! ## The life cycle -/

/-- Changes the stream. -/
def mapStream (e : Engine σ τ π η) (f : Stream → Stream) : Engine σ τ π η :=
  { e with stream := f e.stream }

/-- Resets the stream. -/
def resetStream (e : Engine σ τ π η) : Engine σ τ π η :=
  (e.mapStream Stream.reset).recordStream Stream.resetEvents

/-- Puts the engine at fault. -/
def fail (e : Engine σ τ π η) (cause : EngineFailure) : Engine σ τ π η :=
  { e.log (.fault cause) with state := .fault }

/-- Puts the engine at fault and answers why. -/
def refuse (e : Engine σ τ π η) (cause : EngineFailure) :
    Except EngineFailure Unit × Engine σ τ π η :=
  (.error cause, e.fail cause)

/-- Disarms the stream, stops the link, puts the engine at fault and answers why: how a start gives
up while there is no worker. -/
def retract [SerialLink τ] (e : Engine σ τ π η) (cause : EngineFailure) :
    Except EngineFailure Unit × Engine σ τ π η :=
  ((e.mapStream (·.setArmed false)).stopLink).refuse cause

section Lifecycle

variable [Codec σ] [SerialLink τ] [Processor π] [CartridgeHook η]

/-- Mutes, stops the link and ends the worker.  Nothing to do when nothing is streaming. -/
def halt (e : Engine σ τ π η) : Engine σ τ π η :=
  if ¬e.worker.isHeld ∧ ¬e.linkRunning then e
  else (((e.mute true).mapStream (·.setArmed false)).stopLink).join

/-- Brings the devices up, without the halt before it. -/
def bringUp (e : Engine σ τ π η) : Except EngineFailure Unit × Engine σ τ π η :=
  match e.callCodec .init with
  | (.error cause, e) => e.refuse (.ofCodec cause)
  | (.ok (), e) =>
    match e.configureLink with
    | (.error cause, e) => e.refuse (.transport cause)
    | (.ok (), e) =>
      let e := e.resetStream.mapStream fun s => (s.mapSettings fun _ => .unity).clearCounters
      let e := { e with bay := e.bay.clear, initialized := true, state := .ready }
      (.ok (), e.log (.ready e.config))

/-- Identifies the converters, programs the link, silences the buffers and restores the default mix.
Nothing to do if that was done before, unless the engine is at fault. -/
def init (e : Engine σ τ π η) : Except EngineFailure Unit × Engine σ τ π η :=
  if e.initialized ∧ e.state ≠ .fault then (.ok (), e) else e.halt.bringUp

/-- The last part of a start: with the worker there and the link clocking, the engine runs unless an
interrupt reported an error meanwhile. -/
def promote (e : Engine σ τ π η) : Except EngineFailure Unit × Engine σ τ π η :=
  if ¬e.linkRunning then e.halt.refuse (.transport .notRunning)
  else if e.stream.fault.isNone ∧ e.state = .ready then
    (.ok (), ({ e with state := .running }.mute false).log .running)
  else
    let e := e.halt
    e.refuse (.transport (e.stream.failure?.getD .notRunning))

/-- The second part of a start: with the converters configured, resets and arms the stream, starts
the link and creates the worker. -/
def arm (e : Engine σ τ π η) : Except EngineFailure Unit × Engine σ τ π η :=
  match (e.resetStream.mapStream (·.setArmed true)).startLink with
  | (.error cause, e) => e.retract (.transport cause)
  | (.ok (), e) =>
    match e.spawn with
    | (.error cause, e) => e.retract cause
    | (.ok (), e) => e.promote

/-- The link refuses to start, or there is no thread for the worker, or the engine can be
promoted. -/
theorem arm_cases (e : Engine σ τ π η) :
    (∃ cause linked, (e.resetStream.mapStream (·.setArmed true)).startLink = (.error cause, linked) ∧
        e.arm = linked.retract (.transport cause)) ∨
      ∃ linked, (e.resetStream.mapStream (·.setArmed true)).startLink = (.ok (), linked) ∧
        ((∃ spawned, linked.spawn = (.error .spawn, spawned) ∧ e.arm = spawned.retract .spawn) ∨
          ∃ spawned, linked.spawn = (.ok (), spawned) ∧ e.arm = spawned.promote) := by
  unfold arm
  split
  · next cause linked hlinked => exact .inl ⟨cause, linked, hlinked, rfl⟩
  · next linked hlinked =>
    refine .inr ⟨linked, hlinked, ?_⟩
    obtain ⟨-, hspawn⟩ | ⟨-, -, hspawn⟩ | ⟨_, -, -, hspawn⟩ := linked.spawn_cases
    · rw [hspawn]
      exact .inr ⟨_, rfl, rfl⟩
    · rw [hspawn]
      exact .inr ⟨_, rfl, rfl⟩
    · rw [hspawn]
      exact .inl ⟨_, rfl, rfl⟩

/-- A start of an engine that was brought up. -/
def startReady (e : Engine σ τ π η) : Except EngineFailure Unit × Engine σ τ π η :=
  if e.state = .fault then (.error .faulted, e.mute true)
  else
    match (e.mute true).callCodec .configure with
    | (.error cause, e) => e.refuse (.ofCodec cause)
    | (.ok (), e) => e.arm

/-- Configures the converters, arms both channels, creates the worker and unmutes.  Brings the
devices up first if that was not done; nothing to do while running. -/
def start (e : Engine σ τ π η) : Except EngineFailure Unit × Engine σ τ π η :=
  if e.state = .running then (.ok (), e)
  else if e.initialized then e.startReady
  else
    match e.init with
    | (.error cause, e) => (.error cause, e.mute true)
    | (.ok (), e) => e.startReady

/-- Stops streaming.  What was running is then ready; an engine at fault is halted and stays at
fault. -/
def stop (e : Engine σ τ π η) : Engine σ τ π η :=
  match e.state with
  | .stopped => e
  | .running => { e.halt with state := .ready }.log .stopped
  | .ready | .fault => e.halt

/-- The first part of a poll: a worker that ended while the engine was not at fault is a fault. -/
def noticeWorker (e : Engine σ τ π η) : Engine σ τ π η :=
  if e.worker = .dead ∧ e.state ≠ .fault then e.fail .workerExited else e

/-- Completes the halt after a fault that was raised by an interrupt or by the end of the worker.
Answers the state as it is then. -/
def poll (e : Engine σ τ π η) : Lifecycle × Engine σ τ π η :=
  let e := e.noticeWorker
  if e.state = .fault ∧ (e.worker.isHeld ∨ e.linkRunning) then
    let e := match e.stream.failure? with
      | some cause => e.log (.streamFault cause)
      | none => e
    (.fault, e.halt)
  else (e.state, e)

/-- Halts everything and forgets that it was brought up. -/
def teardown (e : Engine σ τ π η) : Engine σ τ π η :=
  { e.halt with initialized := false, state := .stopped }.log .tornDown

end Lifecycle

/-! ## What the worker owns -/

/-- Answers busy while there is a worker; otherwise does something to the engine. -/
def whileIdle {α : Type} (e : Engine σ τ π η) (f : Engine σ τ π η → α × Engine σ τ π η) :
    Except EngineFailure α × Engine σ τ π η :=
  if e.worker.isHeld then (.error .busy, e)
  else
    let (a, e) := f e
    (.ok a, e)

/-- Registers the pull hook, or removes it. -/
def registerPull (e : Engine σ τ π η) (hook : Option η) :
    Except EngineFailure Unit × Engine σ τ π η :=
  e.whileIdle fun e => ((), { e with bay := { e.bay with pull := hook } })

/-- Registers the push hook, or removes it. -/
def registerPush (e : Engine σ τ π η) (hook : Option η) :
    Except EngineFailure Unit × Engine σ τ π η :=
  e.whileIdle fun e => ((), { e with bay := { e.bay with push := hook } })

/-- Reads and changes the cartridge blocks. -/
def accessCartridges {α : Type} (e : Engine σ τ π η)
    (f : CartridgeAudio → CartridgeAudio → α × CartridgeAudio × CartridgeAudio) :
    Except EngineFailure α × Engine σ τ π η :=
  e.whileIdle fun e =>
    let (a, input, output) := f e.bay.input e.bay.output
    (a, { e with bay := { e.bay with input, output } })

/-- Reads and changes the processor. -/
def accessProcessor {α : Type} (e : Engine σ τ π η) (f : π → α × π) :
    Except EngineFailure α × Engine σ τ π η :=
  e.whileIdle fun e =>
    let (a, processor) := f e.processor
    (a, { e with processor })

end Engine

end DuplexAudio
