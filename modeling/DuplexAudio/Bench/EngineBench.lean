/-
  A bench for an engine: a codec that is scripted or a test board, a loopback link whose start can
  misbehave, and a worker that serves every wake-up at once unless it is held.

  A held worker stops inside its next block, before the call of the processor; until it is released,
  interrupts only change the stream and post at most one wake-up.  Every operation of the control
  side that may wait for the worker releases it first.
-/
import DuplexAudio.Bench.Board
import DuplexAudio.Bench.Instruments
import DuplexAudio.Engine.LifeCycle
import DuplexAudio.Link.Loopback

namespace DuplexAudio.Bench

/-! ## Devices -/

/-- A codec that answers as it is told to. -/
structure ScriptedCodec where
  /-- What the identification fails with. -/
  init : Option CodecFailure := none
  /-- What the configuration fails with. -/
  configure : Option CodecFailure := none
  /-- What muting and unmuting fail with. -/
  setMute : Option CodecFailure := none

/-- Failure if there is a cause, success otherwise. -/
def answer {σ : Type} (cause : Option CodecFailure) (device : σ) : Reply σ CodecFailure where
  result := match cause with
    | none => .ok ()
    | some cause => .error cause
  device := device

/-- The codec of a bench. -/
inductive BenchCodec where
  | scripted (codec : ScriptedCodec)
  | board (frontEnd : BoardFrontEnd)

instance : Codec ScriptedCodec where
  init c := answer c.init c
  configure c := answer c.configure c
  setMute _ c := answer c.setMute c

/-- One call on the codec of a bench. -/
def BenchCodec.call (call : CodecCall) : BenchCodec → Reply BenchCodec CodecFailure
  | scripted c =>
    let r := Codec.call call c
    { r with device := scripted r.device }
  | board f =>
    let r := Codec.call call f
    { r with device := board r.device }

instance : Codec BenchCodec where
  init := BenchCodec.call .init
  configure := BenchCodec.call .configure
  setMute mute := BenchCodec.call (.setMute mute)

/-- How a link starts. -/
inductive StartMode where
  /-- As it should. -/
  | plain
  /-- It accepts the start and does nothing. -/
  | dead
  /-- It starts, and raises interrupts before it returns. -/
  | raising (events : List Interrupt)
  /-- It starts, and stops again before it returns. -/
  | stalling
  deriving DecidableEq

/-- A loopback link whose start can misbehave. -/
structure BenchLink where
  loopback : Loopback Unit := {}
  mode : StartMode := .plain

/-- A start in a given mode. -/
def BenchLink.start (l : BenchLink) : Reply BenchLink LinkFailure :=
  if l.mode = .dead then { result := .ok (), device := l }
  else
    let (result, loopback) := l.loopback.start ()
    match result, l.mode with
    | .ok (), .raising interrupts => { result, device := { l with loopback }, interrupts }
    | .ok (), .stalling => { result, device := { l with loopback := loopback.stop } }
    | _, _ => { result, device := { l with loopback } }

instance : SerialLink BenchLink where
  configure config l :=
    let (result, loopback) := l.loopback.configure config
    { result, device := { l with loopback } }
  start := BenchLink.start
  stop l := { l with loopback := l.loopback.stop }
  isRunning l := l.loopback.running

/-! ## The bench -/

/-- An engine on bench devices. -/
abbrev BenchEngine := Engine BenchCodec BenchLink Gated Hook

/-- An engine on a bench. -/
structure EngineBench where
  engine : BenchEngine
  /-- Whether the next block is held before the call of the processor. -/
  holds : Bool := false

namespace EngineBench

/-- A bench with a new engine. -/
def ofParts (codec : BenchCodec) (instrument : Instrument) (config : FrameLayout) :
    EngineBench where
  engine := { codec, link := {}, processor := { instrument }, config }

/-- Changes the engine. -/
def map (b : EngineBench) (f : BenchEngine → BenchEngine) : EngineBench :=
  { b with engine := f b.engine }

/-- Does something on the engine that has an answer. -/
def answering {α : Type} (b : EngineBench) (f : BenchEngine → α × BenchEngine) : α × EngineBench :=
  let (a, engine) := f b.engine
  (a, { b with engine })

/-- The worker serves a pending wake-up; if blocks are held it stops before the processor, unless
the gate is about to trip. -/
def serve (b : EngineBench) : EngineBench :=
  if b.holds ∧ ¬b.engine.processor.trips then
    b.map fun e =>
      let e := e.beginServe
      match e.worker with
      | .inBlock _ => { e with processor := { e.processor with passed := true } }
      | _ => e
  else b.map Engine.serve

/-- Lets a held worker go on, and lets it serve the wake-up posted meanwhile. -/
def release (b : EngineBench) : EngineBench :=
  { b with holds := false }.map fun e => e.finishServe.serve

/-- Delivers an interrupt and waits for the worker. -/
def interrupt (b : EngineBench) (event : Interrupt) : InterruptOutcome × EngineBench :=
  let (outcome, b) := b.answering (·.deliver event)
  (outcome, b.serve)

/-- Releases the worker, then does something on the engine. -/
def control {α : Type} (b : EngineBench) (f : BenchEngine → α × BenchEngine) : α × EngineBench :=
  b.release.answering f

/-- Plays the receive channel. -/
def capture (b : EngineBench) (half : Half) (block : CaptureBlock) : Bool × EngineBench :=
  let e := b.engine
  let (stored, memory) := e.link.loopback.capture (fun _ => e.stream.buffers) half block
  (stored, b.map fun e => e.mapStream fun s => { s with buffers := memory () })

/-- Plays the transmit channel. -/
def playback (b : EngineBench) (half : Half) : Option PlaybackBlock :=
  b.engine.link.loopback.playback (fun _ => b.engine.stream.buffers) half

/-- Plays one period: a captured half, and both completions of it. -/
def pair (b : EngineBench) (half : Half) (block : CaptureBlock) (txFirst : Bool) :
    Bool × InterruptOutcome × InterruptOutcome × EngineBench :=
  let (stored, b) := b.capture half block
  let status : TransferFlags := match half with
    | .first => ⟨TransferFlags.halfTransfer⟩
    | .second => ⟨TransferFlags.transferComplete⟩
  let (d0, d1) : Direction × Direction := if txFirst then (.tx, .rx) else (.rx, .tx)
  let (o0, b) := b.interrupt ⟨d0, status⟩
  let (o1, b) := b.interrupt ⟨d1, status⟩
  (stored, o0, o1, b)

/-- Changes the link. -/
def mapLink (b : EngineBench) (f : BenchLink → BenchLink) : EngineBench :=
  b.map fun e => { e with link := f e.link }

/-- Replaces the instrument; the gate stays as it is. -/
def setInstrument (b : EngineBench) (instrument : Instrument) :
    Except EngineFailure Unit × EngineBench :=
  b.answering (·.accessProcessor fun g => ((), { g with instrument }))

/-- Makes the next block unwind at the gate. -/
def tripNext (b : EngineBench) : EngineBench :=
  b.map fun e => { e with processor := { e.processor with trips := true } }

/-- Holds the next block. -/
def holdNext (b : EngineBench) : EngineBench := { b with holds := true }

/-- What happened since the journal was last read, which is then empty. -/
def readJournal (b : EngineBench) : Journal × EngineBench :=
  (b.engine.journal, b.map fun e => { e with journal := [] })

end EngineBench

end DuplexAudio.Bench
