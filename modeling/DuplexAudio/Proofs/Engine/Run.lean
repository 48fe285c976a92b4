/-
  Runs of an engine.

  A run is a list of moves in any order: operations of the control side, transfer interrupts, steps
  of the worker, and what happens to the devices and to the captured memory by itself.  The worker's
  two steps are moves of their own, so that interrupts and operations may find it inside a block.

  What may happen to a codec between two calls is anything at all.  What may happen to a link is a
  matter of the link (`LinkProbe`): from outside, a loopback link can only be told to fail its next
  start.
-/
import DuplexAudio.Engine.LifeCycle
import DuplexAudio.Link.Loopback

namespace DuplexAudio

/-- What can happen to a link between two calls on it. -/
class LinkProbe (τ : Type) where
  Touch : Type
  touch : Touch → τ → τ

instance : LinkProbe (Loopback Unit) where
  Touch := LinkFailure
  touch cause l := l.failNextStart cause

/-- One step in a run of an engine. -/
inductive Move (σ τ π η : Type) [LinkProbe τ] where
  | init
  | start
  | stop
  | poll
  | teardown
  | registerPull (hook : Option η)
  | registerPush (hook : Option η)
  | editCartridges (f : CartridgeAudio → CartridgeAudio → CartridgeAudio × CartridgeAudio)
  | editProcessor (f : π → π)
  | mix (f : MixSettings → MixSettings)
  | interrupt (event : Interrupt)
  /-- The worker wakes up, if it sleeps and a wake-up is pending. -/
  | wakeUp
  /-- The worker goes on with the block it is in, to the end of it. -/
  | finishBlock
  /-- The receive channel stores a captured block. -/
  | capture (half : Half) (block : CaptureBlock)
  /-- The codec changes by itself. -/
  | codec (f : σ → σ)
  /-- The link changes by itself. -/
  | link (touch : LinkProbe.Touch τ)
  /-- The system gives threads from now on, or refuses them for some reason. -/
  | threads (refusal : Option String)

namespace Engine

variable {σ τ π η : Type} [Codec σ] [SerialLink τ] [LinkProbe τ] [Processor π] [CartridgeHook η]

/-- An engine as it is built. -/
def new (codec : σ) (link : τ) (processor : π) (config : FrameLayout) : Engine σ τ π η :=
  { codec, link, processor, config }

/-- The engine after a move. -/
def after (e : Engine σ τ π η) : Move σ τ π η → Engine σ τ π η
  | .init => e.init.2
  | .start => e.start.2
  | .stop => e.stop
  | .poll => e.poll.2
  | .teardown => e.teardown
  | .registerPull hook => (e.registerPull hook).2
  | .registerPush hook => (e.registerPush hook).2
  | .editCartridges f => (e.accessCartridges fun input output => ((), f input output)).2
  | .editProcessor f => (e.accessProcessor fun p => ((), f p)).2
  | .mix f => e.mapStream (·.mapSettings f)
  | .interrupt event => (e.deliver event).2
  | .wakeUp => e.beginServe
  | .finishBlock => e.finishServe
  | .capture half block =>
    e.mapStream fun s => { s with buffers := s.buffers.writeCapture half block }
  | .codec f => { e with codec := f e.codec }
  | .link touch => { e with link := LinkProbe.touch touch e.link }
  | .threads refusal => { e with threadRefusal := refusal }

/-- The engine after a list of moves. -/
def run (e : Engine σ τ π η) (moves : List (Move σ τ π η)) : Engine σ τ π η := moves.foldl after e

/-- **What every move keeps, every run keeps.** -/
theorem run_invariant {P : Engine σ τ π η → Prop} (step : ∀ e m, P e → P (e.after m))
    {e : Engine σ τ π η} (h : P e) (moves : List (Move σ τ π η)) : P (e.run moves) := by
  induction moves generalizing e with
  | nil => exact h
  | cons m moves ih => exact ih (step e m h)

end Engine

end DuplexAudio
