/-
  The worker of an engine.

  It sleeps until it is woken, takes the published half and runs one block over it.  A block is
  begun (`beginServe`) and finished (`finishServe`); between the two the worker is inside the block,
  and interrupts only change the stream and post at most one wake-up.  A worker whose processor
  unwinds is dead, but is held until somebody joins it.

  A worker needs a thread, and the system may refuse one (`spawn`).
-/
import DuplexAudio.Engine.Basic

namespace DuplexAudio

namespace Engine

variable {σ τ π η : Type} [Processor π] [CartridgeHook η]

/-- The worker wakes up: it takes the published half, if there is one, and begins a block over it if
the stream accepts one. -/
def beginServe (e : Engine σ τ π η) : Engine σ τ π η :=
  if e.worker = .idle ∧ e.wake then
    match e.stream.takePair with
    | (none, stream) => { e with wake := false, stream }
    | (some half, stream) =>
      if stream.accepts then
        let (stream, bay, block, events) := stream.beginBlock half e.bay
        { e with wake := false, stream, bay, worker := .inBlock block }.recordStream events
      else { e with wake := false, stream }
  else e

/-- The worker goes on with the block it is in: it calls the processor and finishes, or unwinds with
it. -/
def finishServe (e : Engine σ τ π η) : Engine σ τ π η :=
  match e.worker with
  | .inBlock block =>
    let r := e.stream.finishBlock block e.processor e.bay
    { e with
      stream := r.stream
      processor := r.processor
      bay := r.bay
      worker := if r.ending = Stream.BlockEnding.unwound then .dead else .idle
    }.recordStream r.events
  | _ => e

/-- The worker serves one wake-up, if it sleeps and one is pending. -/
def serve (e : Engine σ τ π η) : Engine σ τ π η :=
  if e.worker = .idle then e.beginServe.finishServe else e

/-- Takes in one interrupt and lets the worker serve it. -/
def interrupt (e : Engine σ τ π η) (event : Interrupt) : InterruptOutcome × Engine σ τ π η :=
  let (outcome, e) := e.deliver event
  (outcome, e.serve)

/-- Creates the worker, if there is none and the system gives a thread.  A wake-up from before is
dropped either way. -/
def spawn (e : Engine σ τ π η) : Except EngineFailure Unit × Engine σ τ π η :=
  if e.worker.isHeld then (.ok (), e)
  else
    match e.threadRefusal with
    | some cause => (.error .spawn, { e with wake := false }.log (.notSpawned cause))
    | none => (.ok (), { e with worker := .idle, wake := false }.record .spawned)

omit [Processor π] [CartridgeHook η] in
/-- The worker is there already, or the system gives a thread for one, or it refuses it. -/
theorem spawn_cases (e : Engine σ τ π η) :
    (e.worker.isHeld = true ∧ e.spawn = (.ok (), e)) ∨
      (e.worker.isHeld = false ∧ e.threadRefusal = none ∧
        e.spawn = (.ok (), { e with worker := .idle, wake := false }.record .spawned)) ∨
      ∃ cause, e.worker.isHeld = false ∧ e.threadRefusal = some cause ∧
        e.spawn = (.error .spawn, { e with wake := false }.log (.notSpawned cause)) := by
  unfold spawn
  cases hheld : e.worker.isHeld with
  | true => exact .inl ⟨rfl, if_pos rfl⟩
  | false =>
    rw [if_neg Bool.false_ne_true]
    cases hrefusal : e.threadRefusal with
    | none => exact .inr (.inl ⟨rfl, rfl, rfl⟩)
    | some cause => exact .inr (.inr ⟨cause, rfl, rfl, rfl⟩)

/-- Ends the worker and waits for it.  It finishes the block that it is in, but serves no further
wake-up.  A worker that unwound left its wake-up unread. -/
def join (e : Engine σ τ π η) : Engine σ τ π η :=
  let e := e.finishServe
  match e.worker with
  | .absent => e
  | .dead => ({ e with worker := .absent, wake := true }.record .joined).log .workerPanicked
  | .idle | .inBlock _ => { e with worker := .absent, wake := false }.record .joined

end Engine

end DuplexAudio
