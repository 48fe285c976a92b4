/-
  What an engine does, as a list of events.

  Every call on a device, everything that happened on the wires and on the stream, and every log
  record of the control side leaves one event, in order.  The calls on the codec carry the state the
  engine was in, so that the journal alone tells what was commanded when.
-/
import DuplexAudio.Engine.Failure
import DuplexAudio.Stream.BlockRun

namespace DuplexAudio

/-- Weight of a log record. -/
inductive LogLevel where
  | info
  | warn
  | error
  deriving DecidableEq, Repr

/-- A log record of the control side. -/
inductive Notice where
  /-- An operation failed and the engine is at fault. -/
  | fault (cause : EngineFailure)
  /-- The output could not be muted or unmuted. -/
  | muteFailed (mute : Bool) (cause : CodecFailure)
  /-- The engine was brought up with this layout. -/
  | ready (config : FrameLayout)
  | running
  | stopped
  | tornDown
  /-- The halt after a transfer error is being completed. -/
  | streamFault (cause : LinkFailure)
  /-- The system gave no thread for the worker. -/
  | notSpawned (cause : String)
  /-- The worker was found to have unwound. -/
  | workerPanicked
  deriving DecidableEq, Repr

namespace Notice

/-- The weight of a record. -/
def level : Notice → LogLevel
  | fault _ | streamFault _ | notSpawned _ | workerPanicked => .error
  | muteFailed _ _ => .warn
  | ready _ | running | stopped | tornDown => .info

/-- The text of a record. -/
def text : Notice → String
  | fault cause => "audio engine fault: " ++ cause.message
  | muteFailed mute cause =>
    "output " ++ (if mute then "mute" else "unmute") ++ " failed: " ++ cause.message
  | ready config =>
    "audio engine ready: " ++ toString config.rateHz ++ " Hz, " ++ toString config.rxSlots
      ++ " in / " ++ toString config.txSlots ++ " out slots"
  | running => "audio engine running"
  | stopped => "audio engine stopped"
  | tornDown => "audio engine torn down"
  | streamFault cause => "audio stream fault: " ++ cause.message
  | notSpawned cause => "failed to spawn " ++ workerName ++ ": " ++ cause
  | workerPanicked => workerName ++ " panicked"

end Notice

/-- What may be asked of a link. -/
inductive LinkCall where
  | configure
  | start
  | stop
  deriving DecidableEq, Repr

/-- One event in the life of an engine. -/
inductive EngineEvent where
  /-- A call was made on the codec while the engine was in the given state. -/
  | codec (call : CodecCall) (during : Lifecycle)
  /-- Something happened below a device. -/
  | wire (event : WireEvent)
  | link (call : LinkCall)
  /-- An interrupt arrived while a device call was running; the state is the one after it. -/
  | interrupt (outcome : InterruptOutcome) (state : Lifecycle)
  | stream (event : StreamEvent)
  | spawned
  | joined
  | notice (record : Notice)

/-- What happened during a list of events, in order. -/
abbrev Journal := List EngineEvent

namespace Journal

/-- The mute command in an event, if it is one. -/
def muteCommand? : EngineEvent → Option Bool
  | .codec (.setMute mute) _ => some mute
  | _ => none

/-- The last mute command that was issued. -/
def lastMute? (j : Journal) : Option Bool := (j.filterMap muteCommand?).getLast?

end Journal

end DuplexAudio
