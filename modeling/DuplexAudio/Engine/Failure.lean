/-
  States and failures of an engine.

  Failures of a device are fatal to the start that met them; the engine never retries.
-/
import DuplexAudio.Device

namespace DuplexAudio

/-- Where an engine is in its life. -/
inductive Lifecycle where
  /-- Nothing was brought up. -/
  | stopped
  /-- Converters identified and link configured, not streaming. -/
  | ready
  | running
  /-- Something failed; only a fresh bring-up leaves this state. -/
  | fault
  deriving DecidableEq, Repr, Inhabited

/-- The state after a transfer error: an engine that was not brought up stays stopped. -/
def Lifecycle.afterError : Lifecycle → Lifecycle
  | ready | running | fault => fault
  | stopped => stopped

/-- Failures of an engine's operations. -/
inductive EngineFailure where
  /-- A converter did not answer or was not what it should be. -/
  | hardwareInit (cause : CodecFailure)
  | clockLockTimeout
  /-- The link refused or failed. -/
  | transport (cause : LinkFailure)
  /-- The engine is at fault and has to be brought up afresh. -/
  | faulted
  /-- The worker has to be stopped for this. -/
  | busy
  | spawn
  /-- The worker ended while streaming. -/
  | workerExited
  deriving DecidableEq, Repr

namespace EngineFailure

/-- A codec's failure as the engine's: a clock that did not lock has a cause of its own. -/
def ofCodec : CodecFailure → EngineFailure
  | .clockLockTimeout => clockLockTimeout
  | cause => hardwareInit cause

/-- The text of a failure. -/
def message : EngineFailure → String
  | hardwareInit cause => "codec bring-up failed: " ++ cause.message
  | clockLockTimeout => "codec clock did not lock in time"
  | transport cause => "transport failure: " ++ cause.message
  | faulted => "engine is faulted"
  | busy => "engine is running"
  | spawn => "failed to spawn the audio worker"
  | workerExited => "audio worker exited unexpectedly"

end EngineFailure

end DuplexAudio
