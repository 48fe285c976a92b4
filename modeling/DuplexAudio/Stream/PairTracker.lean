/-
  Pairing the completions of the two directions.

  The receive and the transmit channel share a clock but interrupt at slightly different instants.
  A half is published only once both have completed that same half, so that what is processed was
  captured in the period in which its answer will be played.

  The tracker is two bytes and two counters, as an interrupt handler would keep them: bits 0 and 1
  of `state` tell which directions have completed the tracked half, the bits above hold that half
  plus one, or 0 if none is tracked; `ready` is the published half, or `0xff`.
-/
import DuplexAudio.Link.Interrupt

namespace DuplexAudio

/-- The bit that a direction sets in the completion mask. -/
def Direction.doneBit : Direction → UInt8
  | rx => 0b01
  | tx => 0b10

/-- Completions of the two directions, paired by half. -/
structure PairTracker where
  /-- Tracked half and completion mask. -/
  state : UInt8 := 0
  /-- The published half. -/
  ready : UInt8 := 0xff
  /-- Partial completions that were given up because the other half completed. -/
  dropped : UInt32 := 0
  /-- Published pairs that were replaced before they were taken. -/
  overruns : UInt32 := 0
  deriving DecidableEq, Repr

namespace PairTracker

instance : Inhabited PairTracker := ⟨{}⟩

/-- The bits of `state` that hold the completion mask. -/
def maskBits : UInt8 := 0b11

/-- The value of `ready` when nothing is published. -/
def noReady : UInt8 := 0xff

/-- The state that tracks a half with a given mask. -/
def pack (half : Half) (mask : UInt8) : UInt8 := ((half.code + 1) <<< 2) ||| (mask &&& maskBits)

/-- The half that a state tracks. -/
def halfOf (state : UInt8) : Option Half :=
  let code := state >>> 2
  if code = 0 then none else Half.ofCode? (code - 1)

/-- The half being tracked, if a completion is pending. -/
def tracked (t : PairTracker) : Option Half := halfOf t.state

/-- Whether a pair is published and not yet taken. -/
def hasPair (t : PairTracker) : Bool := t.ready ≠ noReady

/-- Publishes a half; a pair that was not taken before is counted as overrun. -/
def publish (t : PairTracker) (half : Half) : PairTracker :=
  { t with
    ready := half.code
    overruns := if t.hasPair then t.overruns + 1 else t.overruns }

/-- Records that a direction completed a half.  Answers the half if this completes the pair, which
is then published and no longer tracked.  A completion of the other half than the one tracked gives
the partial completion up and counts it as dropped. -/
def complete (t : PairTracker) (direction : Direction) (half : Half) : Option Half × PairTracker :=
  let continues := t.tracked = some half
  let stale := ¬continues ∧ t.state &&& maskBits ≠ 0
  let mask := (if continues then t.state &&& maskBits else 0) ||| direction.doneBit
  let dropped := if stale then t.dropped + 1 else t.dropped
  if mask = maskBits then (some half, { t with state := 0, dropped }.publish half)
  else (none, { t with state := pack half mask, dropped })

/-- Takes the published pair, if there is one. -/
def takePair (t : PairTracker) : Option Half × PairTracker :=
  (Half.ofCode? t.ready, { t with ready := noReady })

/-- Forgets a partial completion and a published pair; the counters stay. -/
def reset (t : PairTracker) : PairTracker := { t with state := 0, ready := noReady }

/-- Sets both counters to zero. -/
def clearCounters (t : PairTracker) : PairTracker := { t with dropped := 0, overruns := 0 }

end PairTracker

end DuplexAudio
