/-
  The stream: what the transfer interrupts and the consumer of blocks share.

  It holds both double buffers, the pairing of completions, the settings of the mix, the fault latch
  and the counters.  Interrupts feed it through `onInterrupt`; whoever consumes blocks takes a
  published half with `takePair`.  A transfer error is latched, disarms the stream and answers for
  everything later, until the stream is reset.

  What happens on a stream on the way is told as a list of `StreamEvent`s, oldest first.
-/
import DuplexAudio.Memory.DoubleBuffer
import DuplexAudio.Processor.Basic
import DuplexAudio.Stream.PairTracker

namespace DuplexAudio

/-- Channels of the buffer that a direction streams. -/
def Direction.bufferChannels : Direction → Nat
  | rx => captureChannels
  | tx => playbackChannels

/-- What an interrupt led to. -/
inductive InterruptOutcome where
  /-- Nothing for the consumer to do. -/
  | idle
  /-- Both directions have completed this half. -/
  | pairReady (half : Half)
  /-- The stream is at fault, and stays so until it is reset. -/
  | fault (error : LinkFailure)
  deriving DecidableEq, Repr

/-- Counters of a stream. -/
structure StreamCounters where
  /-- Partial completions that were given up. -/
  dropped : UInt32
  /-- Published pairs that were replaced before they were taken. -/
  overruns : UInt32
  processed : UInt32
  deriving DecidableEq, Repr

/-- One thing that happened on a stream.  Buffers are named by the direction that streams them. -/
inductive StreamEvent where
  /-- Software stored into one half. -/
  | store (buffer : Direction) (half : Half)
  /-- One half was made visible to the transfer channel. -/
  | publish (buffer : Direction) (half : Half)
  /-- Stale copies of one half were discarded, so that software sees what was transferred. -/
  | acquire (buffer : Direction) (half : Half)
  | pull (frames : Nat)
  | process (view : BlockView)
  | push (frames : Nat) (block : CartridgeAudio)
  /-- A processor asked for another block inside its own, and whether it was run. -/
  | nested (accepted : Bool)

/-- State shared between the transfer interrupts and the consumer of blocks. -/
structure Stream where
  buffers : Buffers := Buffers.silence
  pairs : PairTracker := {}
  settings : MixSettings := MixSettings.unity
  /-- Whether interrupts are listened to. -/
  armed : Bool := false
  /-- Direction of the first transfer error since the last reset. -/
  fault : Option Direction := none
  /-- Whether a block is in progress. -/
  occupied : Bool := false
  processed : UInt32 := 0
  deriving DecidableEq

namespace Stream

instance : Inhabited Stream := ⟨{}⟩

/-! ## Arming, interrupts and counters -/

/-- The latched fault as an error. -/
def failure? (s : Stream) : Option LinkFailure := s.fault.map .dma

/-- Listens to interrupts, or stops listening. -/
def setArmed (s : Stream) (on : Bool) : Stream := { s with armed := on }

/-- Changes the settings of the mix. -/
def mapSettings (s : Stream) (f : MixSettings → MixSettings) : Stream :=
  { s with settings := f s.settings }

/-- Starts afresh: disarmed, nothing tracked or published, no fault, both buffers silent.  The
settings and the counters stay. -/
def reset (s : Stream) : Stream :=
  { s with
    armed := false
    pairs := s.pairs.reset
    fault := none
    occupied := false
    buffers := Buffers.silence }

/-- What a reset does to memory: all four halves are silenced, and the silence to be played is
published. -/
def resetEvents : List StreamEvent :=
  [.store .rx .first, .store .rx .second, .store .tx .first, .store .tx .second,
    .publish .tx .first, .publish .tx .second]

/-- Latches a fault and disarms; the first fault stays. -/
def latch (s : Stream) (d : Direction) : Stream :=
  { s with fault := s.fault.or (some d), armed := false }

/-- Takes in one transfer interrupt.  Interrupts are ignored while disarmed, and a latched fault
answers for every later one. -/
def onInterrupt (s : Stream) (e : Interrupt) : InterruptOutcome × Stream :=
  if ¬s.armed then (.idle, s)
  else
    match s.failure? with
    | some error => (.fault error, s)
    | none =>
      match e.flags.completed e.direction with
      | .error error => (.fault error, s.latch e.direction)
      | .ok none => (.idle, s)
      | .ok (some half) =>
        let (ready, pairs) := s.pairs.complete e.direction half
        ((ready.map InterruptOutcome.pairReady).getD .idle, { s with pairs })

/-- Takes the published half, if there is one. -/
def takePair (s : Stream) : Option Half × Stream :=
  let (half, pairs) := s.pairs.takePair
  (half, { s with pairs })

/-- The counters. -/
def counters (s : Stream) : StreamCounters := ⟨s.pairs.dropped, s.pairs.overruns, s.processed⟩

/-- Sets all counters to zero. -/
def clearCounters (s : Stream) : Stream := { s with pairs := s.pairs.clearCounters, processed := 0 }

end Stream

end DuplexAudio
