/-
  A bench for a stream without an engine: blocks are run by hand, over a bay of the bench's own or
  over a second bay that stands for a registered link.
-/
import DuplexAudio.Bench.Instruments
import DuplexAudio.Stream.BlockRun

namespace DuplexAudio.Bench

/-- A stream with what is needed to run blocks on it. -/
structure StreamBench where
  stream : Stream := {}
  /-- The processor of the next blocks. -/
  instrument : Instrument := .mixer
  /-- Hooks and cartridge blocks of the bench itself. -/
  bay : CartridgeBay Hook := {}
  /-- Hooks and cartridge blocks of the link. -/
  link : CartridgeBay Hook := {}
  trace : List StreamEvent := []

namespace StreamBench

/-- Changes the stream. -/
def mapStream (b : StreamBench) (f : Stream → Stream) : StreamBench :=
  { b with stream := f b.stream }

/-- Resets the stream. -/
def reset (b : StreamBench) : StreamBench :=
  { b with stream := b.stream.reset, trace := b.trace ++ Stream.resetEvents }

/-- Takes in an interrupt. -/
def interrupt (b : StreamBench) (e : Interrupt) : InterruptOutcome × StreamBench :=
  let (outcome, stream) := b.stream.onInterrupt e
  (outcome, { b with stream })

/-- Takes the published half. -/
def takePair (b : StreamBench) : Option Half × StreamBench :=
  let (half, stream) := b.stream.takePair
  (half, { b with stream })

/-- The bench after a block on its own bay. -/
def after (b : StreamBench) (r : Stream.BlockRun Instrument Hook) : StreamBench :=
  { b with
    stream := r.stream, instrument := r.processor, bay := r.bay, trace := b.trace ++ r.events }

/-- Runs a block over a half. -/
def run (b : StreamBench) (half : Half) : Stream.BlockEnding × StreamBench :=
  let r := b.stream.runBlock half b.instrument b.bay
  (r.ending, b.after r)

/-- Runs a block over the published half, if there is one. -/
def runPair (b : StreamBench) : Option Half × Stream.BlockEnding × StreamBench :=
  let (half, r) := b.stream.runPair b.instrument b.bay
  (half, r.ending, b.after r)

/-- Runs a block over a half with a processor that asks for another block from inside. -/
def reenter (b : StreamBench) (half nested : Half) : Stream.BlockEnding × StreamBench :=
  let r := b.stream.runBlock half (Reentrant.mk nested) b.bay
  (r.ending, { b with stream := r.stream, bay := r.bay, trace := b.trace ++ r.events })

/-- Runs a block over a half with the link's bay. -/
def linkRun (b : StreamBench) (half : Half) : Stream.BlockEnding × StreamBench :=
  let r := b.stream.runBlock half b.instrument b.link
  (r.ending, { b with
    stream := r.stream, instrument := r.processor, link := r.bay, trace := b.trace ++ r.events })

end StreamBench

end DuplexAudio.Bench
