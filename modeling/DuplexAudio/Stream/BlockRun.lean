/-
  Running a block on a stream.

      acquire the captured half
      pull from the cartridges, or silence them
      take the settings of the mix
      process the captured half into the playback half
      publish the playback half
      push to the cartridges

  A block is run only while no fault is latched and no other block is in progress; otherwise it is
  refused and nothing at all is touched (`runBlock_of_not_accepts`).  An unwinding processor ends
  its block without publishing, pushing or counting it, and leaves the stream ready for the next
  one.

  A block has two parts, `beginBlock` up to the call of the processor and `finishBlock` from there
  on, so that whoever runs it may stop in between; `runBlock` is one after the other.
-/
import DuplexAudio.Stream.Basic
import DuplexAudio.Stream.CartridgeBay

namespace DuplexAudio

namespace Stream

/-! ## Running a block -/

/-- Whether a block would be run. -/
def accepts (s : Stream) : Bool := s.fault.isNone && !s.occupied

/-- A block that was begun and not yet processed. -/
structure OpenBlock where
  half : Half
  /-- The settings of the mix when it was begun. -/
  settings : MixSettings
  deriving DecidableEq

/-- The stream with a block in progress. -/
def occupy (s : Stream) : Stream := { s with occupied := true }

/-- The stream after the block in progress wrote its output over a half. -/
def written (s : Stream) (half : Half) (played : PlaybackBlock) : Stream :=
  { s with buffers := s.buffers.writePlayback half played, occupied := false }

/-- The stream with one more completed block. -/
def counted (s : Stream) : Stream := { s with processed := s.processed + 1 }

/-- What a processor is shown. -/
def view (s : Stream) (b : OpenBlock) (input output : CartridgeAudio) : BlockView where
  settings := b.settings
  captured := s.buffers.capture.readHalf b.half
  cartridgeIn := input
  played := s.buffers.playback.readHalf b.half
  cartridgeOut := output
  frames := framesPerBlock

/-- What an activity on a stream led to. -/
structure Worked (π : Type) where
  processor : π
  output : BlockOutput
  /-- Whether it finished rather than unwound. -/
  finished : Bool
  /-- The stream afterwards, with the block still in progress. -/
  stream : Stream
  events : List StreamEvent

/-- Follows an activity to its end.  A nested block obeys the same rule as any other: it is run only
if the stream accepts it. -/
def perform {π : Type} : Activity π → Stream → Worked π
  | .finish processor output, stream =>
    { processor, output, finished := true, stream, events := [] }
  | .unwind processor output, stream =>
    { processor, output, finished := false, stream, events := [] }
  | .nested half inner resume, s =>
    if s.accepts then
      let view := s.view ⟨half, s.settings⟩ CartridgeAudio.silence CartridgeAudio.silence
      let w := perform (inner view) s.occupy
      let s := w.stream.written half w.output.played
      if w.finished then
        let r := perform (resume true) s.counted
        { r with
          events := [.acquire .rx half, .process view] ++ w.events
            ++ [.store .tx half, .publish .tx half, .nested true] ++ r.events }
      else
        let r := perform (resume false) s
        { r with
          events := [.acquire .rx half, .process view] ++ w.events
            ++ [.store .tx half, .nested false] ++ r.events }
    else
      let r := perform (resume false) s
      { r with events := .nested false :: r.events }

/-- How a call for a block ended. -/
inductive BlockEnding where
  /-- It was not begun. -/
  | refused
  | completed
  /-- The processor unwound. -/
  | unwound
  deriving DecidableEq, Repr

/-- What a call for a block led to. -/
structure BlockRun (π η : Type) where
  stream : Stream
  processor : π
  bay : CartridgeBay η
  ending : BlockEnding
  events : List StreamEvent

section Run

variable {π η : Type} [Processor π] [CartridgeHook η]

/-- The events of calling the pull hook, if there is one. -/
def pullEvents (bay : CartridgeBay η) : List StreamEvent :=
  if bay.pull.isSome then [.pull framesPerBlock] else []

/-- The events of calling the push hook, if there is one. -/
def pushEvents (bay : CartridgeBay η) : List StreamEvent :=
  if bay.push.isSome then [.push framesPerBlock bay.output] else []

/-- The first part of a block, up to the call of the processor. -/
def beginBlock (s : Stream) (half : Half) (bay : CartridgeBay η) :
    Stream × CartridgeBay η × OpenBlock × List StreamEvent :=
  (s.occupy, bay.pulled framesPerBlock, ⟨half, s.settings⟩, .acquire .rx half :: pullEvents bay)

/-- The second part of a block, from the call of the processor on. -/
def finishBlock (s : Stream) (b : OpenBlock) (p : π) (bay : CartridgeBay η) : BlockRun π η :=
  let view := s.view b bay.input bay.output
  let w := perform (Processor.process p view) s
  let stream := w.stream.written b.half w.output.played
  let bay := { bay with output := w.output.cartridgeOut }
  let events := .process view :: w.events ++ [.store .tx b.half]
  if w.finished then
    { stream := stream.counted
      processor := w.processor
      bay := bay.pushed framesPerBlock
      ending := .completed
      events := events ++ .publish .tx b.half :: pushEvents bay }
  else { stream, processor := w.processor, bay, ending := .unwound, events }

/-- Runs one block over a half. -/
def runBlock (s : Stream) (half : Half) (p : π) (bay : CartridgeBay η) : BlockRun π η :=
  if s.accepts then
    let (s, bay, b, events) := s.beginBlock half bay
    let r := s.finishBlock b p bay
    { r with events := events ++ r.events }
  else { stream := s, processor := p, bay, ending := .refused, events := [] }

/-- A block that is not accepted touches nothing. -/
theorem runBlock_of_not_accepts {s : Stream} (h : s.accepts = false) (half : Half) (p : π)
    (bay : CartridgeBay η) :
    s.runBlock half p bay =
      { stream := s, processor := p, bay, ending := .refused, events := [] } := by
  simp [runBlock, h]

/-- Takes the published half, if there is one, and runs a block over it.  Answers the half if the
block was completed. -/
def runPair (s : Stream) (p : π) (bay : CartridgeBay η) : Option Half × BlockRun π η :=
  match s.takePair with
  | (none, s) => (none, { stream := s, processor := p, bay, ending := .refused, events := [] })
  | (some half, s) =>
    let r := s.runBlock half p bay
    (if r.ending = .completed then some half else none, r)

end Run

end Stream

end DuplexAudio
