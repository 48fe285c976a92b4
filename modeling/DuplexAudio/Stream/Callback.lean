/-
  Blocks with hooks that may unwind or call back.

  The hooks of a bay are known by what they leave (`CartridgeHook`).  Here a hook is anything that
  can be called: before it returns it may ask for blocks on the same stream and go on with the
  answers, as a processor may, and it may unwind instead of returning.

  `callBlock` is a block with such hooks.  The stream is occupied from the moment the block is
  accepted until it ends, whichever way it ends.  With hooks that do nothing but return it is
  `runBlock` (`callBlock_returning`).
-/
import DuplexAudio.Stream.BlockRun

namespace DuplexAudio

/-- What a hook does when it is called; in the end it leaves a `ρ`. -/
inductive Callback (ρ : Type) where
  | finish (left : ρ)
  | unwind (left : ρ)
  /-- Ask for a block of `half` to be run by the processor `inner` on the same stream, with fresh
  cartridge blocks and no hooks, and go on with whether it was run. -/
  | nested (half : Half) (inner : BlockView → Activity Unit) (resume : Bool → Callback ρ)

/-- What the hooks of a bay do when they are called. -/
structure Callbacks (η : Type) where
  /-- Called before a block with the number of frames and what the input block held; it leaves the
  hook, and what the input block then holds. -/
  pull : Nat → CartridgeAudio → η → Callback (η × CartridgeAudio)
  /-- Called after a block with the number of frames and what was made for the cartridges. -/
  push : Nat → CartridgeAudio → η → Callback η

/-- Hooks that do nothing but return. -/
def Callbacks.returning (η : Type) [CartridgeHook η] : Callbacks η where
  pull frames block hook := .finish (CartridgeHook.pull frames block hook)
  push frames block hook := .finish (CartridgeHook.push frames block hook)

namespace Stream

/-! ## Calling a hook -/

/-- What a call of a hook led to. -/
structure Called (ρ : Type) where
  left : ρ
  /-- Whether it returned rather than unwound. -/
  returned : Bool
  /-- The stream afterwards, with the block still in progress. -/
  stream : Stream
  events : List StreamEvent

/-- What a processor would do that asks for one block and finishes exactly if it is run. -/
def request (half : Half) (inner : BlockView → Activity Unit) : Activity Unit :=
  .nested half inner fun accepted =>
    if accepted then .finish () ⟨Block.silence, CartridgeAudio.silence⟩
    else .unwind () ⟨Block.silence, CartridgeAudio.silence⟩

/-- Follows a hook to its end.  A block that a hook asks for obeys the same rule as one that a
processor asks for. -/
def follow {ρ : Type} : Callback ρ → Stream → Called ρ
  | .finish left, stream => { left, returned := true, stream, events := [] }
  | .unwind left, stream => { left, returned := false, stream, events := [] }
  | .nested half inner resume, s =>
    let asked := perform (request half inner) s
    let r := follow (resume asked.finished) asked.stream
    { r with events := asked.events ++ r.events }

variable {π η : Type} [Processor π]

/-- Calls the pull hook, or silences the input if there is none. -/
def callPull (s : Stream) (c : Callbacks η) (bay : CartridgeBay η) : Called (CartridgeBay η) :=
  match bay.pull with
  | none =>
    { left := { bay with input := CartridgeAudio.silence }, returned := true, stream := s,
      events := [] }
  | some hook =>
    let r := follow (c.pull framesPerBlock bay.input hook) s
    { left := { bay with pull := some r.left.1, input := r.left.2 }
      returned := r.returned
      stream := r.stream
      events := .pull framesPerBlock :: r.events }

/-- Calls the push hook, if there is one. -/
def callPush (s : Stream) (c : Callbacks η) (bay : CartridgeBay η) : Called (CartridgeBay η) :=
  match bay.push with
  | none => { left := bay, returned := true, stream := s, events := [] }
  | some hook =>
    let r := follow (c.push framesPerBlock bay.output hook) s
    { left := { bay with push := some r.left }
      returned := r.returned
      stream := r.stream
      events := .push framesPerBlock bay.output :: r.events }

/-! ## A block -/

/-- The stream with its block no longer in progress. -/
def release (s : Stream) : Stream := { s with occupied := false }

/-- The stream with the output of the block in progress stored over a half. -/
def stored (s : Stream) (half : Half) (played : PlaybackBlock) : Stream :=
  { s with buffers := s.buffers.writePlayback half played }

/-- What the processor of a block is shown once the pull hook has returned. -/
def Called.shown (pulled : Called (CartridgeBay η)) (half : Half) : BlockView :=
  pulled.stream.view ⟨half, pulled.stream.settings⟩ pulled.left.input pulled.left.output

/-- The last part of a block, from the end of its processor on. -/
def Called.deliver (pulled : Called (CartridgeBay η)) (c : Callbacks η) (half : Half)
    (w : Worked π) : BlockRun π η :=
  let stream := w.stream.stored half w.output.played
  let bay := { pulled.left with output := w.output.cartridgeOut }
  if w.finished then
    let pushed := stream.callPush c bay
    { stream := if pushed.returned then pushed.stream.release.counted else pushed.stream.release
      processor := w.processor
      bay := pushed.left
      ending := if pushed.returned then .completed else .unwound
      events := [.store .tx half, .publish .tx half] ++ pushed.events }
  else
    { stream := stream.release, processor := w.processor, bay, ending := .unwound
      events := [.store .tx half] }

/-- The second part of a block, once the pull hook has returned. -/
def Called.conclude (pulled : Called (CartridgeBay η)) (c : Callbacks η) (half : Half) (p : π) :
    BlockRun π η :=
  let w := perform (Processor.process p (pulled.shown half)) pulled.stream
  let r := pulled.deliver c half w
  { r with events := .process (pulled.shown half) :: w.events ++ r.events }

/-- Runs one block over a half, with hooks that may unwind or call back. -/
def callBlock (s : Stream) (c : Callbacks η) (half : Half) (p : π) (bay : CartridgeBay η) :
    BlockRun π η :=
  if s.accepts then
    let pulled := s.occupy.callPull c bay
    let begun := .acquire .rx half :: pulled.events
    if pulled.returned then
      let r := pulled.conclude c half p
      { r with events := begun ++ r.events }
    else
      { stream := pulled.stream.release, processor := p, bay := pulled.left, ending := .unwound
        events := begun }
  else { stream := s, processor := p, bay, ending := .refused, events := [] }

/-- Takes the published half, if there is one, and runs a block over it with hooks that may unwind
or call back.  Answers the half if the block was completed. -/
def callPair (s : Stream) (c : Callbacks η) (p : π) (bay : CartridgeBay η) :
    Option Half × BlockRun π η :=
  match s.takePair with
  | (none, s) => (none, { stream := s, processor := p, bay, ending := .refused, events := [] })
  | (some half, s) =>
    let r := s.callBlock c half p bay
    (if r.ending = .completed then some half else none, r)

section Returning

variable [CartridgeHook η]

theorem callPull_returning (s : Stream) (bay : CartridgeBay η) :
    s.callPull (Callbacks.returning η) bay =
      { left := bay.pulled framesPerBlock, returned := true, stream := s,
        events := pullEvents bay } := by
  unfold callPull CartridgeBay.pulled pullEvents
  cases bay.pull <;> rfl

theorem callPush_returning (s : Stream) (bay : CartridgeBay η) :
    s.callPush (Callbacks.returning η) bay =
      { left := bay.pushed framesPerBlock, returned := true, stream := s,
        events := pushEvents bay } := by
  obtain ⟨pull, push, input, output⟩ := bay
  cases push <;> rfl

theorem conclude_returning (pulled : Called (CartridgeBay η)) (half : Half) (p : π) :
    pulled.conclude (Callbacks.returning η) half p =
      pulled.stream.finishBlock ⟨half, pulled.stream.settings⟩ p pulled.left := by
  unfold Called.conclude Called.shown Called.deliver finishBlock
  dsimp only
  generalize perform _ _ = w
  cases w.finished with
  | true => simp [callPush_returning, release, stored, written, counted]
  | false => simp [release, stored, written]

/-- **With hooks that do nothing but return** a block is `runBlock`. -/
theorem callBlock_returning (s : Stream) (half : Half) (p : π) (bay : CartridgeBay η) :
    s.callBlock (Callbacks.returning η) half p bay = s.runBlock half p bay := by
  unfold callBlock runBlock
  split
  · rw [callPull_returning]
    dsimp only [if_true]
    rw [conclude_returning]
    rfl
  · rfl

theorem callPair_returning (s : Stream) (p : π) (bay : CartridgeBay η) :
    s.callPair (Callbacks.returning η) p bay = s.runPair p bay := by
  unfold callPair runPair
  rcases s.takePair with ⟨_ | half, rest⟩
  · rfl
  · simp only [callBlock_returning]

end Returning

end Stream

end DuplexAudio
