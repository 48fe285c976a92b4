/-
  Block processors.

  A processor turns one captured block into one block to be played.  It is known by its
  `Activity` on what it is shown: it may finish with what it wrote, unwind with what it had written
  by then, or first ask for another block to be run on the same stream and go on with the answer.
-/
import DuplexAudio.Block
import DuplexAudio.Mix.Settings

namespace DuplexAudio

/-- What a processor is shown for one block. -/
structure BlockView where
  /-- The settings of the mix, as they were when the block was begun. -/
  settings : MixSettings
  captured : CaptureBlock
  /-- What the cartridges delivered for this block. -/
  cartridgeIn : CartridgeAudio
  /-- What the playback half held before. -/
  played : PlaybackBlock
  /-- What the block for the cartridges held before. -/
  cartridgeOut : CartridgeAudio
  frames : Nat

/-- What a processor leaves in the blocks that it may write. -/
structure BlockOutput where
  played : PlaybackBlock
  cartridgeOut : CartridgeAudio
  deriving DecidableEq

/-- What a view's blocks hold before anything is written. -/
def BlockView.untouched (v : BlockView) : BlockOutput := ⟨v.played, v.cartridgeOut⟩

/-- What a processor with state `π` does on one block. -/
inductive Activity (π : Type) where
  /-- Finish, as the given processor, having written the given output. -/
  | finish (next : π) (output : BlockOutput)
  /-- Unwind, leaving the given processor and what was written by then. -/
  | unwind (next : π) (output : BlockOutput)
  /-- Ask for a block of `half` to be run by the processor `inner` on the same stream, with fresh
  cartridge blocks and no hooks, and go on with whether it was run. -/
  | nested (half : Half) (inner : BlockView → Activity π) (resume : Bool → Activity π)

/-- A processor, known by what it does on a block. -/
class Processor (π : Type) where
  process : π → BlockView → Activity π

end DuplexAudio
