/-
  The bay that the cartridges plug into.

  Before a block is processed a pull hook may fill the block that the cartridges deliver; afterwards
  a push hook may receive the block meant for them.  Without a pull hook the cartridges are silent,
  without a push hook their block is dropped.
-/
import DuplexAudio.Block

namespace DuplexAudio

/-- A callback for cartridge audio, known by what it does as a pull and as a push hook. -/
class CartridgeHook (η : Type) where
  /-- Called before a block with the number of frames and what the input block held: the hook
  afterwards, and what the input block then holds. -/
  pull : Nat → CartridgeAudio → η → η × CartridgeAudio
  /-- Called after a block with the number of frames and what was made for the cartridges. -/
  push : Nat → CartridgeAudio → η → η

/-- The two hooks, and the two blocks exchanged through them. -/
structure CartridgeBay (η : Type) where
  /-- Fills the input before a block. -/
  pull : Option η := none
  /-- Receives the output after a block. -/
  push : Option η := none
  /-- What the cartridges delivered last. -/
  input : CartridgeAudio := CartridgeAudio.silence
  /-- What was last made for the cartridges. -/
  output : CartridgeAudio := CartridgeAudio.silence

namespace CartridgeBay

variable {η : Type}

instance : Inhabited (CartridgeBay η) := ⟨{}⟩

/-- Silences both blocks; the hooks stay. -/
def clear (p : CartridgeBay η) : CartridgeBay η :=
  { p with input := CartridgeAudio.silence, output := CartridgeAudio.silence }

/-- The bay after the pull hook was called, or the input silenced if there is none. -/
def pulled [CartridgeHook η] (p : CartridgeBay η) (frames : Nat) : CartridgeBay η :=
  match p.pull with
  | none => { p with input := CartridgeAudio.silence }
  | some hook =>
    let (hook, input) := CartridgeHook.pull frames p.input hook
    { p with pull := some hook, input }

/-- The bay after the push hook was called, if there is one. -/
def pushed [CartridgeHook η] (p : CartridgeBay η) (frames : Nat) : CartridgeBay η :=
  { p with push := p.push.map (CartridgeHook.push frames p.output) }

/-- One-line summary of a bay: which hooks are registered. -/
def summary (p : CartridgeBay η) : String :=
  "CartridgeLink \x7b pull: " ++ toString p.pull.isSome ++ ", push: " ++ toString p.push.isSome
    ++ ", .. \x7d"

end CartridgeBay

end DuplexAudio
