/-
  Processors and cartridge hooks to try a stream with.
-/
import DuplexAudio.Bench.Sine
import DuplexAudio.Processor.Mixer
import DuplexAudio.Stream.CartridgeBay

namespace DuplexAudio.Bench

/-! ## Processors -/

/-- A processor that can be chosen while a bench runs. -/
inductive Instrument where
  | mixer
  | tone (tone : Tone)
  /-- Plays the left channels plus the number of the frame, and returns cartridge audio. -/
  | copy
  | unwinding
  deriving DecidableEq

namespace Instrument

instance : Inhabited Instrument := ⟨mixer⟩

/-- What `copy` writes. -/
def copyOutput (v : BlockView) : BlockOutput where
  played := Block.ofFn fun n ch =>
    v.captured.get n (Mixer.leftChannel ch) + Int32.ofNat n.val
  cartridgeOut := v.cartridgeIn

instance : Processor Instrument where
  process p v :=
    match p with
    | mixer => .finish mixer (Mixer.output v)
    | tone t =>
      let (t, output) := t.output v
      .finish (.tone t) output
    | copy => .finish copy (copyOutput v)
    | unwinding => .unwind unwinding v.untouched

end Instrument

/-- A processor that asks for a block of `half` from inside its own block, and marks the first
sample of the first cartridge. -/
structure Reentrant where
  half : Half

instance : Processor Reentrant where
  process p v :=
    let marked := v.cartridgeOut.set 0 ((v.cartridgeOut.get 0).set 0 0 1)
    .nested p.half (fun w => .finish p (Mixer.output w))
      fun _ => .finish p { v.untouched with cartridgeOut := marked }

/-- An instrument behind a gate: the next block to reach the gate can be made to unwind there. -/
structure Gated where
  /-- What is behind the gate. -/
  instrument : Instrument
  /-- Whether the next block to reach the gate unwinds. -/
  trips : Bool := false
  /-- Whether the block in hand is past the gate already. -/
  passed : Bool := false
  deriving DecidableEq

/-- An activity with its processor put behind a gate. -/
def Gated.lift : Activity Instrument → Gated → Activity Gated
  | .finish next output, g => .finish { g with instrument := next } output
  | .unwind next output, g => .unwind { g with instrument := next } output
  | .nested half inner resume, g =>
    .nested half (fun v => lift (inner v) g) fun accepted => lift (resume accepted) g

instance : Processor Gated where
  process g v :=
    if g.trips ∧ ¬g.passed then .unwind { g with trips := false } v.untouched
    else Gated.lift (Processor.process g.instrument v) { g with passed := false }

/-! ## Hooks -/

/-- A hook that can be chosen while a bench runs. -/
inductive Hook where
  /-- Fills all cartridges with a ramp that tells the call, cartridge, frame and channel. -/
  | ramp (calls : Nat)
  /-- Fills the first cartridge with the number of frames plus the number of the call. -/
  | first (calls : Nat)
  | idle
  deriving DecidableEq

instance : CartridgeHook Hook where
  pull frames block hook :=
    match hook with
    | .ramp calls =>
      let call := calls + 1
      (.ramp call, CartridgeAudio.ofFn fun k => Block.ofFn fun n ch =>
        Int32.ofNat (10000 * call + 1000 * k.val + 10 * n.val + ch.val))
    | .first calls =>
      let call := calls + 1
      (.first call, block.set 0 (Block.splat (Int32.ofNat (frames + call))))
    | .idle => (.idle, block)
  push _ _ hook := hook

/-- A sum of all samples, each weighted with its place. -/
def checksum (b : CartridgeAudio) : Int :=
  let samples := b.cartridges.toList.flatMap fun block =>
    block.frames.toList.flatMap fun frame => frame.toList.map Int32.toInt
  samples.zipIdx.foldl (fun sum (v, i) => sum + (i + 1) * v) 0

end DuplexAudio.Bench
