/-
  One block, end to end.

  A stream without a fault, on which no block is in progress, is asked for a block.  The processor
  finishes at once, and the hooks of the bay return.  Then

  1. what happens is, in this order: the captured half is acquired, the pull hook is called, the
     processor is called and stores what it made, the played half is published, the push hook is
     called (`runBlock_of_returns`);
  2. what is acquired and published is the whole of a half and nothing else: of all samples in its
     region, its own (`MemoryByte.ofSample_inHalf_iff`);
  3. data goes from the captured half and the pull hook to the processor, and from there to the
     played half and the push hook.  Nothing else changes but the count of blocks.

  `Passed` has these as fields.
-/
import DuplexAudio.Proofs.Memory.Coherence
import Mathlib.Algebra.Group.Nat.Defs

namespace DuplexAudio

open DoubleBuffer

/-- One of the four bytes of a sample. -/
def MemoryByte.ofSample (d : Direction) (h : Half) (n : Fin framesPerBlock)
    (ch : Fin d.bufferChannels) (i : Fin 4) : MemoryByte :=
  ⟨d, 4 * (position h n ch).val + i.val⟩

/-- **A half is made of the bytes of its own samples**, and of no others. -/
theorem MemoryByte.ofSample_inHalf_iff (d : Direction) (h k : Half) (n : Fin framesPerBlock)
    (ch : Fin d.bufferChannels) (i : Fin 4) : (ofSample d k n ch i).InHalf d h ↔ k = h := by
  have hword := frame_mul_add_lt n ch
  have hi := i.isLt
  have hoffset : (ofSample d k n ch i).offset =
      4 * (k.index * halfWords d.bufferChannels + (n.val * d.bufferChannels + ch.val)) + i.val :=
    rfl
  unfold InHalf halfOffset halfBytes
  rw [hoffset]
  unfold halfWords
  cases h <;> cases k <;> simp [Half.index, ofSample] <;> omega

namespace Stream

variable {π η : Type} [Processor π] [CartridgeHook η]

/-- What the cartridges deliver for a block: what the pull hook leaves, or silence without one. -/
def delivery (bay : CartridgeBay η) : CartridgeAudio :=
  match bay.pull with
  | none => CartridgeAudio.silence
  | some hook => (CartridgeHook.pull framesPerBlock bay.input hook).2

/-- What the processor of a block sees. -/
def shown (s : Stream) (half : Half) (bay : CartridgeBay η) : BlockView where
  settings := s.settings
  captured := s.buffers.capture.readHalf half
  cartridgeIn := delivery bay
  played := s.buffers.playback.readHalf half
  cartridgeOut := bay.output
  frames := framesPerBlock

/-- The bay after a block whose processor made `output` for the cartridges. -/
def served (bay : CartridgeBay η) (output : CartridgeAudio) : CartridgeBay η where
  pull := bay.pull.map fun hook => (CartridgeHook.pull framesPerBlock bay.input hook).1
  push := bay.push.map (CartridgeHook.push framesPerBlock output)
  input := delivery bay
  output

/-- What happens in a block whose processor returns, oldest first. -/
def blockEvents (s : Stream) (half : Half) (bay : CartridgeBay η) (output : CartridgeAudio) :
    List StreamEvent :=
  [.acquire .rx half]
    ++ (if bay.pull.isSome then [.pull framesPerBlock] else [])
    ++ [.process (s.shown half bay), .store .tx half, .publish .tx half]
    ++ if bay.push.isSome then [.push framesPerBlock output] else []

/-- **A block whose processor returns**, all that it leaves. -/
theorem runBlock_of_returns {s : Stream} (hfault : s.fault = none) (hfree : s.occupied = false)
    {half : Half} {p next : π} {bay : CartridgeBay η} {out : BlockOutput}
    (hreturns : Processor.process p (s.shown half bay) = .finish next out) :
    s.runBlock half p bay =
      { stream := { s with
          buffers := s.buffers.writePlayback half out.played
          processed := s.processed + 1 }
        processor := next
        bay := served bay out.cartridgeOut
        ending := .completed
        events := s.blockEvents half bay out.cartridgeOut } := by
  have haccepts : s.accepts = true := by rw [accepts, hfault, hfree]; rfl
  have hview : s.occupy.view ⟨half, s.settings⟩ (bay.pulled framesPerBlock).input
      (bay.pulled framesPerBlock).output = s.shown half bay := by
    unfold CartridgeBay.pulled shown delivery
    cases bay.pull <;> rfl
  unfold runBlock
  rw [if_pos haccepts]
  unfold beginBlock finishBlock
  dsimp only
  rw [hview, hreturns]
  -- the processor has finished: what is left is to compare what either side says
  have hstream : (s.occupy.written half out.played).counted =
      { s with
        buffers := s.buffers.writePlayback half out.played
        processed := s.processed + 1 } := by
    unfold written occupy counted
    rw [hfree]
  have hbay : CartridgeBay.pushed
      { bay.pulled framesPerBlock with output := out.cartridgeOut } framesPerBlock =
        served bay out.cartridgeOut := by
    obtain ⟨pull, push, input, output⟩ := bay
    cases pull <;> rfl
  have hpush : (bay.pulled framesPerBlock).push = bay.push := by
    obtain ⟨pull, push, input, output⟩ := bay
    cases pull <;> rfl
  unfold perform
  dsimp only
  rw [if_pos rfl, hstream, hbay]
  unfold blockEvents pullEvents pushEvents
  simp [hpush]

/-- What a block leads to whose processor returns, as the processor `next` with `out` written. -/
structure Passed (s : Stream) (half : Half) (bay : CartridgeBay η) (next : π) (out : BlockOutput)
    (r : BlockRun π η) : Prop where
  completed : r.ending = .completed
  /-- The order of what happens, with what the processor sees and what the push hook sees. -/
  events : r.events = s.blockEvents half bay out.cartridgeOut
  /-- What is acquired and published is a whole half, and nothing of the other one. -/
  whole : ∀ d k n ch i, (MemoryByte.ofSample d k n ch i).InHalf d half ↔ k = half
  played : r.stream.buffers.playback.readHalf half = out.played
  otherPlayed :
    r.stream.buffers.playback.readHalf half.other = s.buffers.playback.readHalf half.other
  captured : r.stream.buffers.capture = s.buffers.capture
  /-- The settings, the pairing, the latch and the arming are left alone. -/
  frame : Frame s r.stream
  free : r.stream.occupied = false
  processor : r.processor = next
  bay : r.bay = served bay out.cartridgeOut
  counted : r.stream.processed.toNat = (s.processed.toNat + 1) % 2 ^ 32

/-- **One block, end to end**, whatever is streamed, whatever the cartridges hold, and whatever the
processor and the hooks do as long as they return. -/
theorem block_passes {s : Stream} (hfault : s.fault = none) (hfree : s.occupied = false)
    (half : Half) {p next : π} (bay : CartridgeBay η) {out : BlockOutput}
    (hreturns : Processor.process p (s.shown half bay) = .finish next out) :
    Passed s half bay next out (s.runBlock half p bay) := by
  rw [runBlock_of_returns hfault hfree hreturns]
  have hother : half.other ≠ half := half.other_ne
  exact {
    completed := rfl
    events := rfl
    whole := fun d k n ch i => MemoryByte.ofSample_inHalf_iff d half k n ch i
    played := by
      rw [Buffers.playback_writePlayback, readHalf_writeHalf_self]
    otherPlayed := by
      rw [Buffers.playback_writePlayback, readHalf_writeHalf_ne _ hother]
    captured := Buffers.capture_writePlayback _ _ _
    frame := ⟨rfl, rfl, rfl, rfl⟩
    free := hfree
    processor := rfl
    bay := rfl
    counted := UInt32.toNat_add _ _ }

/-- A block of a processor that copies, with both hooks, on a stream whose count is to wrap. -/
theorem copied_block_passes :
    let s : Stream := { processed := 4294967295 }
    let bay : CartridgeBay Bench.Hook := { pull := some (.ramp 0), push := some .idle }
    s.fault = none ∧ s.occupied = false ∧
      Passed s .second bay Bench.Instrument.copy
        (Bench.Instrument.copyOutput (s.shown .second bay))
        (s.runBlock .second Bench.Instrument.copy bay) :=
  ⟨rfl, rfl, block_passes rfl rfl .second _ rfl⟩

end Stream

end DuplexAudio
