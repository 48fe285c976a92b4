/-
  A tone has no seams: it is the same however its frames are split into blocks.

  What it is compared with is its stream, frame by frame: the samples that a series of blocks of one
  frame each would play (`streamSample`), and the oscillator that they would leave
  (`afterSingles`).

  1. A block renders the samples of the stream and leaves the oscillator of the stream, because it
     advances once for each frame that it writes, and not once for a block or for a frame that it
     was asked for and does not have (`render_samples`, `render_next`).

  2. What it writes is the same sample on all channels of its first frames, and nothing else
     (`played_of_lt`, `played_of_le`).

  3. A series of blocks is an induction: what the first block leaves is where the stream goes on
     (`afterSingles_add`, `streamSample_add`).
-/
import DuplexAudio.Processor.Tone
import Mathlib.Data.List.FinRange
import Mathlib.Logic.Function.Iterate

namespace DuplexAudio

namespace Tone

/-! ## Frame by frame -/

/-- How many frames of a block are written: those that were asked for, as many as there are. -/
def frameCount (v : BlockView) : ℕ := min v.frames framesPerBlock

theorem framesPerBlock_pos : 0 < framesPerBlock := by decide

theorem frameCount_eq_zero_iff {v : BlockView} : frameCount v = 0 ↔ v.frames = 0 := by
  have h16 : framesPerBlock = 16 := rfl
  unfold frameCount
  omega

/-- A block of one frame. -/
def single : BlockView where
  settings := MixSettings.unity
  captured := Block.silence
  cartridgeIn := CartridgeAudio.silence
  played := Block.silence
  cartridgeOut := CartridgeAudio.silence
  frames := 1

section Play

variable [SineFunction]

/-- The oscillator after a series of blocks of one frame each. -/
def afterSingles (t : Tone) (k : ℕ) : Tone := (fun u => (u.output single).1)^[k] t

/-- The stream, frame by frame: what the next block of one frame plays on a channel, after `k` of
them. -/
def streamSample (t : Tone) (ch : Fin playbackChannels) (k : ℕ) : Int32 :=
  ((t.afterSingles k).output single).2.played.get ⟨0, framesPerBlock_pos⟩ ch

/-! ## One block -/

/-- The oscillator after a block: one step for each frame that is written. -/
theorem render_next (t : Tone) (n : ℕ) : (t.render n).2 = advance^[n] t := by
  induction n generalizing t with
  | zero => rfl
  | succ n ih => exact ih t.advance

/-- The samples of a block: one for each frame that is written. -/
theorem render_samples (t : Tone) (n : ℕ) :
    (t.render n).1 = (List.range n).map fun k => (advance^[k] t).sample := by
  induction n generalizing t with
  | zero => rfl
  | succ n ih =>
    rw [List.range_succ_eq_map, List.map_cons, List.map_map]
    show t.sample :: (t.advance.render n).1 = _
    rw [ih]
    rfl

theorem output_next (t : Tone) (v : BlockView) : (t.output v).1 = advance^[frameCount v] t :=
  t.render_next _

/-- **A frame that is written** plays the sample of its place in the stream, on every channel. -/
theorem played_of_lt (t : Tone) {v : BlockView} {n : Fin framesPerBlock}
    (hn : n.val < frameCount v) (ch : Fin playbackChannels) :
    (t.output v).2.played.get n ch = (advance^[n.val] t).sample := by
  show (Block.overwrite (frameCount v) (Block.ofFn fun n _ =>
    (t.render (frameCount v)).1.getD n.val 0) v.played).get n ch = _
  rw [Block.get_overwrite, if_pos hn, Block.get_ofFn, render_samples, List.getD_eq_getElem?_getD,
    List.getElem?_map, List.getElem?_range hn]
  rfl

/-- A frame that is not written is left as it was. -/
theorem played_of_le (t : Tone) {v : BlockView} {n : Fin framesPerBlock}
    (hn : frameCount v ≤ n.val) (ch : Fin playbackChannels) :
    (t.output v).2.played.get n ch = v.played.get n ch := by
  show (Block.overwrite (frameCount v) _ v.played).get n ch = _
  rw [Block.get_overwrite, if_neg (by omega)]

/-! ## The stream -/

theorem afterSingles_eq (t : Tone) (k : ℕ) : t.afterSingles k = advance^[k] t := rfl

theorem streamSample_eq (t : Tone) (ch : Fin playbackChannels) (k : ℕ) :
    t.streamSample ch k = (advance^[k] t).sample :=
  played_of_lt _ (by decide) ch

/-- The stream goes on from where it was. -/
theorem afterSingles_add (t : Tone) (m n : ℕ) :
    t.afterSingles (m + n) = (t.afterSingles m).afterSingles n := by
  rw [Nat.add_comm]
  exact Function.iterate_add_apply _ n m t

theorem streamSample_add (t : Tone) (ch : Fin playbackChannels) (m n : ℕ) :
    t.streamSample ch (m + n) = (t.afterSingles m).streamSample ch n := by
  unfold streamSample
  rw [afterSingles_add]

/-! ## A series of blocks -/

/-- What the blocks of a series leave, and the oscillator after them. -/
def playBlocks (t : Tone) : List BlockView → List BlockOutput × Tone
  | [] => ([], t)
  | v :: vs =>
    let (next, out) := t.output v
    let (outs, last) := next.playBlocks vs
    (out :: outs, last)

/-- The samples of one channel in the frames of a block that are written. -/
def writtenSamples (ch : Fin playbackChannels) (v : BlockView) (out : BlockOutput) : List Int32 :=
  ((List.finRange framesPerBlock).take v.frames).map fun n => out.played.get n ch

/-- What a block writes is the beginning of the stream. -/
theorem writtenSamples_output (t : Tone) (v : BlockView) (ch : Fin playbackChannels) :
    writtenSamples ch v (t.output v).2 = (List.range (frameCount v)).map (t.streamSample ch) := by
  unfold writtenSamples
  apply List.ext_getElem
  · simp [frameCount]
  · intro i hi _
    have hcount : i < frameCount v := by simpa [frameCount] using hi
    rw [List.getElem_map, List.getElem_map, List.getElem_range, List.getElem_take,
      List.getElem_finRange, streamSample_eq]
    exact t.played_of_lt hcount ch

theorem playBlocks_cons (t : Tone) (v : BlockView) (vs : List BlockView) :
    t.playBlocks (v :: vs) = ((t.output v).2 :: ((t.afterSingles (frameCount v)).playBlocks vs).1,
      ((t.afterSingles (frameCount v)).playBlocks vs).2) := by
  rw [afterSingles_eq, ← output_next]
  rfl

/-- The number of frames that a series of blocks writes. -/
def totalFrames : List BlockView → ℕ
  | [] => 0
  | v :: vs => frameCount v + totalFrames vs

/-- Induction on the blocks of a series: the oscillator after them. -/
theorem playBlocks_next (t : Tone) (vs : List BlockView) :
    (t.playBlocks vs).2 = t.afterSingles (totalFrames vs) := by
  induction vs generalizing t with
  | nil => rfl
  | cons v vs ih =>
    rw [playBlocks_cons, ih, ← afterSingles_add]
    rfl

/-- Induction on the blocks of a series: the samples that they write. -/
theorem playBlocks_written (t : Tone) (vs : List BlockView) (ch : Fin playbackChannels) :
    (List.zipWith (writtenSamples ch) vs (t.playBlocks vs).1).flatten =
      (List.range (totalFrames vs)).map (t.streamSample ch) := by
  induction vs generalizing t with
  | nil => rfl
  | cons v vs ih =>
    have hrest : (fun k => t.streamSample ch (frameCount v + k)) =
        (t.afterSingles (frameCount v)).streamSample ch := funext (t.streamSample_add ch _)
    have htotal : totalFrames (v :: vs) = frameCount v + totalFrames vs := rfl
    rw [playBlocks_cons, List.zipWith_cons_cons, List.flatten_cons, ih, writtenSamples_output,
      htotal, List.range_add, List.map_append, List.map_map, ← hrest]
    rfl

/-- What a block keeps to: one sample on all channels of a frame that is written, the other frames
as they were, and silence for the cartridges. -/
structure KeepsTo (v : BlockView) (out : BlockOutput) : Prop where
  alike : ∀ n ch, n.val < frameCount v → out.played.get n ch = out.played.get n 0
  untouched : ∀ n ch, frameCount v ≤ n.val → out.played.get n ch = v.played.get n ch
  cartridges : ∀ k, out.cartridgeOut.get k = Block.silence

theorem output_keepsTo (t : Tone) (v : BlockView) : KeepsTo v (t.output v).2 where
  alike n ch hn := by rw [t.played_of_lt hn ch, t.played_of_lt hn 0]
  untouched n ch hn := t.played_of_le hn ch
  cartridges := CartridgeAudio.get_silence

theorem playBlocks_keepsTo (t : Tone) (vs : List BlockView) :
    List.Forall₂ KeepsTo vs (t.playBlocks vs).1 := by
  induction vs generalizing t with
  | nil => exact .nil
  | cons v vs ih =>
    rw [playBlocks_cons]
    exact .cons (t.output_keepsTo v) (ih _)

/-- **A tone has no seams.**  Whatever state the oscillator is in, and whatever numbers of frames
the blocks of a series are asked for:
(1) every block finishes;
(2) the series leaves the oscillator that as many blocks of one frame leave as it writes frames,
    and on every channel writes the samples that they play, in order, and no others;
(3) in each block the channels of a frame that is written are equal, the other frames are left as
    they were, and the cartridges are silent;
(4) another series that writes as many frames writes the same samples and leaves the same
    oscillator, however its frames are split and whatever its blocks are shown: settings, captured
    samples, cartridges, and what was there before. -/
theorem blocks_without_seams (t : Tone) (vs : List BlockView) :
    (∀ (u : Tone) (v : BlockView),
      Processor.process u v = .finish (u.output v).1 (u.output v).2) ∧
    ((t.playBlocks vs).2 = t.afterSingles (totalFrames vs) ∧
      ∀ ch, (List.zipWith (writtenSamples ch) vs (t.playBlocks vs).1).flatten =
        (List.range (totalFrames vs)).map (t.streamSample ch)) ∧
    List.Forall₂ KeepsTo vs (t.playBlocks vs).1 ∧
    ∀ ws : List BlockView, totalFrames ws = totalFrames vs →
      (t.playBlocks ws).2 = (t.playBlocks vs).2 ∧
      ∀ ch, (List.zipWith (writtenSamples ch) ws (t.playBlocks ws).1).flatten =
        (List.zipWith (writtenSamples ch) vs (t.playBlocks vs).1).flatten := by
  refine ⟨fun _ _ => rfl, ⟨t.playBlocks_next vs, t.playBlocks_written vs⟩,
    t.playBlocks_keepsTo vs, fun ws htotal => ⟨?_, fun ch => ?_⟩⟩
  · rw [playBlocks_next, playBlocks_next, htotal]
  · rw [playBlocks_written, playBlocks_written, htotal]

end Play

end Tone

end DuplexAudio
