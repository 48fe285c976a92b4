/-
  The double buffer that a circular transfer channel streams.

  The hardware sees one linear region of words and wraps around in it forever; software sees two
  halves, each a block.  The region is what is stored here, and a half is a view of it: sample
  `(n, ch)` of half `h` is word `position h n ch`.  `readHalf_writeHalf_self` and
  `readHalf_writeHalf_ne` say that writing a half changes that half and nothing else.
-/
import DuplexAudio.Block

namespace DuplexAudio

/-- Words in one half of a region with `c` channels. -/
abbrev halfWords (c : Nat) : Nat := framesPerBlock * c

/-- Words in a whole region with `c` channels. -/
abbrev regionWords (c : Nat) : Nat := 2 * halfWords c

/-- Two halves of `c` channels each, stored as one linear region. -/
structure DoubleBuffer (c : Nat) where
  /-- The region as the transfer channel sees it, first half first, frame by frame. -/
  words : Vector Int32 (regionWords c)
  deriving DecidableEq

namespace DoubleBuffer

variable {c : Nat}

theorem index_mul_add_lt (h : Half) {i w : Nat} (hi : i < w) : h.index * w + i < 2 * w := by
  cases h <;> simp only [Half.index] <;> omega

theorem frame_mul_add_lt (n : Fin framesPerBlock) (ch : Fin c) :
    n.val * c + ch.val < framesPerBlock * c := by
  have h1 : n.val * c + ch.val < (n.val + 1) * c := by
    rw [Nat.add_mul, Nat.one_mul]
    exact Nat.add_lt_add_left ch.isLt _
  exact Nat.lt_of_lt_of_le h1 (Nat.mul_le_mul_right c n.isLt)

/-- The word that holds channel `ch` of frame `n` of half `h`. -/
def position (h : Half) (n : Fin framesPerBlock) (ch : Fin c) : Fin (regionWords c) :=
  ⟨h.index * halfWords c + (n.val * c + ch.val), index_mul_add_lt h (frame_mul_add_lt n ch)⟩

/-- One word of the region. -/
def word (b : DoubleBuffer c) (i : Fin (regionWords c)) : Int32 := b.words[i]

/-- The region with given words. -/
def ofWords (f : Fin (regionWords c) → Int32) : DoubleBuffer c := ⟨Vector.ofFn f⟩

/-- Both halves silent. -/
def silence : DoubleBuffer c := ofWords fun _ => 0

instance : Inhabited (DoubleBuffer c) := ⟨silence⟩

/-- One half, as a block. -/
def readHalf (b : DoubleBuffer c) (h : Half) : Block c :=
  Block.ofFn fun n ch => b.word (position h n ch)

theorem channels_pos (i : Fin (regionWords c)) : 0 < c := by
  rcases Nat.eq_zero_or_pos c with rfl | hc
  · exact absurd i.isLt (by simp [regionWords, halfWords])
  · exact hc

/-- The frame that a word belongs to, within its half. -/
def frameOf (i : Fin (regionWords c)) : Fin framesPerBlock :=
  ⟨i.val % halfWords c / c, by
    have hc := channels_pos i
    rw [Nat.div_lt_iff_lt_mul hc]
    exact Nat.mod_lt _ (Nat.mul_pos (by decide) hc)⟩

/-- The channel that a word belongs to. -/
def channelOf (i : Fin (regionWords c)) : Fin c := ⟨i.val % c, Nat.mod_lt _ (channels_pos i)⟩

/-- The region with one half replaced by a block. -/
def writeHalf (b : DoubleBuffer c) (h : Half) (block : Block c) : DoubleBuffer c :=
  ofWords fun i =>
    if i.val / halfWords c = h.index then block.get (frameOf i) (channelOf i) else b.word i

/-- The region with one sample replaced. -/
def writeSample (b : DoubleBuffer c) (h : Half) (n : Fin framesPerBlock) (ch : Fin c) (v : Int32) :
    DoubleBuffer c :=
  ⟨b.words.set (position h n ch).val v (position h n ch).isLt⟩

/-- The region with silence written to both halves. -/
def clear (b : DoubleBuffer c) : DoubleBuffer c :=
  (b.writeHalf .first Block.silence).writeHalf .second Block.silence

/-! ## Where things are, in bytes -/

/-- Bytes in one half of a region with `c` channels. -/
def halfBytes (c : Nat) : Nat := 4 * halfWords c

/-- Offset of a half from the start of its region, in bytes. -/
def halfOffset (c : Nat) (h : Half) : Nat := h.index * halfBytes c

/-! ## Reading what was written -/

@[simp] theorem word_ofWords (f : Fin (regionWords c) → Int32) (i : Fin (regionWords c)) :
    (ofWords f).word i = f i := by simp [word, ofWords]

@[simp] theorem get_readHalf (b : DoubleBuffer c) (h : Half) (n : Fin framesPerBlock) (ch : Fin c) :
    (b.readHalf h).get n ch = b.word (position h n ch) := by simp [readHalf]

theorem position_div (h : Half) (n : Fin framesPerBlock) (ch : Fin c) :
    (position h n ch).val / halfWords c = h.index := by
  have hlt := frame_mul_add_lt n ch
  have hpos : 0 < halfWords c := Nat.lt_of_le_of_lt (Nat.zero_le _) hlt
  show (h.index * halfWords c + (n.val * c + ch.val)) / halfWords c = h.index
  rw [Nat.mul_comm, Nat.mul_add_div hpos, Nat.div_eq_of_lt hlt, Nat.add_zero]

theorem position_mod (h : Half) (n : Fin framesPerBlock) (ch : Fin c) :
    (position h n ch).val % halfWords c = n.val * c + ch.val := by
  show (h.index * halfWords c + (n.val * c + ch.val)) % halfWords c = _
  rw [Nat.mul_comm, Nat.mul_add_mod, Nat.mod_eq_of_lt (frame_mul_add_lt n ch)]

@[simp] theorem frameOf_position (h : Half) (n : Fin framesPerBlock) (ch : Fin c) :
    frameOf (position h n ch) = n := by
  apply Fin.ext
  have hc : 0 < c := Nat.lt_of_le_of_lt (Nat.zero_le _) ch.isLt
  show (position h n ch).val % halfWords c / c = n.val
  rw [position_mod, Nat.mul_comm, Nat.mul_add_div hc, Nat.div_eq_of_lt ch.isLt, Nat.add_zero]

@[simp] theorem channelOf_position (h : Half) (n : Fin framesPerBlock) (ch : Fin c) :
    channelOf (position h n ch) = ch := by
  apply Fin.ext
  show (position h n ch).val % c = ch.val
  have hdvd : c ∣ halfWords c := ⟨framesPerBlock, Nat.mul_comm _ _⟩
  rw [← Nat.mod_mod_of_dvd _ hdvd, position_mod, Nat.mul_comm, Nat.mul_add_mod,
    Nat.mod_eq_of_lt ch.isLt]

theorem position_inj {h k : Half} {n m : Fin framesPerBlock} {ch dh : Fin c} :
    position h n ch = position k m dh ↔ h = k ∧ n = m ∧ ch = dh := by
  constructor
  · intro he
    refine ⟨Half.index_inj.mp ?_, ?_, ?_⟩
    · rw [← position_div h n ch, ← position_div k m dh, he]
    · rw [← frameOf_position h n ch, ← frameOf_position k m dh, he]
    · rw [← channelOf_position h n ch, ← channelOf_position k m dh, he]
  · rintro ⟨rfl, rfl, rfl⟩
    rfl

@[simp] theorem readHalf_writeHalf_self (b : DoubleBuffer c) (h : Half) (block : Block c) :
    (b.writeHalf h block).readHalf h = block := by
  apply Block.ext_get
  intro n ch
  simp [writeHalf, position_div]

theorem readHalf_writeHalf_ne (b : DoubleBuffer c) {h k : Half} (hk : k ≠ h) (block : Block c) :
    (b.writeHalf h block).readHalf k = b.readHalf k := by
  apply Block.ext_get
  intro n ch
  have hne : ¬k.index = h.index := fun he => hk (Half.index_inj.mp he)
  simp [writeHalf, position_div, hne]

@[simp] theorem readHalf_silence (h : Half) :
    (silence : DoubleBuffer c).readHalf h = Block.silence := by
  apply Block.ext_get
  intro n ch
  simp [silence]

end DoubleBuffer

/-- The two regions of a full-duplex stream. -/
structure Buffers where
  /-- Region that the receive channel fills. -/
  capture : DoubleBuffer captureChannels
  /-- Region that the transmit channel drains. -/
  playback : DoubleBuffer playbackChannels
  deriving DecidableEq

namespace Buffers

/-- Silence in both regions. -/
def silence : Buffers := ⟨DoubleBuffer.silence, DoubleBuffer.silence⟩

instance : Inhabited Buffers := ⟨silence⟩

/-- Store a captured block. -/
def writeCapture (b : Buffers) (h : Half) (block : CaptureBlock) : Buffers :=
  { b with capture := b.capture.writeHalf h block }

/-- Store a block to be played. -/
def writePlayback (b : Buffers) (h : Half) (block : PlaybackBlock) : Buffers :=
  { b with playback := b.playback.writeHalf h block }

@[simp] theorem capture_writeCapture (b : Buffers) (h : Half) (block : CaptureBlock) :
    (b.writeCapture h block).capture = b.capture.writeHalf h block := by
  unfold writeCapture
  rfl

@[simp] theorem playback_writePlayback (b : Buffers) (h : Half) (block : PlaybackBlock) :
    (b.writePlayback h block).playback = b.playback.writeHalf h block := by
  unfold writePlayback
  rfl

@[simp] theorem playback_writeCapture (b : Buffers) (h : Half) (block : CaptureBlock) :
    (b.writeCapture h block).playback = b.playback := by
  unfold writeCapture
  rfl

@[simp] theorem capture_writePlayback (b : Buffers) (h : Half) (block : PlaybackBlock) :
    (b.writePlayback h block).capture = b.capture := by
  unfold writePlayback
  rfl

end Buffers

end DuplexAudio
