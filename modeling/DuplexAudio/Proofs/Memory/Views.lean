/-
  The linear view of a double buffer, and the view of its halves.

  A transfer channel counts words from the start of the region; software names a half, a frame of
  it and a channel.  A wrong stride between frames, or a wrong offset of the second half, would let
  channels or halves change places.

  1. **One address for both** — word `i` is in half `i / 16c`, at frame `i % 16c / c` and channel
     `i % c`, and that sample is at word `i` (`position_halfOf`).  So the region is its two halves
     end to end, each frame by frame, whatever it holds (`words_eq_endToEnd`).

  2. **One store** — a word becomes what the store has for its sample, and stays as it is if the
     store has nothing for it (`word_after`).  The store is described by half, frame and channel;
     the word by its number in the region.

  3. **All stores** — by induction on them, a word is what was stored last (`word_run`).
-/
import DuplexAudio.Memory.DoubleBuffer

namespace DuplexAudio

/-! ## Stores -/

/-- What software does to a double buffer. -/
inductive Store (c : Nat) where
  /-- A block is copied into a half. -/
  | half (h : Half) (block : Block c)
  /-- One sample of a half is changed in place. -/
  | sample (h : Half) (n : Fin framesPerBlock) (ch : Fin c) (v : Int32)
  /-- Both halves are silenced. -/
  | clear

variable {c : Nat}

/-- The value that a store has for a sample. -/
def Store.value? : Store c → Half → Fin framesPerBlock → Fin c → Option Int32
  | half k block, h, n, ch => if h = k then some (block.get n ch) else none
  | sample k m dh v, h, n, ch => if h = k ∧ n = m ∧ ch = dh then some v else none
  | clear, _, _, _ => some 0

/-- The value that was stored last for a sample. -/
def lastStored? (stores : List (Store c)) (h : Half) (n : Fin framesPerBlock) (ch : Fin c) :
    Option Int32 := stores.reverse.findSome? fun store => store.value? h n ch

theorem lastStored?_cons (store : Store c) (rest : List (Store c)) (h : Half)
    (n : Fin framesPerBlock) (ch : Fin c) : lastStored? (store :: rest) h n ch =
      (lastStored? rest h n ch).or (store.value? h n ch) := by
  simp [lastStored?, List.findSome?_append]

namespace DoubleBuffer

/-- The region after a store. -/
def after (b : DoubleBuffer c) : Store c → DoubleBuffer c
  | .half h block => b.writeHalf h block
  | .sample h n ch v => b.writeSample h n ch v
  | .clear => b.clear

/-- The region after a list of stores. -/
def run (b : DoubleBuffer c) (stores : List (Store c)) : DoubleBuffer c := stores.foldl after b

/-! ## One address for both -/

/-- The half that a word belongs to. -/
def halfOf (i : Fin (regionWords c)) : Half := if i.val < halfWords c then .first else .second

theorem index_halfOf (i : Fin (regionWords c)) : (halfOf i).index = i.val / halfWords c := by
  have hlt : i.val < 2 * halfWords c := i.isLt
  unfold halfOf
  split
  next h => exact (Nat.div_eq_of_lt h).symm
  next h =>
    show 1 = _
    exact (Nat.div_eq_of_lt_le (by omega) (by omega)).symm

theorem channelOf_val (i : Fin (regionWords c)) :
    (channelOf i).val = i.val % halfWords c % c :=
  (Nat.mod_mod_of_dvd _ (Nat.dvd_mul_left c framesPerBlock)).symm

/-- **The sample that a word belongs to is at that word.** -/
theorem position_halfOf (i : Fin (regionWords c)) :
    position (halfOf i) (frameOf i) (channelOf i) = i := by
  have hframe : (frameOf i).val * c + (channelOf i).val = i.val % halfWords c := by
    rw [channelOf_val]
    exact Nat.div_add_mod' _ _
  apply Fin.ext
  show (halfOf i).index * halfWords c + ((frameOf i).val * c + (channelOf i).val) = i.val
  rw [hframe, index_halfOf]
  exact Nat.div_add_mod' _ _

theorem position_eq_iff {h : Half} {n : Fin framesPerBlock} {ch : Fin c}
    {i : Fin (regionWords c)} :
    position h n ch = i ↔ halfOf i = h ∧ frameOf i = n ∧ channelOf i = ch := by
  rw [← position_inj, position_halfOf]
  exact eq_comm

theorem word_eq_get_readHalf (b : DoubleBuffer c) (i : Fin (regionWords c)) :
    b.word i = (b.readHalf (halfOf i)).get (frameOf i) (channelOf i) := by
  rw [get_readHalf, position_halfOf]

/-- Two blocks end to end, each frame by frame. -/
def endToEnd (first second : Block c) : Vector Int32 (regionWords c) :=
  #v[first.frames.flatten, second.frames.flatten].flatten

theorem getElem_flatten_frames (block : Block c) (i : Fin (regionWords c))
    (hlt : i.val % halfWords c < framesPerBlock * c) :
    block.frames.flatten[i.val % halfWords c] = block.get (frameOf i) (channelOf i) := by
  have hchannel : channelOf i = ⟨i.val % halfWords c % c, Nat.mod_lt _ (channels_pos i)⟩ :=
    Fin.ext (channelOf_val i)
  rw [hchannel, Vector.getElem_flatten]
  rfl

theorem get_endToEnd (first second : Block c) (i : Fin (regionWords c)) :
    (endToEnd first second).get i =
      (if halfOf i = .first then first else second).get (frameOf i) (channelOf i) := by
  -- the bound of the index into the flat vector
  have hi := i.isLt
  have hpick (h : Half) (hlt : h.index < 2) :
      #v[first.frames.flatten, second.frames.flatten][h.index] =
        (if h = .first then first else second).frames.flatten := by
    cases h <;> rfl
  rw [← getElem_flatten_frames _ i (Nat.mod_lt _ (Nat.mul_pos (by decide) (channels_pos i)))]
  show #v[first.frames.flatten, second.frames.flatten].flatten[i.val] = _
  rw [Vector.getElem_flatten]
  simp only [← index_halfOf, hpick]

/-- **The region is its two halves end to end.** -/
theorem words_eq_endToEnd (b : DoubleBuffer c) :
    b.words = endToEnd (b.readHalf .first) (b.readHalf .second) := by
  apply Vector.ext
  intro i hi
  show b.word ⟨i, hi⟩ = (endToEnd (b.readHalf .first) (b.readHalf .second)).get ⟨i, hi⟩
  rw [word_eq_get_readHalf, get_endToEnd]
  cases halfOf ⟨i, hi⟩ <;> rfl

/-- Regions with the same halves are the same region. -/
theorem ext_readHalf {b b' : DoubleBuffer c} (h : ∀ half, b.readHalf half = b'.readHalf half) :
    b = b' := by
  have hwords : b.words = b'.words := by rw [words_eq_endToEnd, h, h, ← words_eq_endToEnd]
  obtain ⟨words⟩ := b
  exact congrArg DoubleBuffer.mk hwords

/-- Writing silence to both halves leaves what a new buffer holds. -/
theorem clear_eq_silence (b : DoubleBuffer c) : b.clear = silence := by
  apply ext_readHalf
  intro half
  unfold clear
  cases half with
  | first =>
    rw [readHalf_writeHalf_ne _ (by decide), readHalf_writeHalf_self, readHalf_silence]
  | second => rw [readHalf_writeHalf_self, readHalf_silence]

/-! ## One store -/

theorem word_silence (i : Fin (regionWords c)) : (silence : DoubleBuffer c).word i = 0 :=
  word_ofWords _ i

theorem word_writeHalf (b : DoubleBuffer c) (h : Half) (block : Block c)
    (i : Fin (regionWords c)) : (b.writeHalf h block).word i =
      if halfOf i = h then block.get (frameOf i) (channelOf i) else b.word i := by
  unfold writeHalf
  rw [word_ofWords, ← index_halfOf]
  simp only [Half.index_inj]

theorem word_writeSample (b : DoubleBuffer c) (h : Half) (n : Fin framesPerBlock) (ch : Fin c)
    (v : Int32) (i : Fin (regionWords c)) : (b.writeSample h n ch v).word i =
      if halfOf i = h ∧ frameOf i = n ∧ channelOf i = ch then v else b.word i := by
  have hset : (b.writeSample h n ch v).word i = if position h n ch = i then v else b.word i := by
    simp [writeSample, word, Vector.getElem_set, Fin.ext_iff]
  rw [hset]
  simp only [position_eq_iff]

/-- **What a word is after a store.** -/
theorem word_after (b : DoubleBuffer c) (store : Store c) (i : Fin (regionWords c)) :
    (b.after store).word i =
      (store.value? (halfOf i) (frameOf i) (channelOf i)).getD (b.word i) := by
  cases store with
  | half h block =>
    show (b.writeHalf h block).word i = Option.getD (if _ then _ else _) _
    rw [word_writeHalf]
    split <;> rfl
  | sample h n ch v =>
    show (b.writeSample h n ch v).word i = Option.getD (if _ then _ else _) _
    rw [word_writeSample]
    split <;> rfl
  | clear =>
    show b.clear.word i = 0
    rw [clear_eq_silence, word_silence]

/-! ## All stores -/

/-- **What a word is after any stores**: induction on the stores. -/
theorem word_run (b : DoubleBuffer c) (stores : List (Store c)) (i : Fin (regionWords c)) :
    (b.run stores).word i =
      (lastStored? stores (halfOf i) (frameOf i) (channelOf i)).getD (b.word i) := by
  induction stores generalizing b with
  | nil => rfl
  | cons store rest ih =>
    show ((b.after store).run rest).word i = _
    rw [ih, word_after, lastStored?_cons]
    cases lastStored? rest (halfOf i) (frameOf i) (channelOf i) <;> rfl

/-- A word of a region after some stores, as software knows it. -/
structure WordAgrees (b : DoubleBuffer c) (stores : List (Store c)) (i : Fin (regionWords c))
    (h : Half) (n : Fin framesPerBlock) (ch : Fin c) : Prop where
  half : h.index = i.val / (16 * c)
  frame : n.val = i.val % (16 * c) / c
  channel : ch.val = i.val % c
  read : b.word i = (b.readHalf h).get n ch
  /-- What was stored last for the sample; silence if nothing was. -/
  last : b.word i = (lastStored? stores h n ch).getD 0

/-- **The two views of a double buffer agree**, for any number of channels.
    (1) After any stores into a silent buffer, the region is its two halves end to end, and each
        word of it is the sample that its number says, and what was stored last for that sample;
    (2) whatever a buffer holds, a store into one half changes no word of the other. -/
theorem views_agree (c : Nat) :
    (∀ stores : List (Store c),
      let b := (silence : DoubleBuffer c).run stores
      b.words = endToEnd (b.readHalf .first) (b.readHalf .second) ∧
        ∀ i, ∃ h n ch, WordAgrees b stores i h n ch) ∧
      ∀ (b : DoubleBuffer c) (h : Half) (i : Fin (regionWords c)), i.val / (16 * c) ≠ h.index →
        (∀ block, (b.writeHalf h block).word i = b.word i) ∧
          ∀ n ch v, (b.writeSample h n ch v).word i = b.word i := by
  constructor
  · intro stores
    refine ⟨words_eq_endToEnd _, ?_⟩
    intro i
    have hlast := word_run silence stores i
    rw [word_silence] at hlast
    exact ⟨halfOf i, frameOf i, channelOf i, index_halfOf i, rfl, rfl, word_eq_get_readHalf _ i,
      hlast⟩
  · intro b h i hi
    have hother : halfOf i ≠ h := fun he => hi (he ▸ (index_halfOf i).symm)
    constructor
    · intro block
      rw [word_writeHalf, if_neg hother]
    · intro n ch v
      rw [word_writeSample, if_neg fun hsample => hother hsample.1]

/-- The last word of a playback region after a few stores, and a store into the other half. -/
theorem views_agree_last_word :
    let stores : List (Store playbackChannels) :=
      [.half .second (Block.splat 7), .sample .second 15 3 9, .half .first (Block.splat 2)]
    let b := (silence : DoubleBuffer playbackChannels).run stores
    let i : Fin (regionWords playbackChannels) := ⟨127, by decide⟩
    i.val / (16 * playbackChannels) ≠ Half.first.index ∧ b.word i = 9 ∧
      (b.writeSample .first 0 0 5).word i = b.word i := by
  refine ⟨by decide, ?_, ((views_agree playbackChannels).2 _ _ _ (by decide)).2 _ _ _⟩
  obtain ⟨-, hall⟩ := (views_agree playbackChannels).1
    [.half .second (Block.splat 7), .sample .second 15 3 9, .half .first (Block.splat 2)]
  obtain ⟨h, n, ch, hhalf, hframe, hchannel, -, hlast⟩ := hall ⟨127, by decide⟩
  obtain rfl : h = .second := Half.index_inj.mp (hhalf.trans (by decide))
  obtain rfl : n = 15 := Fin.ext (hframe.trans (by decide))
  obtain rfl : ch = 3 := Fin.ext (hchannel.trans (by decide))
  rw [hlast]
  rfl

end DoubleBuffer

end DuplexAudio
