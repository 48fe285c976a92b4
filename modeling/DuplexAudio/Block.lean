/-
  Blocks of samples.

  A `Block c` is sixteen frames of `c` channels; a sample is a 24-bit value in a 32-bit word.  A
  `Half` names one half of a double buffer.  `CartridgeAudio` is what all cartridges exchange with
  the stream in one block.

  A block is known by its samples: two blocks with equal samples are equal (`Block.ext_get`), and
  each operation is described by what it does to a sample (`get_ofFn`, `get_splat`,
  `get_overwrite`).
-/
import DuplexAudio.Format

namespace DuplexAudio

/-! ## Halves of a double buffer -/

/-- One half of a double buffer, in the order in which the hardware streams them. -/
inductive Half where
  | first
  | second
  deriving DecidableEq, Repr, Inhabited

namespace Half

/-- The half that the hardware moves to after this one. -/
def other : Half → Half
  | first => second
  | second => first

/-- Position of the half in its region. -/
def index : Half → Nat
  | first => 0
  | second => 1

/-- One-byte code of a half. -/
def code : Half → UInt8
  | first => 0
  | second => 1

/-- The half with a given code; codes other than 0 and 1 name none. -/
def ofCode? (code : UInt8) : Option Half :=
  if code = 0 then some first else if code = 1 then some second else none

@[simp] theorem ofCode?_code (h : Half) : ofCode? h.code = some h := by cases h <;> rfl

@[simp] theorem other_other (h : Half) : h.other.other = h := by cases h <;> rfl

theorem other_ne (h : Half) : h.other ≠ h := by cases h <;> decide

theorem index_lt (h : Half) : h.index < 2 := by cases h <;> decide

theorem eq_or_eq_other (h k : Half) : k = h ∨ k = h.other := by cases h <;> cases k <;> decide

theorem index_inj {h k : Half} : h.index = k.index ↔ h = k := by
  cases h <;> cases k <;> decide

end Half

/-! ## Blocks -/

/-- Sixteen frames of `channels` samples. -/
structure Block (channels : Nat) where
  /-- The frames, in time order. -/
  frames : Vector (Vector Int32 channels) framesPerBlock
  deriving DecidableEq

namespace Block

variable {c : Nat}

/-- The sample of channel `ch` in frame `n`. -/
def get (b : Block c) (n : Fin framesPerBlock) (ch : Fin c) : Int32 := b.frames[n][ch]

/-- The block with a given sample at each place. -/
def ofFn (f : Fin framesPerBlock → Fin c → Int32) : Block c :=
  ⟨Vector.ofFn fun n => Vector.ofFn fun ch => f n ch⟩

/-- The block with one sample replaced. -/
def set (b : Block c) (n : Fin framesPerBlock) (ch : Fin c) (v : Int32) : Block c :=
  ofFn fun m k => if m = n ∧ k = ch then v else b.get m k

/-- The block with the same value everywhere. -/
def splat (v : Int32) : Block c := ofFn fun _ _ => v

/-- Digital silence. -/
def silence : Block c := splat 0

/-- `old`, with its first `k` frames taken from `new`. -/
def overwrite (k : Nat) (new old : Block c) : Block c :=
  ofFn fun n ch => if n.val < k then new.get n ch else old.get n ch

/-- Whether every sample is zero. -/
def isSilent (b : Block c) : Bool := b.frames.all fun frame => frame.all (· == 0)

instance : Inhabited (Block c) := ⟨silence⟩

@[simp] theorem get_ofFn (f : Fin framesPerBlock → Fin c → Int32) (n : Fin framesPerBlock)
    (ch : Fin c) : (ofFn f).get n ch = f n ch := by
  simp [get, ofFn]

/-- Blocks with the same samples are the same block. -/
theorem ext_get {a b : Block c} (h : ∀ n ch, a.get n ch = b.get n ch) : a = b := by
  obtain ⟨a⟩ := a
  obtain ⟨b⟩ := b
  congr 1
  apply Vector.ext
  intro n hn
  apply Vector.ext
  intro ch hch
  exact h ⟨n, hn⟩ ⟨ch, hch⟩

@[simp] theorem get_splat (v : Int32) (n : Fin framesPerBlock) (ch : Fin c) :
    (splat v : Block c).get n ch = v := by simp [splat]

@[simp] theorem get_silence (n : Fin framesPerBlock) (ch : Fin c) :
    (silence : Block c).get n ch = 0 := by simp [silence]

theorem get_overwrite (k : Nat) (new old : Block c) (n : Fin framesPerBlock) (ch : Fin c) :
    (overwrite k new old).get n ch = if n.val < k then new.get n ch else old.get n ch := by
  simp [overwrite]

/-- A bracketed list of integers. -/
def listText (values : List Int32) : String :=
  "[" ++ String.intercalate ", " (values.map fun v => toString v.toInt) ++ "]"

/-- One-line summary of a block: its width and its first frame. -/
def summary (b : Block c) : String :=
  "AudioBlock \x7b channels: " ++ toString c ++ ", first_frame: "
    ++ listText b.frames[0].toList ++ ", .. \x7d"

end Block

/-- A captured block. -/
abbrev CaptureBlock := Block captureChannels

/-- A played block. -/
abbrev PlaybackBlock := Block playbackChannels

/-! ## What the cartridges exchange -/

/-- Audio of all cartridges for one block. -/
structure CartridgeAudio where
  /-- One block for each cartridge. -/
  cartridges : Vector (Block cartridgeChannels) cartridgeCount
  deriving DecidableEq

namespace CartridgeAudio

/-- The block of one cartridge. -/
def get (b : CartridgeAudio) (k : Fin cartridgeCount) : Block cartridgeChannels := b.cartridges[k]

/-- The block that each cartridge is given by `f`. -/
def ofFn (f : Fin cartridgeCount → Block cartridgeChannels) : CartridgeAudio := ⟨Vector.ofFn f⟩

/-- The same with the block of one cartridge replaced. -/
def set (b : CartridgeAudio) (k : Fin cartridgeCount) (v : Block cartridgeChannels) :
    CartridgeAudio := ofFn fun j => if j = k then v else b.get j

/-- All cartridges silent. -/
def silence : CartridgeAudio := ofFn fun _ => Block.silence

/-- Whether every cartridge is silent. -/
def isSilent (b : CartridgeAudio) : Bool := b.cartridges.all Block.isSilent

instance : Inhabited CartridgeAudio := ⟨silence⟩

@[simp] theorem get_ofFn (f : Fin cartridgeCount → Block cartridgeChannels)
    (k : Fin cartridgeCount) : (ofFn f).get k = f k := by
  simp [get, ofFn]

@[simp] theorem get_silence (k : Fin cartridgeCount) : silence.get k = Block.silence := by
  simp [silence]

end CartridgeAudio

end DuplexAudio
