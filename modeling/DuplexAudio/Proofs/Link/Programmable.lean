/-
  Which frame layouts can be programmed.

  `FrameLayout.flaw?` looks for a flaw on machine words, and some of the words that it compares are
  products that saturate.  Here the same conditions are said in exact arithmetic:

  1. **Search** (`flaw?_eq_none_iff`): no flaw is found exactly when every test of the search is
     passed, as one conjunction on words.

  2. **Slots and clocks** (`wellFormed_iff`): all tests but the last are exact.  They compare words
     and divide them, and neither loses anything.

  3. **Bit clock** (`toNat_bitClockHz`): a frame of a well-formed layout has at most 512 bits, so
     its length is exact, and the bit clock is the exact product held at the largest word.  Held
     there it is not faster than a master clock of the largest word, whatever the product is.

  `validate_eq_ok_iff` is the headline: accepted are the layouts that can be programmed and, besides
  them, every well-formed layout whose master clock is the largest word.
-/
import DuplexAudio.Link.FrameLayout
import Mathlib.Algebra.Group.Nat.Defs
import Mathlib.Tactic.Tauto

namespace DuplexAudio

/-! ## Words and their values -/

/-- The largest word. -/
def largestWord : Nat := 2 ^ 32 - 1

theorem toNat_le_largestWord (a : UInt32) : a.toNat ≤ largestWord := by
  have hlt := a.toNat_lt
  unfold largestWord
  omega

theorem toNat_saturatingMul (a b : UInt32) :
    (saturatingMul a b).toNat = min (a.toNat * b.toNat) largestWord := by
  unfold saturatingMul UInt32.ofNatClamp largestWord
  split
  · next h =>
    have hlt : a.toNat * b.toNat < 2 ^ 32 := h
    rw [UInt32.toNat_ofNatLT]
    omega
  · next h =>
    have hle : 2 ^ 32 ≤ a.toNat * b.toNat := Nat.le_of_not_lt h
    show 2 ^ 32 - 1 = _
    omega

/-- A remainder of words is zero exactly when the one divides the other. -/
theorem mod_eq_zero_iff_dvd (a b : UInt32) : a % b = 0 ↔ b.toNat ∣ a.toNat := by
  rw [← UInt32.toNat_inj, UInt32.toNat_mod, Nat.dvd_iff_mod_eq_zero]
  rfl

theorem ne_zero_iff_toNat_pos (a : UInt32) : a ≠ 0 ↔ 0 < a.toNat := by
  rw [ne_eq, ← UInt32.toNat_inj, Nat.pos_iff_ne_zero]
  rfl

namespace FrameLayout

/-! ## The conditions in exact arithmetic -/

/-- Everything that is asked of a layout, except that its bit clock is not faster than its master
clock. -/
structure WellFormed (c : FrameLayout) : Prop where
  slotWidth : c.slotWidth.toNat = 16 ∨ c.slotWidth.toNat = 32
  dataWidth : 1 ≤ c.dataWidth.toNat ∧ c.dataWidth.toNat ≤ c.slotWidth.toNat
  rxSlots : 1 ≤ c.rxSlots.toNat ∧ c.rxSlots.toNat ≤ 16
  txSlots : 1 ≤ c.txSlots.toNat ∧ c.txSlots.toNat ≤ 16
  clocked : 0 < c.rateHz.toNat ∧ 0 < c.masterClockHz.toNat
  kernelClock : 0 < c.kernelClockHz.toNat ∧ c.masterClockHz.toNat ∣ c.kernelClockHz.toNat
  masterClock : c.rateHz.toNat ∣ c.masterClockHz.toNat

/-- The bit clock that the receiver has to drive. -/
def exactBitClock (c : FrameLayout) : Nat :=
  c.rateHz.toNat * c.rxSlots.toNat * c.slotWidth.toNat

/-- A layout that can be programmed. -/
structure Programmable (c : FrameLayout) : Prop extends WellFormed c where
  bitClock : c.exactBitClock ≤ c.masterClockHz.toNat

/-! ## The search for a flaw -/

/-- No flaw is found exactly when every test is passed. -/
theorem flaw?_eq_none_iff (c : FrameLayout) : c.flaw? = none ↔
    (c.slotWidth = 16 ∨ c.slotWidth = 32) ∧
    (c.dataWidth ≠ 0 ∧ c.dataWidth ≤ c.slotWidth) ∧
    (slotCountOk c.rxSlots = true ∧ slotCountOk c.txSlots = true) ∧
    (c.rateHz ≠ 0 ∧ c.masterClockHz ≠ 0) ∧
    (c.masterClockHz ≤ c.kernelClockHz ∧ c.kernelClockHz % c.masterClockHz = 0) ∧
    c.masterClockHz % c.rateHz = 0 ∧
    c.bitClockHz ≤ c.masterClockHz := by
  unfold flaw?
  simp only [ite_eq_iff, reduceCtorEq, and_false, false_or, and_true, not_and, not_or, not_not,
    ne_eq, UInt32.not_lt]
  tauto

theorem slotCountOk_iff (n : UInt32) : slotCountOk n = true ↔ 1 ≤ n.toNat ∧ n.toNat ≤ 16 := by
  unfold slotCountOk maxSlots
  simp only [Bool.and_eq_true, decide_eq_true_eq, ne_eq, ← UInt32.toNat_inj,
    UInt32.le_iff_toNat_le]
  show ¬n.toNat = 0 ∧ n.toNat ≤ 16 ↔ _
  omega

/-- The tests of slots and clocks are exact. -/
theorem wellFormed_iff (c : FrameLayout) : c.WellFormed ↔
    (c.slotWidth = 16 ∨ c.slotWidth = 32) ∧
    (c.dataWidth ≠ 0 ∧ c.dataWidth ≤ c.slotWidth) ∧
    (slotCountOk c.rxSlots = true ∧ slotCountOk c.txSlots = true) ∧
    (c.rateHz ≠ 0 ∧ c.masterClockHz ≠ 0) ∧
    (c.masterClockHz ≤ c.kernelClockHz ∧ c.kernelClockHz % c.masterClockHz = 0) ∧
    c.masterClockHz % c.rateHz = 0 := by
  simp only [← UInt32.toNat_inj (a := c.slotWidth), slotCountOk_iff, ne_zero_iff_toNat_pos,
    mod_eq_zero_iff_dvd, UInt32.le_iff_toNat_le]
  constructor
  · rintro ⟨hslot, hdata, hrx, htx, hclocked, ⟨hkernel, hdvd⟩, hmaster⟩
    exact ⟨hslot, hdata, ⟨hrx, htx⟩, hclocked, ⟨Nat.le_of_dvd hkernel hdvd, hdvd⟩, hmaster⟩
  · rintro ⟨hslot, hdata, ⟨hrx, htx⟩, hclocked, ⟨hkernel, hdvd⟩, hmaster⟩
    exact ⟨hslot, hdata, hrx, htx, hclocked, ⟨by omega, hdvd⟩, hmaster⟩

/-! ## The bit clock -/

theorem WellFormed.slots_le {c : FrameLayout} (h : c.WellFormed) (d : Direction) :
    (c.slots d).toNat ≤ 16 := by
  cases d with
  | rx => exact h.rxSlots.2
  | tx => exact h.txSlots.2

/-- The frame of a well-formed layout is short enough for its length to be exact. -/
theorem WellFormed.toNat_frameBits {c : FrameLayout} (h : c.WellFormed) (d : Direction) :
    (c.frameBits d).toNat = (c.slots d).toNat * c.slotWidth.toNat := by
  have hwidth : c.slotWidth.toNat ≤ 32 := by
    rcases h.slotWidth with h | h <;> omega
  have hshort : (c.slots d).toNat * c.slotWidth.toNat ≤ 16 * 32 :=
    Nat.mul_le_mul (h.slots_le d) hwidth
  unfold frameBits
  rw [toNat_saturatingMul, largestWord]
  omega

theorem WellFormed.toNat_bitClockHz {c : FrameLayout} (h : c.WellFormed) :
    c.bitClockHz.toNat = min c.exactBitClock largestWord := by
  unfold bitClockHz exactBitClock
  rw [toNat_saturatingMul, h.toNat_frameBits, Nat.mul_assoc]
  rfl

/-- The last test is passed by every bit clock if the master clock is the largest word, and is exact
otherwise. -/
theorem WellFormed.bitClockHz_le_iff {c : FrameLayout} (h : c.WellFormed) :
    c.bitClockHz ≤ c.masterClockHz ↔
      c.exactBitClock ≤ c.masterClockHz.toNat ∨ c.masterClockHz.toNat = largestWord := by
  have hmaster := toNat_le_largestWord c.masterClockHz
  rw [UInt32.le_iff_toNat_le, h.toNat_bitClockHz]
  omega

/-! ## The headline -/

theorem validate_eq_ok_iff_flaw? (c : FrameLayout) : c.validate = .ok () ↔ c.flaw? = none := by
  unfold validate
  cases c.flaw? <;> simp

/-- **Which layouts are accepted**, in exact arithmetic: those whose slots and clocks can be
programmed and whose bit clock is not faster than the master clock, and besides them those whose
master clock is the largest word, with any bit clock. -/
theorem validate_eq_ok_iff (c : FrameLayout) : c.validate = .ok () ↔
    c.WellFormed ∧
      (c.exactBitClock ≤ c.masterClockHz.toNat ∨ c.masterClockHz.toNat = largestWord) := by
  rw [validate_eq_ok_iff_flaw?, flaw?_eq_none_iff]
  constructor
  · rintro ⟨hslot, hdata, hslots, hclocked, hkernel, hmaster, hbit⟩
    have hformed : c.WellFormed :=
      c.wellFormed_iff.mpr ⟨hslot, hdata, hslots, hclocked, hkernel, hmaster⟩
    exact ⟨hformed, hformed.bitClockHz_le_iff.mp hbit⟩
  · rintro ⟨hformed, hbit⟩
    obtain ⟨hslot, hdata, hslots, hclocked, hkernel, hmaster⟩ := c.wellFormed_iff.mp hformed
    exact ⟨hslot, hdata, hslots, hclocked, hkernel, hmaster, hformed.bitClockHz_le_iff.mpr hbit⟩

/-- A layout of one slot of sixteen bits, with every clock at the largest word: its bit clock would
be sixteen times its master clock. -/
def overclocked : FrameLayout where
  kernelClockHz := 0xffffffff
  masterClockHz := 0xffffffff
  rateHz := 0xffffffff
  slotWidth := 16
  dataWidth := 16
  rxSlots := 1
  txSlots := 1

/-- It is accepted, and cannot be programmed. -/
theorem overclocked_accepted : overclocked.validate = .ok () ∧ ¬overclocked.Programmable := by
  constructor
  · rfl
  · intro h
    exact absurd h.bitClock (by decide)

end FrameLayout

end DuplexAudio
