/-
  The values that are programmed for a frame layout.

  They are derived on machine words, with products that are held at the largest word, a shift by the
  number of slots, a difference and two quotients.  Two things can go wrong with that:

  1. **Undefined arithmetic.**  A product that is no word, a difference below zero, a quotient by
     zero and a shift by as many places as a word has are not defined (`mul?`, `sub?`, `div?`,
     `shl?`).  The derivations are written once more with these operations (`frameBits?` and those
     after it), and every one of them has a value for every layout, valid or not: the value of the
     derivation that runs (`slotMask?_eq` and its like).

  2. **Lost digits.**  A layout that is accepted is well-formed, and then nothing is held, nothing is
     cut off by a quotient and nothing by the narrower word of the mask.

  `derived_exact` is the headline.  It needs nothing of the bit clock, so that it also holds of the
  layouts that are accepted with a bit clock that cannot be driven.
-/
import DuplexAudio.Proofs.Link.Programmable
import Mathlib.Data.Finset.Card
import Mathlib.Data.Nat.Bitwise

namespace DuplexAudio

/-! ## Arithmetic that can be undefined -/

/-- The product, if it is a word. -/
def mul? (a b : UInt32) : Option UInt32 :=
  if a.toNat * b.toNat ≤ largestWord then some (a * b) else none

/-- The difference, if it is not below zero. -/
def sub? (a b : UInt32) : Option UInt32 := if b ≤ a then some (a - b) else none

/-- The quotient, if it is not one by zero. -/
def div? (a b : UInt32) : Option UInt32 := if b = 0 then none else some (a / b)

/-- The word shifted up, if by fewer places than it has. -/
def shl? (a n : UInt32) : Option UInt32 := if n < 32 then some (a <<< n) else none

/-- A product that is held in range is the product where that is a word. -/
theorem getD_mul? (a b : UInt32) : (mul? a b).getD 0xffffffff = saturatingMul a b := by
  refine UInt32.toNat_inj.mp ?_
  rw [toNat_saturatingMul]
  unfold mul?
  split
  · next hword =>
    have hlt : a.toNat * b.toNat < 2 ^ 32 := by
      unfold largestWord at hword
      omega
    rw [Nat.min_eq_left hword]
    show (a * b).toNat = _
    rw [UInt32.toNat_mul, Nat.mod_eq_of_lt hlt]
  · next hword =>
    rw [Nat.min_eq_right (by omega)]
    rfl

theorem toNat_one_shiftLeft {n : UInt32} (h : n.toNat < 32) :
    ((1 : UInt32) <<< n).toNat = 2 ^ n.toNat := by
  have hlt : 2 ^ n.toNat < 2 ^ 32 := Nat.pow_lt_pow_right (by decide) h
  rw [UInt32.toNat_shiftLeft, Nat.mod_eq_of_lt h, Nat.shiftLeft_eq,
    show (1 : UInt32).toNat = 1 from rfl, Nat.one_mul, Nat.mod_eq_of_lt hlt]

namespace FrameLayout

/-! ## The derivations, with arithmetic that can be undefined -/

/-- Length of a frame. -/
def frameBits? (c : FrameLayout) (d : Direction) : Option UInt32 :=
  some ((mul? (c.slots d) c.slotWidth).getD 0xffffffff)

/-- Active length of the frame sync. -/
def syncBits? (c : FrameLayout) (d : Direction) : Option UInt32 := do
  div? (← c.frameBits? d) 2

/-- One bit for each active slot.  A shift that is not defined, or that leaves the mask, counts as
all slots; the difference is relied on to be defined. -/
def slotMask? (c : FrameLayout) (d : Direction) : Option UInt16 :=
  match shl? 1 (c.slots d) with
  | none => some 0xffff
  | some bit => do
    let most ← shl? 1 maxSlots
    if bit ≤ most then return (← sub? bit 1).toUInt16 else return 0xffff

/-- Value of the clock divider field. -/
def clockDivider? (c : FrameLayout) : Option UInt32 :=
  match div? c.kernelClockHz c.masterClockHz with
  | none => some 0
  | some ratio => some ((sub? ratio 1).getD 0)

/-- Bit clock that the receiver drives. -/
def bitClockHz? (c : FrameLayout) : Option UInt32 := do
  return (mul? c.rateHz (← c.frameBits? .rx)).getD 0xffffffff

variable (c : FrameLayout) (d : Direction)

theorem frameBits?_eq : c.frameBits? d = some (c.frameBits d) :=
  congrArg some (getD_mul? _ _)

theorem syncBits?_eq : c.syncBits? d = some (c.syncBits d) := by
  unfold syncBits?
  rw [frameBits?_eq]
  rfl

/-- The mask is defined on both sides of sixteen slots, and on both sides of thirty-two. -/
theorem slotMask?_eq : c.slotMask? d = some (c.slotMask d) := by
  have hmost : maxSlots.toNat = 16 := rfl
  unfold slotMask? slotMask shl?
  by_cases hdefined : c.slots d < 32
  · have hplaces : (c.slots d).toNat < 32 := UInt32.lt_iff_toNat_lt.mp hdefined
    have hbit := toNat_one_shiftLeft hplaces
    rw [if_pos hdefined]
    by_cases hmany : maxSlots < c.slots d
    · -- the shifted bit is beyond the mask, and nothing is subtracted from it
      have hbeyond : ¬(1 : UInt32) <<< c.slots d ≤ 1 <<< maxSlots := by
        have hlt : 2 ^ 16 < 2 ^ (c.slots d).toNat :=
          Nat.pow_lt_pow_right (by decide) (UInt32.lt_iff_toNat_lt.mp hmany)
        rw [UInt32.le_iff_toNat_le, hbit]
        exact Nat.not_le_of_lt hlt
      rw [if_pos hmany]
      show (if (1 : UInt32) <<< c.slots d ≤ 1 <<< maxSlots then _ else _) = _
      rw [if_neg hbeyond]
      rfl
    · have hfew : (c.slots d).toNat ≤ 16 := Nat.le_of_not_lt fun h =>
        hmany (UInt32.lt_iff_toNat_lt.mpr h)
      have hwithin : (1 : UInt32) <<< c.slots d ≤ 1 <<< maxSlots := by
        rw [UInt32.le_iff_toNat_le, hbit]
        exact Nat.pow_le_pow_right (by decide) hfew
      have hsub : sub? ((1 : UInt32) <<< c.slots d) 1 = some (1 <<< c.slots d - 1) := by
        refine if_pos ?_
        rw [UInt32.le_iff_toNat_le, hbit]
        exact Nat.one_le_two_pow
      rw [if_neg hmany]
      show (if (1 : UInt32) <<< c.slots d ≤ 1 <<< maxSlots then
        (sub? (1 <<< c.slots d) 1).bind fun v => some v.toUInt16 else _) = _
      rw [if_pos hwithin, hsub]
      rfl
  · have hmany : maxSlots < c.slots d := by
      have hplaces : ¬(c.slots d).toNat < 32 := fun h => hdefined (UInt32.lt_iff_toNat_lt.mpr h)
      rw [UInt32.lt_iff_toNat_lt]
      omega
    rw [if_neg hdefined, if_pos hmany]

theorem clockDivider?_eq : c.clockDivider? = some c.clockDivider := by
  unfold clockDivider? clockDivider div?
  by_cases hstopped : c.masterClockHz = 0
  · rw [if_pos hstopped, if_pos hstopped]
  · rw [if_neg hstopped, if_neg hstopped]
    show some ((sub? (c.kernelClockHz / c.masterClockHz) 1).getD 0) = _
    generalize c.kernelClockHz / c.masterClockHz = ratio
    unfold sub?
    by_cases hslow : ratio = 0
    · rw [hslow]
      rfl
    · have hone : (1 : UInt32) ≤ ratio := by
        have hpos := (ne_zero_iff_toNat_pos ratio).mp hslow
        rw [UInt32.le_iff_toNat_le]
        exact hpos
      rw [if_pos hone]
      show some (ratio - 1) = some (if ratio = 0 then 0 else ratio - 1)
      rw [if_neg hslow]

theorem bitClockHz?_eq : c.bitClockHz? = some c.bitClockHz := by
  unfold bitClockHz?
  rw [frameBits?_eq]
  exact congrArg some (getD_mul? _ _)

/-! ## The values in exact arithmetic -/

/-- The mask counts no more than sixteen slots. -/
theorem toNat_slotMask : (c.slotMask d).toNat = 2 ^ min (c.slots d).toNat 16 - 1 := by
  unfold slotMask
  split
  · next hmany =>
    have hlt : 16 < (c.slots d).toNat := UInt32.lt_iff_toNat_lt.mp hmany
    rw [Nat.min_eq_right (by omega)]
    rfl
  · next hmany =>
    have hfew : (c.slots d).toNat ≤ 16 := Nat.le_of_not_lt fun h =>
      hmany (UInt32.lt_iff_toNat_lt.mpr h)
    have hbit := toNat_one_shiftLeft (n := c.slots d) (by omega)
    have hone : (1 : UInt32) ≤ 1 <<< c.slots d := by
      rw [UInt32.le_iff_toNat_le, hbit]
      exact Nat.one_le_two_pow
    have hnarrow : 2 ^ (c.slots d).toNat ≤ 2 ^ 16 := Nat.pow_le_pow_right (by decide) hfew
    have hpos : 0 < 2 ^ (c.slots d).toNat := Nat.two_pow_pos _
    rw [Nat.min_eq_left hfew, UInt32.toNat_toUInt16, UInt32.toNat_sub_of_le _ _ hone, hbit]
    show (2 ^ (c.slots d).toNat - 1) % 2 ^ 16 = 2 ^ (c.slots d).toNat - 1
    exact Nat.mod_eq_of_lt (by omega)

/-- What is accepted is well-formed: the bit clock is asked about last. -/
theorem wellFormed_of_validate (h : c.validate = .ok ()) : c.WellFormed := by
  obtain ⟨hslot, hdata, hslots, hclocked, hkernel, hmaster, -⟩ :=
    c.flaw?_eq_none_iff.mp (c.validate_eq_ok_iff_flaw?.mp h)
  exact c.wellFormed_iff.mpr ⟨hslot, hdata, hslots, hclocked, hkernel, hmaster⟩

variable {c d}

/-- The mask of a well-formed layout has a bit for each slot and no other. -/
theorem WellFormed.testBit_slotMask (h : c.WellFormed) (i : Nat) :
    (c.slotMask d).toNat.testBit i = decide (i < (c.slots d).toNat) := by
  rw [toNat_slotMask, Nat.min_eq_left (h.slots_le d), Nat.testBit_two_pow_sub_one]

/-- Half a frame is a whole number of bit clocks, since a slot is. -/
theorem WellFormed.two_mul_syncBits (h : c.WellFormed) :
    2 * (c.syncBits d).toNat = (c.frameBits d).toNat := by
  have heven : 2 ∣ (c.frameBits d).toNat := by
    rw [h.toNat_frameBits]
    refine Nat.dvd_mul_left_of_dvd ?_ _
    rcases h.slotWidth with hwidth | hwidth <;> rw [hwidth] <;> decide
  unfold syncBits
  rw [UInt32.toNat_div]
  exact Nat.mul_div_cancel' heven

/-- The divider is exact: the kernel clock is a positive multiple of the master clock. -/
theorem WellFormed.clockDivider_mul (h : c.WellFormed) :
    (c.clockDivider.toNat + 1) * c.masterClockHz.toNat = c.kernelClockHz.toNat := by
  obtain ⟨hkernel, hdvd⟩ := h.kernelClock
  have hmaster := h.clocked.2
  have hratio : 0 < c.kernelClockHz.toNat / c.masterClockHz.toNat :=
    Nat.div_pos (Nat.le_of_dvd hkernel hdvd) hmaster
  have hword : 0 < (c.kernelClockHz / c.masterClockHz).toNat := by
    rwa [UInt32.toNat_div]
  have hone : (1 : UInt32) ≤ c.kernelClockHz / c.masterClockHz := UInt32.le_iff_toNat_le.mpr hword
  unfold clockDivider
  rw [if_neg ((ne_zero_iff_toNat_pos _).mpr hmaster)]
  dsimp only
  rw [if_neg ((ne_zero_iff_toNat_pos _).mpr hword), UInt32.toNat_sub_of_le _ _ hone,
    UInt32.toNat_div, show (1 : UInt32).toNat = 1 from rfl, Nat.sub_add_cancel hratio]
  exact Nat.div_mul_cancel hdvd

theorem WellFormed.card_slotMask (h : c.WellFormed) :
    ((Finset.range 16).filter fun i => (c.slotMask d).toNat.testBit i).card
      = (c.slots d).toNat := by
  have hset : ((Finset.range 16).filter fun i => (c.slotMask d).toNat.testBit i)
      = Finset.range (c.slots d).toNat := by
    ext i
    have hle := h.slots_le d
    simp only [Finset.mem_filter, Finset.mem_range, h.testBit_slotMask, decide_eq_true_eq]
    omega
  rw [hset, Finset.card_range]

/-! ## The headline -/

/-- **Every derivation is defined, and exact where it counts.**
(1) For every layout, no product, difference, quotient or shift of a derivation is undefined, and the
    slot mask is one less than a power of two, of no more than sixteen slots.
(2) For every layout that is accepted, the divider divides the kernel clock into the master clock,
    and in both directions the frame has all its bits, the frame sync is active for exactly half of
    them, and the mask has one bit for each slot, the lowest ones. -/
theorem derived_exact (c : FrameLayout) :
    ((∀ d, c.frameBits? d = some (c.frameBits d) ∧ c.syncBits? d = some (c.syncBits d) ∧
        c.slotMask? d = some (c.slotMask d) ∧
        (c.slotMask d).toNat = 2 ^ min (c.slots d).toNat 16 - 1) ∧
      c.clockDivider? = some c.clockDivider ∧ c.bitClockHz? = some c.bitClockHz) ∧
    (c.validate = .ok () →
      (c.clockDivider.toNat + 1) * c.masterClockHz.toNat = c.kernelClockHz.toNat ∧
      ∀ d, (c.frameBits d).toNat = (c.slots d).toNat * c.slotWidth.toNat ∧
        2 * (c.syncBits d).toNat = (c.frameBits d).toNat ∧
        ((Finset.range 16).filter fun i => (c.slotMask d).toNat.testBit i).card
          = (c.slots d).toNat ∧
        ∀ i, (c.slotMask d).toNat.testBit i = decide (i < (c.slots d).toNat)) := by
  refine ⟨⟨fun d => ?_, c.clockDivider?_eq, c.bitClockHz?_eq⟩, fun haccepted => ?_⟩
  · exact ⟨c.frameBits?_eq d, c.syncBits?_eq d, c.slotMask?_eq d, c.toNat_slotMask d⟩
  · have hformed : c.WellFormed := c.wellFormed_of_validate haccepted
    exact ⟨hformed.clockDivider_mul, fun d => ⟨hformed.toNat_frameBits d,
      hformed.two_mul_syncBits, hformed.card_slotMask, hformed.testBit_slotMask⟩⟩

/-- A layout that uses every slot of the receiver, with a single one for the transmitter. -/
def widest : FrameLayout where
  slotWidth := 16
  dataWidth := 16
  rxSlots := 16
  txSlots := 1

/-- All bits of its receive mask are set, and one of its transmit mask. -/
theorem derived_exact_widest :
    widest.validate = .ok () ∧ (widest.clockDivider.toNat + 1) * 12288000 = 49152000 ∧
      (∀ i, (widest.slotMask .rx).toNat.testBit i = decide (i < 16)) ∧
      ∀ i, (widest.slotMask .tx).toNat.testBit i = decide (i < 1) := by
  have haccepted : widest.validate = .ok () := by rfl
  obtain ⟨hdivider, hdirections⟩ := (derived_exact widest).2 haccepted
  exact ⟨haccepted, hdivider, (hdirections .rx).2.2.2, (hdirections .tx).2.2.2⟩

end FrameLayout

end DuplexAudio
