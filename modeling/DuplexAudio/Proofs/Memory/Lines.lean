/-
  Address ranges, widened to whole cache lines.

  Cache maintenance that misses a line of a range leaves stale data, and maintenance of a line too
  many discards what a neighbour stored.  So a range has to be widened to exactly those lines that
  it meets.

  1. Masking is rounding down: `x &&& ~~~31` is `x / 32 * 32` (`toNat_and_not_mask`).  So the
     widened range begins at its start rounded down, and ends at its end rounded up
     (`wholeLines_bounds`).  No sum on the way is too large for a machine word
     (`sums_exact`), which is what the room above the range is for.

  2. That range is the least one of whole lines that covers the given one (`leastCover_wholeLines`),
     and what is made of whole lines stays as it is (`wholeLines_of_dvd`).

  3. Halves of a double buffer are made of whole lines, whatever the number of channels, if the
     buffer begins at one.  So no part of one half, however small, is widened into the other
     (`halvesApart`).
-/
import DuplexAudio.Memory.CacheLine
import Mathlib.Algebra.Group.Nat.Defs

namespace DuplexAudio

/-! ## Masks -/

/-- Shifting to the right and back clears the bits that were shifted out. -/
theorem shiftRight_shiftLeft {w : Nat} (x : BitVec w) (k : Nat) :
    (x >>> k) <<< k = x &&& (BitVec.allOnes w <<< k) := by
  ext i hi
  simp only [BitVec.getElem_shiftLeft, BitVec.getElem_and, BitVec.getElem_ushiftRight,
    BitVec.getElem_allOnes]
  rcases Nat.lt_or_ge i k with hlow | hhigh
  · simp [hlow]
  · rw [Nat.add_sub_cancel' hhigh, BitVec.getLsbD_eq_getElem hi]
    simp [Nat.not_lt.mpr hhigh]

/-- **Masking rounds down to a line.** -/
theorem toNat_and_not_mask (x : UInt64) :
    (x &&& ~~~(cacheLineBytes - 1)).toNat = 32 * (x.toNat / 32) := by
  have hmask : (~~~(cacheLineBytes - 1)).toBitVec = BitVec.allOnes 64 <<< 5 := by decide
  rw [← UInt64.toNat_toBitVec, UInt64.toBitVec_and, hmask, ← shiftRight_shiftLeft,
    BitVec.toNat_shiftLeft, BitVec.toNat_ushiftRight, UInt64.toNat_toBitVec,
    Nat.shiftRight_eq_div_pow, Nat.shiftLeft_eq]
  have hlt := x.toNat_lt
  omega

namespace Span

/-- The address just past a range. -/
def stop (s : Span) : Nat := s.start.toNat + s.length.toNat

/-- The address lies in the range. -/
def Contains (s : Span) (a : Nat) : Prop := s.start.toNat ≤ a ∧ a < s.stop

theorem eq_of_bounds {s r : Span} (hstart : s.start.toNat = r.start.toNat)
    (hstop : s.stop = r.stop) : s = r := by
  obtain ⟨start, length⟩ := s
  obtain ⟨start', length'⟩ := r
  unfold stop at hstop
  dsimp only at hstart hstop
  obtain rfl : start = start' := UInt64.toNat.inj hstart
  obtain rfl : length = length' := UInt64.toNat.inj (by omega)
  rfl

/-! ## Widening -/

section Widening

variable {s : Span}

/-- **The sums that are formed on the way are exact**, if there is room for a line above the
range. -/
theorem sums_exact (hfits : s.stop + 31 ≤ 2 ^ 64 - 1) :
    (s.start + s.length).toNat = s.stop ∧
      (s.start + s.length + (cacheLineBytes - 1)).toNat = s.stop + 31 := by
  have hmask : (cacheLineBytes - 1).toNat = 31 := by decide
  have hsum : (s.start + s.length).toNat = s.stop := by
    rw [UInt64.toNat_add]
    exact Nat.mod_eq_of_lt (show s.stop < 2 ^ 64 by omega)
  refine ⟨hsum, ?_⟩
  rw [UInt64.toNat_add, hsum, hmask]
  exact Nat.mod_eq_of_lt (by omega)

theorem wholeLines_of_length_eq_zero (h : s.length = 0) : s.wholeLines = s := by
  unfold wholeLines
  rw [if_pos h]

theorem length_pos (h : s.length ≠ 0) : 0 < s.length.toNat :=
  Nat.pos_of_ne_zero fun hzero => h (UInt64.toNat.inj hzero)

/-- **The widened range**: its start is rounded down and its end is rounded up. -/
theorem wholeLines_bounds (hlength : s.length ≠ 0) (hfits : s.stop + 31 ≤ 2 ^ 64 - 1) :
    s.wholeLines.start.toNat = 32 * (s.start.toNat / 32) ∧
      s.wholeLines.stop = 32 * ((s.stop + 31) / 32) := by
  have hstart := toNat_and_not_mask s.start
  have hstop := toNat_and_not_mask (s.start + s.length + (cacheLineBytes - 1))
  rw [(sums_exact hfits).2] at hstop
  have hpos := length_pos hlength
  have hle : s.start &&& ~~~(cacheLineBytes - 1) ≤
      (s.start + s.length + (cacheLineBytes - 1)) &&& ~~~(cacheLineBytes - 1) := by
    rw [UInt64.le_iff_toNat_le, hstart, hstop]
    unfold stop
    omega
  unfold wholeLines
  rw [if_neg hlength]
  refine ⟨hstart, ?_⟩
  show (s.start &&& ~~~(cacheLineBytes - 1)).toNat + UInt64.toNat (_ - _) = _
  rw [UInt64.toNat_sub_of_le _ _ hle, hstop]
  rw [UInt64.le_iff_toNat_le, hstop] at hle
  omega

/-- `r` is the least range of whole lines that covers `s`. -/
structure LeastCover (s r : Span) : Prop where
  start_dvd : 32 ∣ r.start.toNat
  length_dvd : 32 ∣ r.length.toNat
  start_le : r.start.toNat ≤ s.start.toNat
  le_stop : s.stop ≤ r.stop
  /-- Each line has a byte of what is covered. -/
  meets : ∀ line, r.start.toNat ≤ 32 * line → 32 * line < r.stop →
    ∃ a, s.Contains a ∧ 32 * line ≤ a ∧ a < 32 * line + 32
  /-- Any whole lines that cover `s` have these among them. -/
  least : ∀ first last, 32 ∣ first → 32 ∣ last → first ≤ s.start.toNat → s.stop ≤ last →
    first ≤ r.start.toNat ∧ r.stop ≤ last

/-- **Widening gives the least cover.** -/
theorem leastCover_wholeLines (hlength : s.length ≠ 0) (hfits : s.stop + 31 ≤ 2 ^ 64 - 1) :
    LeastCover s s.wholeLines := by
  obtain ⟨hstart, hstop⟩ := wholeLines_bounds hlength hfits
  have hpos := length_pos hlength
  have hsplit : s.stop = s.start.toNat + s.length.toNat := rfl
  have hsplit' : s.wholeLines.stop = s.wholeLines.start.toNat + s.wholeLines.length.toNat := rfl
  refine ⟨by omega, by omega, by omega, by omega, ?_, ?_⟩
  · intro line hlow hhigh
    -- the first byte of the line, unless the range begins after it
    refine ⟨max s.start.toNat (32 * line), ⟨Nat.le_max_left _ _, ?_⟩, Nat.le_max_right _ _, ?_⟩ <;> omega
  · intro first last hfirst hlast hle hge
    omega

/-- **What is made of whole lines stays as it is.** -/
theorem wholeLines_of_dvd (hstart : 32 ∣ s.start.toNat) (hlength : 32 ∣ s.length.toNat)
    (hfits : s.stop < 2 ^ 64) : s.wholeLines = s := by
  by_cases hzero : s.length = 0
  · exact wholeLines_of_length_eq_zero hzero
  · have hsplit : s.stop = s.start.toNat + s.length.toNat := rfl
    obtain ⟨hstart', hstop'⟩ := wholeLines_bounds hzero (by omega)
    exact eq_of_bounds (by omega) (by omega)

theorem wholeLines_wholeLines (hlength : s.length ≠ 0) (hfits : s.stop + 31 ≤ 2 ^ 64 - 1) :
    s.wholeLines.wholeLines = s.wholeLines := by
  obtain ⟨hstart, hlength', -, -, -, -⟩ := leastCover_wholeLines hlength hfits
  obtain ⟨-, hstop⟩ := wholeLines_bounds hlength hfits
  exact wholeLines_of_dvd hstart hlength' (by omega)

/-- **Widening stays inside** what is made of whole lines. -/
theorem contains_of_contains_wholeLines {t : Span} (hstart : 32 ∣ t.start.toNat)
    (hlength : 32 ∣ t.length.toNat) (hfits : t.stop < 2 ^ 64)
    (hinside : ∀ a, s.Contains a → t.Contains a) {a : Nat} (ha : s.wholeLines.Contains a) :
    t.Contains a := by
  by_cases hzero : s.length = 0
  · rw [wholeLines_of_length_eq_zero hzero] at ha
    exact hinside a ha
  · have hpos := length_pos hzero
    have hsplit : s.stop = s.start.toNat + s.length.toNat := rfl
    have hsplit' : t.stop = t.start.toNat + t.length.toNat := rfl
    -- its first and its last byte are inside, and so is the least cover
    obtain ⟨hfirst, -⟩ := hinside s.start.toNat ⟨Nat.le_refl _, by omega⟩
    obtain ⟨-, hlast⟩ := hinside (s.stop - 1) ⟨by omega, by omega⟩
    obtain ⟨hlow, hhigh⟩ := (leastCover_wholeLines hzero (by omega)).least t.start.toNat t.stop
      hstart (by omega) hfirst (by omega)
    exact ⟨Nat.le_trans hlow ha.1, Nat.lt_of_lt_of_le ha.2 hhigh⟩

end Widening

end Span

/-! ## Halves of a double buffer -/

open DoubleBuffer

section Halves

variable {c : Nat} {base : UInt64}

/-- A double buffer that fits into memory has its halves where they are expected. -/
theorem halfSpan_bounds (hfits : base.toNat + 2 * halfBytes c < 2 ^ 64) (h : Half) :
    (halfSpan c base h).start.toNat = base.toNat + h.index * halfBytes c ∧
      (halfSpan c base h).length.toNat = halfBytes c := by
  have hoffset : halfOffset c h = h.index * halfBytes c := rfl
  have hindex := h.index_lt
  have hle : h.index * halfBytes c ≤ 1 * halfBytes c := Nat.mul_le_mul_right _ (by omega)
  unfold halfSpan
  rw [UInt64.toNat_add, UInt64.toNat_ofNat', UInt64.toNat_ofNat', hoffset]
  constructor <;> omega

/-- The two halves of a double buffer are whole lines of their own. -/
structure HalvesApart (c : Nat) (base : UInt64) : Prop where
  whole : ∀ h, (halfSpan c base h).wholeLines = halfSpan c base h
  adjacent : (halfSpan c base .first).stop = (halfSpan c base .second).start.toNat
  disjoint : ∀ h a, (halfSpan c base h).Contains a → ¬(halfSpan c base h.other).Contains a
  /-- Whatever part of a half is widened, the other one is not reached. -/
  apart : ∀ h (part : Span), (∀ a, part.Contains a → (halfSpan c base h).Contains a) →
    ∀ a, part.wholeLines.Contains a → ¬(halfSpan c base h.other).Contains a

theorem halvesApart (hbase : 32 ∣ base.toNat) (hfits : base.toNat + 2 * halfBytes c < 2 ^ 64) :
    HalvesApart c base := by
  have hbytes : halfBytes c = 32 * (2 * c) := by
    unfold halfBytes halfWords framesPerBlock
    omega
  have hbounds := halfSpan_bounds hfits
  have haligned (h : Half) : 32 ∣ (halfSpan c base h).start.toNat ∧
      32 ∣ (halfSpan c base h).length.toNat ∧ (halfSpan c base h).stop < 2 ^ 64 := by
    obtain ⟨hstart, hlength⟩ := hbounds h
    unfold Span.stop
    rw [hstart, hlength]
    cases h <;> simp only [Half.index] <;> omega
  have hdisjoint (h : Half) (a : Nat) (ha : (halfSpan c base h).Contains a) :
      ¬(halfSpan c base h.other).Contains a := by
    obtain ⟨hstart, hlength⟩ := hbounds h
    obtain ⟨hstart', hlength'⟩ := hbounds h.other
    unfold Span.Contains Span.stop at ha ⊢
    rw [hstart, hlength] at ha
    rw [hstart', hlength']
    cases h <;> simp only [Half.index, Half.other] at ha ⊢ <;> omega
  refine ⟨?_, ?_, hdisjoint, ?_⟩
  · intro h
    obtain ⟨hstart, hlength, hstop⟩ := haligned h
    exact Span.wholeLines_of_dvd hstart hlength hstop
  · obtain ⟨hstart, hlength⟩ := hbounds .first
    unfold Span.stop
    rw [hstart, hlength, (hbounds .second).1]
    simp only [Half.index]
    omega
  · intro h part hpart a ha
    obtain ⟨hstart, hlength, hstop⟩ := haligned h
    exact hdisjoint h a (Span.contains_of_contains_wholeLines hstart hlength hstop hpart ha)

end Halves

/-! ## All ranges and all buffers -/

/-- What widening does to a range that is not empty. -/
structure Widened (s : Span) : Prop where
  /-- No sum is too large for a word. -/
  sums : (s.start + s.length).toNat = s.stop ∧
    (s.start + s.length + (cacheLineBytes - 1)).toNat = s.stop + 31
  cover : s.LeastCover s.wholeLines
  again : s.wholeLines.wholeLines = s.wholeLines

/-- **Ranges are widened to the lines that they meet.**
    (1) Any range with room for a line above it is widened to its least cover, and is not widened
        further;
    (2) an empty range stays as it is, wherever it is;
    (3) a double buffer that begins at a line, and fits into memory, has halves that are whole lines
        and are not reached from each other by widening. -/
theorem widened_to_lines :
    (∀ s : Span, s.length ≠ 0 → s.stop + 31 ≤ 2 ^ 64 - 1 → Widened s) ∧
      (∀ s : Span, s.length = 0 → s.wholeLines = s) ∧
      ∀ (c : Nat) (base : UInt64), 32 ∣ base.toNat → base.toNat + 2 * halfBytes c < 2 ^ 64 →
        HalvesApart c base := by
  refine ⟨?_, ?_, ?_⟩
  · intro s hlength hfits
    exact ⟨Span.sums_exact hfits, Span.leastCover_wholeLines hlength hfits,
      Span.wholeLines_wholeLines hlength hfits⟩
  · intro s hlength
    exact Span.wholeLines_of_length_eq_zero hlength
  · intro c base hbase hfits
    exact halvesApart hbase hfits

/-- A range across a line boundary just below the end of memory, and the region of a playback
stream. -/
theorem widened_to_lines_high :
    let s : Span := ⟨0xFFFFFFFFFFFFFFBF, 2⟩
    let base : UInt64 := 0x24000020
    s.length ≠ 0 ∧ s.stop + 31 ≤ 2 ^ 64 - 1 ∧ s.wholeLines = ⟨0xFFFFFFFFFFFFFFA0, 64⟩ ∧ Widened s ∧
      32 ∣ base.toNat ∧ base.toNat + 2 * halfBytes playbackChannels < 2 ^ 64 ∧
      HalvesApart playbackChannels base :=
  ⟨by decide, by decide, by decide, widened_to_lines.1 _ (by decide) (by decide), by decide,
    by decide, widened_to_lines.2.2 _ _ (by decide) (by decide)⟩

end DuplexAudio
