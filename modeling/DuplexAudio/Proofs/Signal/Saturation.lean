/-
  Any word to its level and back.

  A sample comes back as itself.  A word outside the range of a sample comes back as the end of the
  range on its side, which is what holding it in that range at once would give
  (`ofLevel_toLevel_saturates`).

  1. Such a word is `2 ^ 23` or more away from zero, so its level is at least one step above one
     (`toLevel_reaches_above_one`).  That step is what full scale needs to bring it back: one times
     full scale would be a unit short of the lower end.

  2. Full scale takes a quarter unit or less off again, and the product is rounded to `2 ^ 23` or
     more (`scaled_reaches`).  However far beyond, its integer part is held at the ends of a word,
     which are outside the range of a sample as well (`truncateToWord_beyond`).

  3. What is outside the range of a sample is held at the same end, whatever it is
     (`toSampleRange_eq_of_beyond`).
-/
import DuplexAudio.Proofs.Signal.RoundTrip

namespace DuplexAudio

open Binary32
open Float.Model.UnpackedFloat (Sign)

/-! ## The range of a sample -/

/-- Words beyond the range on the same side are held at the same end of it. -/
theorem toSampleRange_eq_of_beyond {s : Sign} {v w : Int32} (hv : 2 ^ 23 ≤ s.apply v.toInt)
    (hw : 2 ^ 23 ≤ s.apply w.toInt) : toSampleRange v = toSampleRange w := by
  apply Int32.toInt.inj
  rw [toInt_toSampleRange, toInt_toSampleRange]
  cases s <;> simp only [Sign.apply] at hv hw <;> omega

/-- A word is a sample other than the lower end, or beyond the range on one side. -/
theorem sample_or_beyond (v : Int32) :
    |v.toInt| < 2 ^ 23 ∨ ∃ s : Sign, 2 ^ 23 ≤ s.apply v.toInt := by
  rcases lt_or_ge |v.toInt| (2 ^ 23) with hsample | hbeyond
  · exact .inl hsample
  · right
    rcases le_abs.mp hbeyond with hpos | hneg
    · exact ⟨.positive, hpos⟩
    · exact ⟨.negative, hneg⟩

/-! ## Words beyond the range -/

section Beyond

variable {s : Sign} {v : Int32}

/-- One step of the level is kept above one. -/
theorem toLevel_reaches_above_one (h : 2 ^ 23 ≤ s.apply v.toInt) :
    Reaches s (1 + 1 / 2 ^ 23) (toLevel v) := by
  have hpower : Representable (2 ^ 23) := ⟨1, 23, by norm_num, by norm_num, by norm_num⟩
  have hstep : Representable (1 + 1 / 2 ^ 23) :=
    ⟨8388609, -23, by norm_num, by norm_num, by norm_num⟩
  refine toLevel_reaches_of hpower hstep ?_ (by exact_mod_cast h)
  rw [value_levelStep]
  norm_num

/-- The level of any word is so small that full scale does not take it out of range. -/
theorem isFinite_scaled (v : Int32) : (toLevel v * fullScaleLevel).isFinite = true := by
  have hpower : Representable (2 ^ 31) := ⟨1, 31, by norm_num, by norm_num, by norm_num⟩
  have hbound : Representable 512 := ⟨512, 0, by norm_num, by norm_num, by norm_num⟩
  have hlevel : |value (toLevel v)| ≤ 512 := by
    refine abs_toLevel_le_of hpower hbound ?_ (by exact_mod_cast v.le_toInt)
      (by exact_mod_cast v.toInt_lt.le)
    rw [value_levelStep]
    norm_num
  obtain ⟨hmin, hmax⟩ := abs_le.mp hlevel
  have hlarge : Representable (2 ^ 32) := ⟨1, 32, by norm_num, by norm_num, by norm_num⟩
  refine ((rounds_mul (toLevel_spec v).1 isFinite_fullScaleLevel).mem_of_mem hlarge.neg hlarge
    (by norm_num) (by norm_num) ?_ ?_).1 <;> rw [value_fullScaleLevel] <;> linarith

/-- **Full scale takes hardly anything off**, and rounding puts it back. -/
theorem scaled_reaches (h : 2 ^ 23 ≤ s.apply v.toInt) :
    Reaches s (2 ^ 23) (toLevel v * fullScaleLevel) := by
  have hlevel := toLevel_reaches_above_one h
  have hfinite := isFinite_scaled v
  have hrounds := rounds_mul hlevel.isFinite isFinite_fullScaleLevel
  have hnear := (hrounds.nearest hfinite).factor_mul s
  rw [← mul_assoc, value_fullScaleLevel] at hnear
  have hside := hlevel.le
  have hreach := hnear.le_of_near ((representable_value _).factor_mul s) (m := 2 ^ 24) (e := -1)
    (by norm_num) le_rfl (by norm_num) (by norm_num at hside ⊢; linarith)
  norm_num at hreach
  refine ⟨hfinite, ?_⟩
  norm_num
  exact hreach

/-- The integer part of what is so far away from zero is beyond the range of a sample, even if it is
held at an end of a word. -/
theorem truncateToWord_beyond {x : Float32} (h : Reaches s (2 ^ 23) x) :
    2 ^ 23 ≤ s.apply (truncateToWord x).toInt := by
  have hside := h.le
  have hfloor : 2 ^ 23 ≤ ⌊|value x|⌋₊ := Nat.le_floor (by exact_mod_cast h.le_abs)
  rw [toInt_truncateToWord_eq_clamp h.isFinite]
  cases s <;> simp only [factor, one_mul, neg_one_mul, Sign.apply] at hside ⊢
  · rw [if_pos (by linarith)]
    omega
  · rw [if_neg (by linarith)]
    omega

end Beyond

/-! ## Every word -/

/-- **A word that is converted to a level and back is held in the range of a sample**, and nothing
    else happens to it:
    (1) it comes back as the nearest value in that range, which is at its ends for words outside;
    (2) it comes back as itself exactly if it is a sample. -/
theorem ofLevel_toLevel_saturates (v : Int32) :
    ofLevel (toLevel v) = toSampleRange v ∧
      (ofLevel (toLevel v)).toInt = max (-2 ^ 23) (min v.toInt (2 ^ 23 - 1)) ∧
      (ofLevel (toLevel v) = v ↔ -2 ^ 23 ≤ v.toInt ∧ v.toInt ≤ 2 ^ 23 - 1) := by
  have hback : ofLevel (toLevel v) = toSampleRange v := by
    rcases sample_or_beyond v with hsample | ⟨s, hbeyond⟩
    · rw [ofLevel_toLevel hsample, toSampleRange_of_mem hsample]
    · exact toSampleRange_eq_of_beyond (truncateToWord_beyond (scaled_reaches hbeyond)) hbeyond
  have hint : (ofLevel (toLevel v)).toInt = max (-2 ^ 23) (min v.toInt (2 ^ 23 - 1)) := by
    rw [hback, toInt_toSampleRange]
  refine ⟨hback, hint, ?_⟩
  constructor
  · intro hself
    rw [hself] at hint
    omega
  · rintro ⟨hmin, hmax⟩
    apply Int32.toInt.inj
    omega

end DuplexAudio
