/-
  The envelope of the soft clip.

  Every finite level is bent to a finite one, with its sign.  Up to the knee nothing happens to it.
  Beyond the knee it does not come back below the knee, and it does not go beyond the peak, however
  large it was and however the excess, its square, the quotient and the sum were rounded
  (`softClip_envelope`).

  The knee and the peak are the numbers of single precision nearest to 0.95 and 1.45.  The knee lies
  a little below 0.95, and with the largest quotient of one half it gives a tie below 1.45 that goes
  up to the peak: the bound is met at 1.95 (`softClip_envelope_peak`).
-/
import DuplexAudio.Proofs.Signal.Exact
import DuplexAudio.Proofs.Signal.Levels

namespace DuplexAudio

open Binary32
open Float.Model.UnpackedFloat (Sign)

/-! ## The two bounds -/

theorem nearest_softClipKnee : Nearest 0.95 (value softClipKnee) := by
  have hnear := nearest_of_near (q := 0.95) (r := 15938355) (t := -24)
    (by rw [abs_le]; norm_num) (.inr (by norm_num))
  rw [value_softClipKnee]
  norm_num at hnear ⊢
  exact hnear

theorem nearest_softClipPeak : Nearest 1.45 (value softClipPeak) := by
  have hnear := nearest_of_near (q := 1.45) (r := 12163482) (t := -23)
    (by rw [abs_le]; norm_num) (.inr (by norm_num))
  rw [value_softClipPeak]
  norm_num at hnear ⊢
  exact hnear

/-! ## Signs -/

theorem softClipKnee_pos : 0 < value softClipKnee := levelStep_pos.trans_le levelStep_le_knee

section Signs

variable {s : Sign} {c : ℝ} {x : Float32}

theorem Reaches.neg_iff (h : Reaches s c x) (hc : 0 < c) : x < 0 ↔ s = .negative := by
  have hside := hc.trans_le h.le
  rw [lt_iff h.isFinite isFinite_zero, value_zero]
  cases s <;> simp only [factor, one_mul, neg_one_mul] at hside
  · exact iff_of_true (neg_pos.mp hside) rfl
  · exact iff_of_false hside.not_gt Sign.noConfusion

theorem Reaches.pos_iff (h : Reaches s c x) (hc : 0 < c) : 0 < x ↔ s = .positive := by
  have hside := hc.trans_le h.le
  rw [lt_iff isFinite_zero h.isFinite, value_zero]
  cases s <;> simp only [factor, one_mul, neg_one_mul] at hside
  · exact iff_of_false (neg_pos.mp hside).not_gt Sign.noConfusion
  · exact iff_of_true hside rfl

/-- Beyond the knee a level is on one side of zero. -/
theorem exists_reaches_knee (hx : x.isFinite = true) (h : ¬x.abs ≤ softClipKnee) :
    ∃ s, Reaches s (value softClipKnee) x := by
  obtain ⟨hfinite, habs⟩ := abs_spec hx
  rw [le_iff hfinite isFinite_softClipKnee, habs, not_le] at h
  rcases lt_abs.mp h with hpos | hneg
  · exact ⟨.positive, hx, by simpa [factor] using hpos.le⟩
  · exact ⟨.negative, hx, by simpa [factor] using hneg.le⟩

theorem neg_neg_iff_pos (hx : x.isFinite = true) : -x < 0 ↔ 0 < x := by
  obtain ⟨hneg, hvalue⟩ := neg_spec hx
  rw [lt_iff hneg isFinite_zero, lt_iff isFinite_zero hx, hvalue, value_zero, neg_lt_zero]

/-- **The soft clip is odd**, bit for bit. -/
theorem softClip_neg (hx : x.isFinite = true) : softClip (-x) = -softClip x := by
  unfold softClip
  rw [abs_neg_eq]
  by_cases hinner : x.abs ≤ softClipKnee
  · rw [if_pos hinner, if_pos hinner]
  · obtain ⟨s, hs⟩ := exists_reaches_knee hx hinner
    rw [if_neg hinner, if_neg hinner]
    dsimp only
    -- the excess is the same, and one of the two levels is negative
    have hpos := (neg_neg_iff_pos hx).trans (hs.pos_iff softClipKnee_pos)
    have hneg := hs.neg_iff softClipKnee_pos
    cases s with
    | negative => rw [if_neg (hpos.not.mpr Sign.noConfusion), if_pos (hneg.mpr rfl), neg_neg_eq]
    | positive => rw [if_pos (hpos.mpr rfl), if_neg (hneg.not.mpr Sign.noConfusion)]

end Signs

/-! ## The envelope -/

/-- What the soft clip does to a level. -/
structure Enveloped (x : Float32) : Prop where
  finite : (softClip x).isFinite = true
  odd : softClip (-x) = -softClip x
  inner : x.abs ≤ softClipKnee → softClip x = x
  sign : ¬x.abs ≤ softClipKnee → (softClip x < 0 ↔ x < 0) ∧ (0 < softClip x ↔ 0 < x)
  outer : ¬x.abs ≤ softClipKnee →
    softClipKnee ≤ (softClip x).abs ∧ (softClip x).abs ≤ softClipPeak

theorem enveloped {x : Float32} (hx : x.isFinite = true) : Enveloped x := by
  obtain ⟨hfinite, habs⟩ := abs_spec hx
  have hinner : x.abs ≤ softClipKnee ↔ |value x| ≤ value softClipKnee := by
    rw [le_iff hfinite isFinite_softClipKnee, habs]
  have hclip := (softClip_bounded hx).1
  refine ⟨hclip, softClip_neg hx, fun h => softClip_eq_self hx (hinner.mp h), ?_, ?_⟩
  · intro hbeyond
    obtain ⟨s, hs⟩ := exists_reaches_knee hx hbeyond
    have hs' := softClip_reaches hs softClipKnee_pos le_rfl
    have hneg := (hs'.neg_iff softClipKnee_pos).trans (hs.neg_iff softClipKnee_pos).symm
    have hpos := (hs'.pos_iff softClipKnee_pos).trans (hs.pos_iff softClipKnee_pos).symm
    exact ⟨hneg, hpos⟩
  · intro hbeyond
    obtain ⟨-, hlow, hhigh, -⟩ := softClip_beyond hx (not_le.mp (hinner.not.mp hbeyond))
    obtain ⟨hclipAbs, hclipValue⟩ := abs_spec hclip
    rw [le_iff isFinite_softClipKnee hclipAbs, le_iff hclipAbs isFinite_softClipPeak, hclipValue]
    exact ⟨hlow, hhigh⟩

/-- **The envelope of the soft clip.**  Knee and peak are the numbers of single precision nearest to
    0.95 and 1.45; a finite level up to the knee stays as it is, and any other is bent to a level
    between the two, on its side of zero. -/
theorem softClip_envelope : Nearest 0.95 (value softClipKnee) ∧ Nearest 1.45 (value softClipPeak) ∧
    ∀ x : Float32, x.isFinite = true → Enveloped x :=
  ⟨nearest_softClipKnee, nearest_softClipPeak, fun _ => enveloped⟩

/-- The peak is met, by a level whose excess is rounded to one. -/
theorem softClip_envelope_peak :
    (-1.95 : Float32).isFinite = true ∧ ¬(-1.95 : Float32).abs ≤ softClipKnee ∧
      softClip (-1.95) = -softClipPeak ∧ Enveloped (-1.95) :=
  ⟨by decide +kernel, by decide +kernel, by decide +kernel,
    softClip_envelope.2.2 _ (by decide +kernel)⟩

end DuplexAudio
