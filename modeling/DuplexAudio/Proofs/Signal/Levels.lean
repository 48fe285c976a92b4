/-
  What the conversions and the soft clip do to a level.

  `Reaches s c x` says that `x` is finite, on the side of the sign `s`, and at least `c` away from
  zero.  A level that reaches one step, the level of the word 1, keeps it on the whole way:

  1. A word that is not zero becomes a level that reaches one step (`toLevel_reaches`).

  2. The soft clip leaves a level alone up to the knee.  Beyond the knee it stays between the knee
     and its peak, whatever the excess is.  The square of a large excess may become infinite, and
     the quotient is zero then.  Otherwise the divisor is at least twice the excess, as it would be
     without rounding, because twice the excess less one is a number of single precision and the
     square is not rounded below it (`double_excess_le`).  So the quotient is one half at most
     (`quotient_spec`), and the soft clip keeps the reach of every finite level (`softClip_reaches`)
     and is always finite (`softClip_beyond`).

  3. A level that reaches one step is converted back to a sample with its sign (`ofLevel_sign`).
     One step times full scale is a little less than one, but so near to it that it is rounded to
     one.

  Levels of words in the range of a sample exceed one by two units in the last place at most, and
  the soft clip takes them to one or below (`abs_softClip_le_one`).
-/
import DuplexAudio.Proofs.Signal.Arithmetic
import DuplexAudio.Signal.Sample

namespace DuplexAudio

open Binary32
open Float.Model.UnpackedFloat (Sign)

/-! ## Constants -/

/-- The level of the word 1. -/
def levelStep : Float32 := 1 / fullScaleLevel

theorem isFinite_levelStep : levelStep.isFinite = true := rfl

theorem isFinite_fullScaleLevel : fullScaleLevel.isFinite = true := rfl

theorem isFinite_softClipKnee : softClipKnee.isFinite = true := rfl

theorem value_levelStep : value levelStep = 8388609 / 2 ^ 46 := by
  show factor .positive * ((8388609 : ℕ) * 2 ^ (-46 : ℤ)) = _
  norm_num [factor]

theorem value_fullScaleLevel : value fullScaleLevel = 8388607 := by
  show factor .positive * ((16777214 : ℕ) * 2 ^ (-1 : ℤ)) = _
  norm_num [factor]

theorem value_softClipKnee : value softClipKnee = 15938355 / 2 ^ 24 := by
  show factor .positive * ((15938355 : ℕ) * 2 ^ (-24 : ℤ)) = _
  norm_num [factor]

/-- What the soft clip does not exceed: the knee and one half, rounded. -/
def softClipPeak : Float32 := 1.45

theorem isFinite_softClipPeak : softClipPeak.isFinite = true := rfl

theorem value_softClipPeak : value softClipPeak = 12163482 / 2 ^ 23 := by
  show factor .positive * ((12163482 : ℕ) * 2 ^ (-23 : ℤ)) = _
  norm_num [factor]

theorem levelStep_pos : 0 < value levelStep := by
  rw [value_levelStep]
  positivity

theorem levelStep_le_knee : value levelStep ≤ value softClipKnee := by
  rw [value_levelStep, value_softClipKnee]
  norm_num

/-! ## Reach -/

/-- A finite number on the side of a sign, at least so far away from zero. -/
structure Reaches (s : Sign) (c : ℝ) (x : Float32) : Prop where
  isFinite : x.isFinite = true
  le : c ≤ factor s * value x

/-- Rounding keeps a reach that is a number of single precision. -/
theorem Reaches.of_rounds {s : Sign} {c q : ℝ} {z : Float32} (h : Rounds q z)
    (hz : z.isFinite = true) (hc : Representable c) (hle : c ≤ factor s * q) : Reaches s c z :=
  ⟨hz, ((h.nearest hz).factor_mul s).le_of_le hc hle⟩

theorem abs_factor_mul (s : Sign) (q : ℝ) : |factor s * q| = |q| := by
  cases s <;> simp [factor]

theorem Reaches.le_abs {s : Sign} {c : ℝ} {x : Float32} (h : Reaches s c x) : c ≤ |value x| :=
  h.le.trans ((le_abs_self _).trans_eq (abs_factor_mul s _))

/-! ## From words to levels -/

/-- A word that is not zero is on one side of it. -/
theorem exists_sign {v : Int32} (hv : v ≠ 0) : ∃ s : Sign, 1 ≤ s.apply v.toInt := by
  have hne : v.toInt ≠ 0 := fun h => hv (Int32.toInt.inj h)
  rcases lt_or_gt_of_ne hne with hneg | hpos
  · exact ⟨.negative, show 1 ≤ -v.toInt by omega⟩
  · exact ⟨.positive, hpos⟩

/-- The conversion of a word is rounded once. -/
theorem wordToFloat_spec (v : Int32) :
    (wordToFloat v).isFinite = true ∧ Nearest v.toInt (value (wordToFloat v)) := by
  have hmin := v.le_toInt
  have hmax := v.toInt_lt
  have hrounds := rounds_toFloat32 v.toInt.natAbs.toUInt32
  have hmagnitude : ((v.toInt.natAbs.toUInt32.toNat : ℕ) : ℝ) = |(v.toInt : ℝ)| := by
    have hword : v.toInt.natAbs.toUInt32.toNat = v.toInt.natAbs := by
      rw [Nat.toUInt32, UInt32.toNat_ofNat']
      omega
    rw [hword, Nat.cast_natAbs, Int.cast_abs]
  rw [hmagnitude] at hrounds
  have hlarge : |(v.toInt : ℝ)| ≤ 2 ^ 31 := by
    exact_mod_cast abs_le.mpr ⟨by omega, by omega⟩
  obtain ⟨hfinite, -, -⟩ := hrounds.mem_of_mem representable_zero (b := 2 ^ 31)
    ⟨1, 31, by norm_num, by norm_num, by norm_num⟩ (by norm_num) (by norm_num) (abs_nonneg _) hlarge
  have hnear := hrounds.nearest hfinite
  unfold wordToFloat
  dsimp only
  split
  · next hneg =>
    rw [Int32.lt_iff_toInt_lt] at hneg
    have hnonpos : (v.toInt : ℝ) ≤ 0 := by exact_mod_cast hneg.le
    obtain ⟨hnegFinite, hnegValue⟩ := neg_spec hfinite
    rw [abs_of_nonpos hnonpos] at hnear
    rw [hnegValue]
    exact ⟨hnegFinite, by simpa using hnear.neg⟩
  · next hneg =>
    rw [Int32.lt_iff_toInt_lt, not_lt] at hneg
    have hnonneg : 0 ≤ (v.toInt : ℝ) := by exact_mod_cast hneg
    rw [abs_of_nonneg hnonneg] at hnear
    exact ⟨hfinite, hnear⟩

/-- A level is the converted word times the level of one step, rounded once more; it is finite. -/
theorem toLevel_spec (v : Int32) :
    (toLevel v).isFinite = true ∧
      Rounds (value (wordToFloat v) * value levelStep) (toLevel v) := by
  obtain ⟨hfinite, hnear⟩ := wordToFloat_spec v
  have hrounds : Rounds (value (wordToFloat v) * value levelStep) (toLevel v) :=
    rounds_mul hfinite isFinite_levelStep
  have hmin : (-2 ^ 31 : ℝ) ≤ v.toInt := by exact_mod_cast v.le_toInt
  have hmax : (v.toInt : ℝ) ≤ 2 ^ 31 := by exact_mod_cast v.toInt_lt.le
  have hpower : Representable (2 ^ 31) := ⟨1, 31, by norm_num, by norm_num, by norm_num⟩
  have hlow : -2 ^ 31 ≤ value (wordToFloat v) := hnear.le_of_le hpower.neg hmin
  have hhigh : value (wordToFloat v) ≤ 2 ^ 31 := hnear.ge_of_ge hpower hmax
  have hbound : Representable 512 := ⟨512, 0, by norm_num, by norm_num, by norm_num⟩
  refine ⟨(hrounds.mem_of_mem hbound.neg hbound (by norm_num) (by norm_num) ?_ ?_).1, hrounds⟩ <;>
    rw [value_levelStep] <;> linarith

/-- What the magnitude of a word is not less than, its level reaches. -/
theorem toLevel_reaches_of {s : Sign} {v : Int32} {c d : ℝ} (hc : Representable c)
    (hd : Representable d) (hle : d ≤ c * value levelStep) (h : c ≤ (s.apply v.toInt : ℤ)) :
    Reaches s d (toLevel v) := by
  obtain ⟨hfinite, hrounds⟩ := toLevel_spec v
  rw [cast_apply] at h
  have hword : c ≤ factor s * value (wordToFloat v) :=
    ((wordToFloat_spec v).2.factor_mul s).le_of_le hc h
  refine .of_rounds hrounds hfinite hd ?_
  calc d ≤ c * value levelStep := hle
    _ ≤ factor s * value (wordToFloat v) * value levelStep :=
        mul_le_mul_of_nonneg_right hword levelStep_pos.le
    _ = factor s * (value (wordToFloat v) * value levelStep) := mul_assoc _ _ _

/-- **A word that is not zero reaches one step** with its level. -/
theorem toLevel_reaches {s : Sign} {v : Int32} (h : 1 ≤ s.apply v.toInt) :
    Reaches s (value levelStep) (toLevel v) :=
  toLevel_reaches_of representable_one (representable_value _) (one_mul _).ge (by exact_mod_cast h)

/-- **A word outside the range of a sample reaches one** with its level. -/
theorem toLevel_reaches_one {s : Sign} {v : Int32} (h : 2 ^ 23 ≤ s.apply v.toInt) :
    Reaches s 1 (toLevel v) := by
  have hpower : Representable (2 ^ 23) := ⟨1, 23, by norm_num, by norm_num, by norm_num⟩
  refine toLevel_reaches_of hpower representable_one ?_ (by exact_mod_cast h)
  rw [value_levelStep]
  norm_num

/-- What the magnitude of a word does not exceed bounds its level. -/
theorem abs_toLevel_le_of {v : Int32} {c d : ℝ} (hc : Representable c) (hd : Representable d)
    (hle : c * value levelStep ≤ d) (hmin : -c ≤ v.toInt) (hmax : (v.toInt : ℝ) ≤ c) :
    |value (toLevel v)| ≤ d := by
  obtain ⟨hfinite, hrounds⟩ := toLevel_spec v
  have hnear := (wordToFloat_spec v).2
  have hlow : -c ≤ value (wordToFloat v) := hnear.le_of_le hc.neg hmin
  have hhigh : value (wordToFloat v) ≤ c := hnear.ge_of_ge hc hmax
  have hlow' := mul_le_mul_of_nonneg_right hlow levelStep_pos.le
  have hhigh' := mul_le_mul_of_nonneg_right hhigh levelStep_pos.le
  rw [abs_le]
  exact ⟨(hrounds.nearest hfinite).le_of_le hd.neg (by linarith),
    (hrounds.nearest hfinite).ge_of_ge hd (by linarith)⟩

/-- A word in the range of a sample has a level of one and two units in the last place at most. -/
theorem abs_toLevel_le {v : Int32} (hmin : -2 ^ 23 ≤ v.toInt) (hmax : v.toInt ≤ 2 ^ 23) :
    |value (toLevel v)| ≤ 1 + 1 / 2 ^ 23 := by
  have hpower : Representable (2 ^ 23) := ⟨1, 23, by norm_num, by norm_num, by norm_num⟩
  have hbound : Representable (1 + 1 / 2 ^ 23) :=
    ⟨8388609, -23, by norm_num, by norm_num, by norm_num⟩
  refine abs_toLevel_le_of hpower hbound ?_ (by exact_mod_cast hmin) (by exact_mod_cast hmax)
  rw [value_levelStep]
  norm_num

/-! ## The soft clip -/

/-- The soft clip leaves a level alone up to the knee. -/
theorem softClip_eq_self {x : Float32} (hx : x.isFinite = true)
    (h : |value x| ≤ value softClipKnee) : softClip x = x := by
  obtain ⟨hfinite, habs⟩ := abs_spec hx
  unfold softClip
  rw [if_pos ((le_iff hfinite isFinite_softClipKnee).mpr (habs ▸ h))]

section Excess

variable {e : Float32}

/-- What the excess is divided by: at least what rounding cannot take from one and the square, or
infinite. -/
theorem divisor_spec (he : e.isFinite = true) :
    (1 + e * e = infinity .positive) ∨ (1 + e * e).isFinite = true ∧
      ∀ a b : ℝ, Representable a → Representable b → a ≤ value e * value e → b ≤ 1 + a →
        b ≤ value (1 + e * e) := by
  have hsquare := rounds_mul he he
  rcases hsquare.isFinite_or_eq_infinity (mul_self_nonneg _) with hfinite | hinfinite
  · have hsum := rounds_add isFinite_one hfinite
    have hnonneg := (hsquare.nearest hfinite).le_of_le representable_zero (mul_self_nonneg _)
    rw [value_one] at hsum
    rcases hsum.isFinite_or_eq_infinity (by linarith) with hd | hd
    · refine .inr ⟨hd, fun a b ha hb hle hsumle => (hsum.nearest hd).le_of_le hb ?_⟩
      linarith [(hsquare.nearest hfinite).le_of_le ha hle]
    · exact .inl hd
  · rw [hinfinite]
    exact .inl rfl

/-- From one half on, the divisor is at least twice the excess, because `(e - 1) ^ 2` is not
negative and neither the square nor the sum is rounded below what that leaves. -/
theorem double_excess_le (hhalf : 1 / 2 ≤ value e)
    (hlower : ∀ a b : ℝ, Representable a → Representable b → a ≤ value e * value e → b ≤ 1 + a →
      b ≤ value (1 + e * e)) : 2 * value e ≤ value (1 + e * e) := by
  have he := representable_value e
  rcases le_total (value e) 2 with hsmall | hlarge
  · have hsquare : 2 * value e - 1 ≤ value e * value e := by
      linarith [mul_self_nonneg (value e - 1)]
    exact hlower _ _ (he.double_sub_one hhalf hsmall) he.double hsquare (by linarith)
  · have hsquare : 2 * value e ≤ value e * value e :=
      mul_le_mul_of_nonneg_right hlarge (by linarith)
    exact hlower _ _ he.double he.double hsquare (by linarith)

/-- **The bent excess is between zero and one half**, and not more than the excess. -/
theorem quotient_spec (he : e.isFinite = true) (hpos : 0 ≤ value e) :
    (e / (1 + e * e)).isFinite = true ∧ 0 ≤ value (e / (1 + e * e)) ∧
      value (e / (1 + e * e)) ≤ 1 / 2 ∧ value (e / (1 + e * e)) ≤ value e := by
  rcases divisor_spec he with hinfinite | ⟨hfinite, hlower⟩
  · obtain ⟨hq, hzero⟩ := div_infinity he .positive
    rw [hinfinite, hzero]
    exact ⟨hq, le_rfl, by norm_num, hpos⟩
  · have hone : 1 ≤ value (1 + e * e) :=
      hlower 0 1 representable_zero representable_one (mul_self_nonneg _) (by norm_num)
    have hdpos : 0 < value (1 + e * e) := by linarith
    have hexact : value e / value (1 + e * e) ≤ value e := div_le_self hpos hone
    have hhalf : value e / value (1 + e * e) ≤ 1 / 2 := by
      rcases le_total (value e) (1 / 2) with hsmall | hlarge
      · exact hexact.trans hsmall
      · rw [div_le_iff₀ hdpos]
        linarith [double_excess_le hlarge hlower]
    have hrounds := rounds_div he hfinite hdpos.ne'
    obtain ⟨hmin, hmax⟩ := abs_lt.mp (abs_value_lt e)
    obtain ⟨hq, hlow, hhigh⟩ := hrounds.mem_of_mem representable_zero (representable_value e)
      (by norm_num) hmax (div_nonneg hpos hdpos.le) hexact
    exact ⟨hq, hlow, (hrounds.nearest hq).ge_of_ge
      ⟨1, -1, by norm_num, by norm_num, by norm_num⟩ hhalf, hhigh⟩

/-- The excess of a level that is one and two units in the last place is bent to the rest that one
leaves above the knee. -/
theorem quotient_le (he : e.isFinite = true) (hpos : 0 ≤ value e)
    (hsmall : value e ≤ 838863 / 2 ^ 24) :
    value (e / (1 + e * e)) ≤ 838861 / 2 ^ 24 := by
  rcases le_total (value e) (838861 / 2 ^ 24) with hle | hge
  · exact (quotient_spec he hpos).2.2.2.trans hle
  · have hrest : Representable (838861 / 2 ^ 24) :=
      ⟨838861, -24, by norm_num, by norm_num, by norm_num⟩
    rcases divisor_spec he with hinfinite | ⟨hfinite, hlower⟩
    · rw [hinfinite, (div_infinity he .positive).2]
      positivity
    · have hd : 513 / 512 ≤ value (1 + e * e) :=
        hlower (1 / 512) (513 / 512) ⟨1, -9, by norm_num, by norm_num, by norm_num⟩
          ⟨513, -9, by norm_num, by norm_num, by norm_num⟩ (by nlinarith) (by norm_num)
      have hdpos : 0 < value (1 + e * e) := by linarith
      have hrounds := rounds_div he hfinite hdpos.ne'
      refine (hrounds.nearest (quotient_spec he hpos).1).ge_of_ge hrest ?_
      rw [div_le_iff₀ hdpos]
      linarith

end Excess

/-- The excess beyond the knee. -/
theorem excess_spec {x : Float32} (hx : x.isFinite = true) (h : value softClipKnee < |value x|) :
    (x.abs - softClipKnee).isFinite = true ∧ 0 ≤ value (x.abs - softClipKnee) ∧
      (|value x| ≤ 1 + 1 / 2 ^ 23 → value (x.abs - softClipKnee) ≤ 838863 / 2 ^ 24) := by
  obtain ⟨hfinite, habs⟩ := abs_spec hx
  have hrounds := rounds_sub hfinite isFinite_softClipKnee
  rw [habs] at hrounds
  have hknee : 0 ≤ value softClipKnee := by rw [value_softClipKnee]; positivity
  obtain ⟨he, hlow, -⟩ := hrounds.mem_of_mem representable_zero (habs ▸ representable_value x.abs)
    (by norm_num) (abs_value_lt x) (by linarith) (by linarith)
  refine ⟨he, hlow, fun hsmall => (hrounds.nearest he).ge_of_ge
    ⟨838863, -24, by norm_num, by norm_num, by norm_num⟩ ?_⟩
  rw [value_softClipKnee]
  linarith

/-- **Beyond the knee** a level is bent, with its sign, to between the knee and the peak; and to 1 or
less if it is 1 and two units in the last place at most. -/
theorem softClip_beyond {x : Float32} (hx : x.isFinite = true)
    (h : value softClipKnee < |value x|) :
    (softClip x).isFinite = true ∧ value softClipKnee ≤ |value (softClip x)| ∧
      |value (softClip x)| ≤ value softClipPeak ∧
      (|value x| ≤ 1 + 1 / 2 ^ 23 → |value (softClip x)| ≤ 1) ∧
      (value (softClip x) < 0 ↔ value x < 0) := by
  obtain ⟨hfinite, habs⟩ := abs_spec hx
  obtain ⟨he, hpos, hsmall⟩ := excess_spec hx h
  obtain ⟨hq, hq0, hq1, -⟩ := quotient_spec he hpos
  have hbeyond : ¬x.abs ≤ softClipKnee := by
    rw [le_iff hfinite isFinite_softClipKnee, habs]
    exact not_le.mpr h
  unfold softClip
  rw [if_neg hbeyond]
  dsimp only
  have hrest := quotient_le he hpos
  generalize x.abs - softClipKnee = e at he hq hq0 hq1 hsmall hrest
  generalize e / (1 + e * e) = q at hq hq0 hq1 hrest
  have hrounds := rounds_add isFinite_softClipKnee hq
  obtain ⟨hb, hlow, hhigh⟩ := hrounds.mem_of_mem (representable_value softClipKnee)
    (representable_value softClipPeak) (by rw [value_softClipKnee]; norm_num)
    (by rw [value_softClipPeak]; norm_num) (by linarith)
    (by rw [value_softClipKnee, value_softClipPeak]; linarith)
  have hone (hx1 : |value x| ≤ 1 + 1 / 2 ^ 23) : value (softClipKnee + q) ≤ 1 := by
    refine (hrounds.nearest hb).ge_of_ge representable_one ?_
    rw [value_softClipKnee]
    linarith [hrest (hsmall hx1)]
  have hside : x < 0 ↔ value x < 0 := lt_iff hx isFinite_zero
  have hbpos : 0 < value (softClipKnee + q) :=
    lt_of_lt_of_le (by rw [value_softClipKnee]; positivity) hlow
  split
  · next hneg =>
    obtain ⟨hnegFinite, hnegValue⟩ := neg_spec hb
    rw [hnegValue, abs_neg, abs_of_pos hbpos]
    exact ⟨hnegFinite, hlow, hhigh, hone, by simp [hbpos, hside.mp hneg]⟩
  · next hneg =>
    rw [abs_of_pos hbpos]
    exact ⟨hb, hlow, hhigh, hone, by simp [hbpos.not_gt, hside.not.mp hneg]⟩

/-- The soft clip of a finite level is finite, and 2 at most. -/
theorem softClip_bounded {x : Float32} (hx : x.isFinite = true) :
    (softClip x).isFinite = true ∧ |value (softClip x)| ≤ 2 := by
  rcases le_or_gt |value x| (value softClipKnee) with hle | hgt
  · rw [softClip_eq_self hx hle]
    refine ⟨hx, hle.trans ?_⟩
    rw [value_softClipKnee]
    norm_num
  · obtain ⟨hfinite, -, hhigh, -⟩ := softClip_beyond hx hgt
    refine ⟨hfinite, hhigh.trans ?_⟩
    rw [value_softClipPeak]
    norm_num

/-- The soft clip takes levels that are just outside their range back into it. -/
theorem abs_softClip_le_one {x : Float32} (hx : x.isFinite = true)
    (h : |value x| ≤ 1 + 1 / 2 ^ 23) : |value (softClip x)| ≤ 1 := by
  rcases le_or_gt |value x| (value softClipKnee) with hle | hgt
  · rw [softClip_eq_self hx hle]
    refine hle.trans ?_
    rw [value_softClipKnee]
    norm_num
  · obtain ⟨-, -, -, hone, -⟩ := softClip_beyond hx hgt
    exact hone h

/-- **The soft clip keeps the reach of every level**, up to the knee. -/
theorem softClip_reaches {s : Sign} {c : ℝ} {x : Float32} (h : Reaches s c x) (hc : 0 < c)
    (hknee : c ≤ value softClipKnee) : Reaches s c (softClip x) := by
  rcases le_or_gt |value x| (value softClipKnee) with hle | hgt
  · rw [softClip_eq_self h.isFinite hle]
    exact h
  · obtain ⟨hfinite, hlow, -, -, hside⟩ := softClip_beyond h.isFinite hgt
    have hle := h.le
    refine ⟨hfinite, hknee.trans (hlow.trans_eq ?_)⟩
    cases s <;> simp only [factor, one_mul, neg_one_mul] at hle ⊢
    · exact abs_of_neg (hside.mpr (by linarith))
    · exact abs_of_nonneg (not_lt.mp (hside.not.mpr (by linarith)))

/-! ## From levels to samples -/

/-- **The conversion to a word truncates and saturates**: it takes the integer part of a number,
toward zero, and holds it in the range of a word. -/
theorem toInt_truncateToWord_eq_clamp {x : Float32} (hx : x.isFinite = true) :
    (truncateToWord x).toInt =
      max (-2 ^ 31)
        (min (if value x < 0 then -(⌊|value x|⌋₊ : ℤ) else (⌊|value x|⌋₊ : ℤ)) (2 ^ 31 - 1)) := by
  obtain ⟨hfinite, habs⟩ := abs_spec hx
  have hpart : x.abs.toUInt32.toNat = min ⌊|value x|⌋₊ (2 ^ 32 - 1) := by
    rw [← habs]
    exact toNat_toUInt32_eq_min hfinite (habs ▸ abs_nonneg _)
  have hside : x < 0 ↔ value x < 0 := lt_iff hx isFinite_zero
  have hmin : Int32.minValue.toInt = -2 ^ 31 := by decide
  have hmax : Int32.maxValue.toInt = 2 ^ 31 - 1 := by decide
  have hclamp (n : ℤ) : (Int32.ofIntClamp n).toInt = max (-2 ^ 31) (min n (2 ^ 31 - 1)) := by
    by_cases hlow : Int32.minValue.toInt ≤ n
    · by_cases hhigh : n ≤ Int32.maxValue.toInt
      · rw [Int32.toInt_ofIntClamp hlow hhigh]
        omega
      · unfold Int32.ofIntClamp
        rw [dif_pos hlow, dif_neg hhigh]
        omega
    · unfold Int32.ofIntClamp
      rw [dif_neg hlow]
      omega
  unfold truncateToWord
  dsimp only
  -- the magnitude was held at a bound beyond the one of a signed word
  rw [hclamp, hpart, if_congr hside rfl rfl]
  split <;> omega

/-- What is in the range of a word is not held. -/
theorem toInt_truncateToWord {x : Float32} (hx : x.isFinite = true) (h : |value x| < 2 ^ 31) :
    (truncateToWord x).toInt =
      if value x < 0 then -(⌊|value x|⌋₊ : ℤ) else (⌊|value x|⌋₊ : ℤ) := by
  have hfloor : ⌊|value x|⌋₊ < 2 ^ 31 := by
    rw [Nat.floor_lt (abs_nonneg _)]
    exact_mod_cast h
  rw [toInt_truncateToWord_eq_clamp hx]
  split <;> omega

/-- The range of a sample holds a word between its two ends. -/
theorem toInt_toSampleRange (v : Int32) :
    (toSampleRange v).toInt = max (-2 ^ 23) (min v.toInt (2 ^ 23 - 1)) := by
  have hlow : (-8388608 : Int32).toInt = -8388608 := by decide
  have hhigh : fullScale.toInt = 8388607 := by decide
  unfold toSampleRange
  split
  · next hbelow =>
    rw [Int32.lt_iff_toInt_lt, hlow] at hbelow
    omega
  · next hbelow =>
    rw [Int32.lt_iff_toInt_lt, hlow] at hbelow
    split
    · next habove =>
      rw [Int32.lt_iff_toInt_lt, hhigh] at habove
      omega
    · next habove =>
      rw [Int32.lt_iff_toInt_lt, hhigh] at habove
      omega

/-- A word keeps its sign in the range of a sample. -/
theorem toSampleRange_sign {s : Sign} {v : Int32} (h : 1 ≤ s.apply v.toInt) :
    1 ≤ s.apply (toSampleRange v).toInt := by
  rw [toInt_toSampleRange]
  cases s <;> simp only [Sign.apply] at h ⊢ <;> omega

/-- **The way back to a sample**: a level times full scale is rounded once and loses what is after
its point, and what is left is held in the range of a sample. -/
theorem ofLevel_spec {x : Float32} (hx : x.isFinite = true) (hle : |value x| ≤ 2) :
    ∃ y w, Nearest (value x * 8388607) y ∧ Representable y ∧ ofLevel x = toSampleRange w ∧
      ∀ s, 0 < factor s * y → w.toInt = s.apply ⌊factor s * y⌋₊ := by
  have hrounds := rounds_mul hx isFinite_fullScaleLevel
  rw [value_fullScaleLevel] at hrounds
  obtain ⟨hmin, hmax⟩ := abs_le.mp hle
  have hbound : Representable 16777214 := ⟨16777214, 0, by norm_num, by norm_num, by norm_num⟩
  obtain ⟨hfinite, hlow, hhigh⟩ := hrounds.mem_of_mem hbound.neg hbound (by norm_num) (by norm_num)
    (by linarith) (by linarith)
  have hword : |value (x * fullScaleLevel)| < 2 ^ 31 :=
    (abs_le.mpr ⟨hlow, hhigh⟩).trans_lt (by norm_num)
  refine ⟨_, _, hrounds.nearest hfinite, representable_value _, rfl, fun s hs => ?_⟩
  rw [toInt_truncateToWord hfinite hword]
  cases s <;> simp only [factor, one_mul, neg_one_mul] at hs ⊢
  · rw [if_pos (by linarith), abs_of_neg (by linarith)]
    rfl
  · rw [if_neg (by linarith), abs_of_pos hs]
    rfl

/-- **A level that reaches one step becomes a sample with its sign.** -/
theorem ofLevel_sign {s : Sign} {x : Float32} (h : Reaches s (value levelStep) x)
    (hle : |value x| ≤ 2) : 1 ≤ s.apply (ofLevel x).toInt := by
  obtain ⟨y, w, hnear, hy, hw, hpart⟩ := ofLevel_spec h.isFinite hle
  have hside := h.le
  rw [value_levelStep] at hside
  have hone : 1 ≤ factor s * y := by
    refine (hnear.factor_mul s).one_le (hy.factor_mul s) ?_
    rw [← mul_assoc]
    norm_num at hside ⊢
    linarith
  have hfloor : 1 ≤ ⌊factor s * y⌋₊ := Nat.one_le_floor_iff _ |>.mpr hone
  rw [hw]
  refine toSampleRange_sign ?_
  rw [hpart s (by linarith)]
  cases s <;> simpa [Sign.apply] using hfloor

end DuplexAudio
