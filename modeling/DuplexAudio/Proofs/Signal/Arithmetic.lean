/-
  Single-precision arithmetic in the reals.

  A number of the machine is known by two things: whether it is finite, and if so which real number
  it is (`value`).  What an operation does is then said without its bits:

  1. Every finite result is the exact one, rounded once (`Rounds`).  What would be out of range is
     infinite, with its sign.

  2. Comparisons of finite numbers are those of their values (`le_iff`, `lt_iff`), and negation and
     magnitude are exact.

  3. The conversion to a word takes the integer part, held in its range (`toNat_toUInt32_eq_min`).

  The facts about bits are used up in the first section: packing loses nothing that is in range
  (`unpack_pack`), and what is unpacked is canonical and in range (`canonical_unpack`).
-/
import DuplexAudio.Proofs.Signal.Rounding

namespace DuplexAudio.Binary32

open Float.Model (Format UnpackedFloat totalExponent)
open Float.Model.UnpackedFloat

/-! ## Packing -/

/-- The exponent is not too large for single precision. -/
def InRange : UnpackedFloat → Prop
  | .finite _ _ e _ => e ≤ 104
  | .infinity _ | .notANumber | .zero _ => True

/-- The leading bit of a mantissa is not stored unless the exponent is the least one. -/
theorem toNat_leadingBit (m : BitVec 23) : (1#1 ++ m).toNat = 2 ^ 23 + m.toNat := by
  rw [BitVec.toNat_append, ← Nat.shiftLeft_add_eq_or_of_lt m.isLt]
  rfl

theorem unpack_packedInfinity (s : Sign) :
    unpack format (packedInfinity format s) = .infinity s := by
  cases s <;> rfl

/-- A mantissa with all its bits. -/
theorem unpack_normal (s : Sign) {e : BitVec 8} {m : BitVec 23} (hlow : e.toNat ≠ 0)
    (hhigh : e.toNat ≠ 255) {n : ℕ} (hn : 0 < n) (hm : n = 2 ^ 23 + m.toNat) {k : ℤ}
    (hk : k = e.toNat - 150) :
    unpack format (packComponents format s e m) = .finite s n k hn := by
  have hzero : e ≠ 0#8 := fun h => hlow (congrArg BitVec.toNat h)
  have hones : e ≠ -1#8 := fun h => hhigh (congrArg BitVec.toNat h)
  unfold Float.Model.UnpackedFloat.unpack
  simp only [unpackMantissa_packComponents, unpackExponent_packComponents,
    unpackSign_packComponents, Sign.ofBitVec_toBitVec]
  rw [if_neg hones, if_neg hzero]
  subst hm hk
  congr 1
  exact toNat_leadingBit m

/-- A mantissa with fewer bits. -/
theorem unpack_subnormal (s : Sign) {m : BitVec 23} {n : ℕ} (hn : 0 < n) (hm : n = m.toNat) :
    unpack format (packComponents format s 0#8 m) = .finite s n (-149) hn := by
  have hne : m ≠ 0#23 := fun h => hn.ne' (hm.trans (congrArg BitVec.toNat h))
  unfold Float.Model.UnpackedFloat.unpack
  simp only [unpackMantissa_packComponents, unpackExponent_packComponents,
    unpackSign_packComponents, Sign.ofBitVec_toBitVec]
  rw [if_neg (by decide), if_pos trivial, dif_neg hne]
  subst hm
  congr 1

/-- What is in range is packed with its leading bit dropped, or with the least exponent. -/
theorem pack_finite (s : Sign) {m : ℕ} {e : ℤ} (hm : 0 < m) (he : e ≤ 104) :
    pack format (.finite s m e hm) =
      if m.log2 + 1 = 24 then
        packComponents format s (BitVec.ofNat 8 (e + 150).toNat) (BitVec.ofNat 23 m)
      else packComponents format s 0#8 (BitVec.ofNat 23 m) := by
  have hbias : e + 127 + 23 = e + 150 := by omega
  have hsmall : ¬2 ^ 8 ≤ (e + 150).toNat + 1 := by omega
  unfold Float.Model.UnpackedFloat.pack
  show (if 2 ^ 8 ≤ (e + 127 + 23).toNat + 1 then _ else if m.log2 + 1 = 24 then
    packComponents format s (BitVec.ofNat 8 (e + 127 + 23).toNat) (BitVec.ofNat 23 m) else _) = _
  rw [hbias, if_neg hsmall]

/-- **Packing loses nothing that is in range.** -/
theorem unpack_pack {u : UnpackedFloat} (hc : Canonical u) (hr : InRange u) :
    unpack format (pack format u) = u := by
  cases u with
  | notANumber => rfl
  | infinity s => exact unpack_packedInfinity s
  | zero => exact unpack_packedZero
  | finite s m e hm =>
    obtain ⟨hm24, he, hfull⟩ := hc
    have hr : e ≤ 104 := hr
    have hmantissa : (BitVec.ofNat 23 m).toNat = m % 2 ^ 23 := BitVec.toNat_ofNat m 23
    rw [pack_finite s hm hr]
    by_cases hnormal : 2 ^ 23 ≤ m
    · have hlog : m.log2 + 1 = 24 := by
        rw [Nat.add_right_cancel_iff, Nat.log2_eq_iff hm.ne']
        exact ⟨hnormal, hm24⟩
      have hexponent : (BitVec.ofNat 8 (e + 150).toNat).toNat = (e + 150).toNat := by
        rw [BitVec.toNat_ofNat]
        omega
      rw [if_pos hlog]
      exact unpack_normal s (by omega) (by omega) hm (by omega) (by omega)
    · have hlog : ¬m.log2 + 1 = 24 := by
        have := (Nat.log2_lt hm.ne').mpr (not_le.mp hnormal)
        omega
      obtain rfl : e = -149 := hfull.resolve_right hnormal
      rw [if_neg hlog]
      exact unpack_subnormal s hm (by omega)

/-- What is out of range is packed as infinity. -/
theorem pack_overflow (s : Sign) {m : ℕ} {e : ℤ} (hm : 0 < m) (he : 104 < e) :
    pack format (.finite s m e hm) = pack format (.infinity s) := by
  have hlarge : 2 ^ 8 ≤ (e + 127 + 23).toNat + 1 := by omega
  unfold Float.Model.UnpackedFloat.pack
  exact if_pos hlarge

/-- What is unpacked is canonical and in range. -/
theorem canonical_unpack (b : BitVec 32) :
    Canonical (unpack format b) ∧ InRange (unpack format b) := by
  have hmantissa : (@unpackMantissa format b).toNat < 2 ^ 23 := BitVec.isLt _
  have hexponent : (@unpackExponent format b).toNat < 2 ^ 8 := BitVec.isLt _
  unfold Float.Model.UnpackedFloat.unpack
  dsimp only
  split
  · split <;> exact ⟨trivial, trivial⟩
  · next hones =>
    split
    · next hzero =>
      split
      · exact ⟨trivial, trivial⟩
      · rw [hzero]
        exact ⟨⟨hmantissa.trans (by norm_num), by decide, .inl (by decide)⟩,
          show (_ : ℤ) ≤ 104 by decide⟩
    · next hnonzero =>
      have hlow : (@unpackExponent format b).toNat ≠ 0 := fun h =>
        hnonzero (BitVec.eq_of_toNat_eq h)
      have hhigh : (@unpackExponent format b).toNat ≠ 255 := fun h =>
        hones (BitVec.eq_of_toNat_eq h)
      have hbias : ((format.exponentBias : ℤ) + (23 : ℕ)) = 150 := by decide
      have hbits := toNat_leadingBit (@unpackMantissa format b)
      exact ⟨⟨by omega, by omega, .inr (by omega)⟩, show (_ : ℤ) ≤ 104 by omega⟩

/-! ## Operations on unpacked numbers -/

section Unpacked

variable {u v : UnpackedFloat}

theorem Rounded.of_eq {q q' : ℝ} (h : Rounded q u) (hq : q' = q) : Rounded q' u := hq ▸ h

theorem rounded_self (hu : u.isFinite = true) (hc : Canonical u) : Rounded (real u) u :=
  ⟨hu, hc, Nearest.refl _⟩

theorem rounded_zero (s : Sign) : Rounded 0 (.zero s) := ⟨rfl, trivial, Nearest.refl _⟩

/-- The exponent of a product leaves no bits to add. -/
theorem rounded_mul (hu : u.isFinite = true) (hv : v.isFinite = true) (hcu : Canonical u)
    (hcv : Canonical v) : Rounded (real u * real v) (UnpackedFloat.mul format u v) := by
  cases u with
  | notANumber | infinity => cases hu
  | zero s =>
    cases v with
    | notANumber | infinity => cases hv
    | zero | finite => exact (rounded_zero _).of_eq (zero_mul _)
  | finite s₁ m₁ e₁ h₁ =>
    cases v with
    | notANumber | infinity => cases hv
    | zero => exact (rounded_zero _).of_eq (mul_zero _)
    | finite s₂ m₂ e₂ h₂ =>
      obtain ⟨-, hlow₁, hfull₁⟩ := hcu
      obtain ⟨-, hlow₂, hfull₂⟩ := hcv
      have hexponent : e₁ + e₂ ≤ format.targetExponent (totalExponent (m₁ * m₂) (e₁ + e₂)) := by
        rw [target_eq]
        by_cases hlarge : 2 ^ 23 ≤ m₁ * m₂
        · have := (Nat.le_log2 (by positivity)).mpr hlarge
          omega
        · have hleast₁ := hfull₁.resolve_right fun h =>
            hlarge (h.trans (Nat.le_mul_of_pos_right m₁ h₂))
          have hleast₂ := hfull₂.resolve_right fun h =>
            hlarge (h.trans (Nat.le_mul_of_pos_left m₂ h₁))
          omega
      have hrounded := rounded_roundWithAccuracy (s₁ * s₂) (Represents.exact (m₁ * m₂)) hexponent
      have hproduct : factor (s₁ * s₂) * (((m₁ * m₂ : ℕ) : ℝ) * 2 ^ (e₁ + e₂)) =
          factor s₁ * (m₁ * 2 ^ e₁) * (factor s₂ * (m₂ * 2 ^ e₂)) := by
        rw [factor_mul, zpow_add₀ two_ne_zero]
        push_cast
        ring
      rwa [hproduct] at hrounded

/-- Two numbers on the finer of their grids. -/
theorem apply_decreaseExponent (s : Sign) (m : ℕ) {e t : ℤ} (h : t ≤ e) :
    ((s.apply (decreaseExponent m e t).1 : ℤ) : ℝ) * 2 ^ t = factor s * (m * 2 ^ e) := by
  have hvalue := decreaseExponent_value m e t
  rw [decreaseExponent_exponent h] at hvalue
  rw [cast_apply, mul_assoc]
  push_cast
  rw [hvalue]

theorem rounded_add (hu : u.isFinite = true) (hv : v.isFinite = true) (hcu : Canonical u)
    (hcv : Canonical v) : Rounded (real u + real v) (UnpackedFloat.add format u v) := by
  cases u with
  | notANumber | infinity => cases hu
  | zero s =>
    cases v with
    | notANumber | infinity => cases hv
    | zero t =>
      cases s <;> cases t <;> exact (rounded_zero _).of_eq (add_zero _)
    | finite => exact (rounded_self hv hcv).of_eq (zero_add _)
  | finite s₁ m₁ e₁ h₁ =>
    cases v with
    | notANumber | infinity => cases hv
    | zero => exact (rounded_self hu hcu).of_eq (add_zero _)
    | finite s₂ m₂ e₂ h₂ =>
      have hsum : ((s₁.apply (decreaseExponent m₁ e₁ (min e₁ e₂)).1 +
          s₂.apply (decreaseExponent m₂ e₂ (min e₁ e₂)).1 : ℤ) : ℝ) * 2 ^ min e₁ e₂ =
          factor s₁ * (m₁ * 2 ^ e₁) + factor s₂ * (m₂ * 2 ^ e₂) := by
        rw [Int.cast_add, add_mul, apply_decreaseExponent s₁ m₁ (min_le_left _ _),
          apply_decreaseExponent s₂ m₂ (min_le_right _ _)]
      have hrounded := rounded_normalize (s₁.apply (decreaseExponent m₁ e₁ (min e₁ e₂)).1 +
        s₂.apply (decreaseExponent m₂ e₂ (min e₁ e₂)).1) (min e₁ e₂) .positive
      rwa [hsum] at hrounded

theorem real_neg (u : UnpackedFloat) : real u.neg = -real u := by
  cases u with
  | finite s m e =>
    show factor (-s) * (m * 2 ^ e) = -(factor s * (m * 2 ^ e))
    rw [factor_neg, neg_mul]
  | notANumber | infinity | zero => exact neg_zero.symm

theorem canonical_neg (hc : Canonical u) : Canonical u.neg := by
  cases u <;> exact hc

theorem isFinite_neg (u : UnpackedFloat) : u.neg.isFinite = u.isFinite := by
  cases u <;> rfl

theorem inRange_neg (hr : InRange u) : InRange u.neg := by
  cases u <;> exact hr

theorem real_abs (u : UnpackedFloat) : real u.abs = |real u| := by
  cases u with
  | finite s m e =>
    have hnonneg : 0 ≤ (m : ℝ) * 2 ^ e := by positivity
    cases s <;> simp [UnpackedFloat.abs, real, factor, abs_of_nonneg hnonneg]
  | notANumber | infinity | zero => simp [UnpackedFloat.abs, real]

theorem canonical_abs (hc : Canonical u) : Canonical u.abs := by
  cases u <;> exact hc

theorem isFinite_abs (u : UnpackedFloat) : u.abs.isFinite = u.isFinite := by
  cases u <;> rfl

theorem inRange_abs (hr : InRange u) : InRange u.abs := by
  cases u <;> exact hr

/-- A difference is the sum with the opposite number. -/
theorem sub_eq_add_opposite (hu : u.isFinite = true) (hv : v.isFinite = true) :
    UnpackedFloat.sub format u v = UnpackedFloat.add format u v.neg := by
  cases u with
  | notANumber | infinity => cases hu
  | zero =>
    cases v with
    | notANumber | infinity => cases hv
    | zero | finite => rfl
  | finite =>
    cases v with
    | notANumber | infinity => cases hv
    | zero => rfl
    | finite s₂ =>
      unfold UnpackedFloat.sub UnpackedFloat.add UnpackedFloat.neg
      dsimp only
      rw [apply_neg, Int.sub_eq_add_neg]

theorem rounded_sub (hu : u.isFinite = true) (hv : v.isFinite = true) (hcu : Canonical u)
    (hcv : Canonical v) : Rounded (real u - real v) (UnpackedFloat.sub format u v) := by
  rw [sub_eq_add_opposite hu hv]
  exact (rounded_add hu ((isFinite_neg v).trans hv) hcu (canonical_neg hcv)).of_eq
    (by rw [real_neg, sub_eq_add_neg])

theorem rounded_div (hu : u.isFinite = true) (hv : v.isFinite = true) (hne : real v ≠ 0) :
    Rounded (real u / real v) (UnpackedFloat.div format u v) := by
  cases u with
  | notANumber | infinity => cases hu
  | zero s =>
    cases v with
    | notANumber | infinity => cases hv
    | zero => exact absurd rfl hne
    | finite => exact (rounded_zero _).of_eq (zero_div _)
  | finite s₁ m₁ e₁ h₁ =>
    cases v with
    | notANumber | infinity => cases hv
    | zero => exact absurd rfl hne
    | finite s₂ m₂ e₂ h₂ =>
      have hrounded := rounded_divCore (s₁ / s₂) e₁ e₂ h₁.ne' h₂
      have hquotient : factor (s₁ / s₂) * (m₁ * 2 ^ e₁ / (m₂ * 2 ^ e₂)) =
          factor s₁ * (m₁ * 2 ^ e₁) / (factor s₂ * (m₂ * 2 ^ e₂)) := by
        rw [factor_div, div_mul_div_comm]
      rwa [hquotient] at hrounded

/-! ### Comparison -/

/-- With more exponent, a canonical number is larger. -/
theorem lt_of_exponent_lt {m₁ m₂ : ℕ} {e₁ e₂ : ℤ} {h₁ : 0 < m₁} {h₂ : 0 < m₂} {s t : Sign}
    (hcu : Canonical (.finite s m₁ e₁ h₁)) (hcv : Canonical (.finite t m₂ e₂ h₂)) (he : e₁ < e₂) :
    (m₁ : ℝ) * 2 ^ e₁ < m₂ * 2 ^ e₂ := by
  obtain ⟨hm₁, hlow₁, -⟩ := hcu
  obtain ⟨-, hlow₂, hfull₂⟩ := hcv
  have hm₂ : (2 : ℝ) ^ 23 ≤ m₂ := by exact_mod_cast hfull₂.resolve_left (by omega)
  calc (m₁ : ℝ) * 2 ^ e₁ < 2 ^ 24 * 2 ^ e₁ := by
        have hm : (m₁ : ℝ) < 2 ^ 24 := by exact_mod_cast hm₁
        gcongr
    _ = 2 ^ 23 * 2 ^ (e₁ + 1) := by rw [zpow_add_one₀ two_ne_zero]; ring
    _ ≤ 2 ^ 23 * 2 ^ e₂ := by
        gcongr
        · exact one_le_two
        · omega
    _ ≤ m₂ * 2 ^ e₂ := by gcongr

/-- Magnitudes are compared by exponent first. -/
theorem compares_magnitude {m₁ m₂ : ℕ} {e₁ e₂ : ℤ} {h₁ : 0 < m₁} {h₂ : 0 < m₂} {s t : Sign}
    (hcu : Canonical (.finite s m₁ e₁ h₁)) (hcv : Canonical (.finite t m₂ e₂ h₂)) :
    ((compare e₁ e₂).then (compare m₁ m₂)).Compares ((m₁ : ℝ) * 2 ^ e₁) (m₂ * 2 ^ e₂) := by
  rcases lt_trichotomy e₁ e₂ with he | rfl | he
  · rw [Int.compare_eq_lt.mpr he]
    exact lt_of_exponent_lt hcu hcv he
  · rw [Int.compare_eq_eq.mpr rfl]
    have hpos : (0 : ℝ) < 2 ^ e₁ := by positivity
    rcases lt_trichotomy m₁ m₂ with hm | rfl | hm
    · rw [Nat.compare_eq_lt.mpr hm]
      exact mul_lt_mul_of_pos_right (Nat.cast_lt.mpr hm) hpos
    · rw [Nat.compare_eq_eq.mpr rfl]
      rfl
    · rw [Nat.compare_eq_gt.mpr hm]
      exact mul_lt_mul_of_pos_right (Nat.cast_lt.mpr hm) hpos
  · rw [Int.compare_eq_gt.mpr he]
    exact lt_of_exponent_lt hcv hcu he

theorem real_positive (m : ℕ) (e : ℤ) (hm : 0 < m) :
    real (.finite .positive m e hm) = m * 2 ^ e := one_mul _

theorem real_negative (m : ℕ) (e : ℤ) (hm : 0 < m) :
    real (.finite .negative m e hm) = -(m * 2 ^ e) := neg_one_mul _

/-- **Finite numbers compare as their values do.** -/
theorem compares_real (hu : u.isFinite = true) (hv : v.isFinite = true) (hcu : Canonical u)
    (hcv : Canonical v) : ∃ o, u.compare v = some o ∧ o.Compares (real u) (real v) := by
  have hmagnitude {m : ℕ} (e : ℤ) (hm : 0 < m) : (0 : ℝ) < m * 2 ^ e := by positivity
  cases u with
  | notANumber | infinity => cases hu
  | zero s =>
    cases v with
    | notANumber | infinity => cases hv
    | zero => exact ⟨.eq, rfl, rfl⟩
    | finite t m e hm =>
      cases t with
      | positive =>
        rw [real_positive]
        exact ⟨.lt, rfl, hmagnitude e hm⟩
      | negative =>
        rw [real_negative]
        exact ⟨.gt, rfl, neg_neg_of_pos (hmagnitude e hm)⟩
  | finite s m₁ e₁ h₁ =>
    cases v with
    | notANumber | infinity => cases hv
    | zero =>
      cases s with
      | positive =>
        rw [real_positive]
        exact ⟨.gt, rfl, hmagnitude e₁ h₁⟩
      | negative =>
        rw [real_negative]
        exact ⟨.lt, rfl, neg_neg_of_pos (hmagnitude e₁ h₁)⟩
    | finite t m₂ e₂ h₂ =>
      have hcompares := compares_magnitude hcu hcv
      have hpos₁ := hmagnitude e₁ h₁
      have hpos₂ := hmagnitude e₂ h₂
      cases s <;> cases t <;> simp only [real_positive, real_negative]
      · exact ⟨_, rfl, (show StrictAnti (Neg.neg : ℝ → ℝ) from
          fun _ _ => neg_lt_neg).compares.mpr hcompares.swap⟩
      · exact ⟨.lt, rfl, (neg_neg_of_pos hpos₁).trans hpos₂⟩
      · exact ⟨.gt, rfl, (neg_neg_of_pos hpos₂).trans hpos₁⟩
      · exact ⟨_, rfl, hcompares⟩

end Unpacked

/-! ## Numbers of the machine -/

/-- The real number that a number of the machine is; what is not finite counts as zero. -/
noncomputable def value (x : Float32) : ℝ := real x.toModel.unpack

/-- The infinite number of a sign. -/
def infinity (s : Sign) : Float32 := .ofModel (.pack (.infinity s))

theorem not_isFinite_infinity (s : Sign) : (infinity s).isFinite = false := by
  cases s <;> rfl

theorem isFinite_zero : (0 : Float32).isFinite = true := rfl

theorem isFinite_one : (1 : Float32).isFinite = true := rfl

theorem value_zero : value 0 = 0 := rfl

theorem value_one : value 1 = 1 := by
  show factor .positive * ((8388608 : ℕ) * 2 ^ (-23 : ℤ)) = 1
  norm_num [factor]

theorem canonical (x : Float32) : Canonical x.toModel.unpack := (canonical_unpack _).1

theorem inRange (x : Float32) : InRange x.toModel.unpack := (canonical_unpack _).2

/-- The value is a number of single precision. -/
theorem representable_value (x : Float32) : Representable (value x) := .real (canonical x)

/-- `z` is `q`, rounded once.  What comes out too large is infinite. -/
inductive Rounds (q : ℝ) (z : Float32) : Prop
  | finite (hz : z.isFinite = true) (hnear : Nearest q (value z))
  | infinite (s : Sign) (hz : z = infinity s) {v : ℝ} (hnear : Nearest q v)
      (hlarge : 2 ^ 128 ≤ factor s * v)

/-- A number with a larger exponent is at least `2 ^ 128`. -/
theorem le_of_not_inRange {s : Sign} {m : ℕ} {e : ℤ} {hm : 0 < m}
    (hc : Canonical (.finite s m e hm)) (he : 104 < e) :
    2 ^ 128 ≤ factor s * real (.finite s m e hm) := by
  obtain ⟨-, -, hfull⟩ := hc
  have hm23 : (2 : ℝ) ^ 23 ≤ m := by exact_mod_cast hfull.resolve_left (by omega)
  have he105 : (2 : ℝ) ^ (105 : ℤ) ≤ 2 ^ e := zpow_le_zpow_right₀ one_le_two (by omega)
  have hmagnitude : factor s * real (.finite s m e hm) = m * 2 ^ e := by
    cases s <;> simp [real, factor]
  rw [hmagnitude]
  calc (2 : ℝ) ^ 128 = (2 : ℝ) ^ 23 * (2 : ℝ) ^ (105 : ℤ) := by norm_num
    _ ≤ (m : ℝ) * 2 ^ e := by gcongr

/-- **A rounded number is packed**, if it is in range, and otherwise it becomes infinite. -/
theorem rounds_pack {q : ℝ} {u : UnpackedFloat} (h : Rounded q u) :
    Rounds q (.ofModel (.pack u)) := by
  obtain ⟨hfinite, hc, hnear⟩ := h
  by_cases hr : InRange u
  · have hunpack : (Float32.ofModel (.pack u)).toModel.unpack = u := unpack_pack hc hr
    refine .finite ?_ ?_
    · show (Float32.ofModel (.pack u)).toModel.unpack.isFinite = true
      rwa [hunpack]
    · unfold value
      rwa [hunpack]
  · cases u with
    | notANumber | infinity | zero => exact absurd trivial hr
    | finite s m e hm =>
      have he : 104 < e := not_le.mp hr
      refine .infinite s ?_ hnear (le_of_not_inRange hc he)
      unfold infinity Float32.Model.pack
      simp only [pack_overflow s hm he]

section Machine

variable {x y z : Float32} {q : ℝ}

theorem abs_value_lt (x : Float32) : |value x| < 2 ^ 128 := by
  obtain ⟨hc, hr⟩ := canonical_unpack x.toModel.toBits.toBitVec
  show |real (unpack format x.toModel.toBits.toBitVec)| < 2 ^ 128
  cases hu : unpack format x.toModel.toBits.toBitVec with
  | notANumber | infinity | zero => simp [real]
  | finite s m e hm =>
    rw [hu] at hc hr
    have hm24 : (m : ℝ) < 2 ^ 24 := by exact_mod_cast hc.1
    have he104 : (2 : ℝ) ^ e ≤ 2 ^ (104 : ℤ) := zpow_le_zpow_right₀ one_le_two hr
    have hpos : (0 : ℝ) < m * 2 ^ e := by positivity
    have hmagnitude : |real (.finite s m e hm)| = m * 2 ^ e := by
      cases s <;> simp [real, factor, abs_of_pos hpos]
    rw [hmagnitude]
    calc (m : ℝ) * 2 ^ e < 2 ^ 24 * 2 ^ e := by gcongr
      _ ≤ 2 ^ 24 * 2 ^ (104 : ℤ) := by gcongr
      _ = 2 ^ 128 := by norm_num

/-! ### Rounded results -/

namespace Rounds

theorem nearest (h : Rounds q z) (hz : z.isFinite = true) : Nearest q (value z) := by
  cases h with
  | finite _ hnear => exact hnear
  | infinite s hinfinite =>
    rw [hinfinite, not_isFinite_infinity] at hz
    cases hz

theorem isFinite_or (h : Rounds q z) : z.isFinite = true ∨ ∃ s, z = infinity s := by
  cases h with
  | finite hz => exact .inl hz
  | infinite s hz => exact .inr ⟨s, hz⟩

/-- What is between two numbers of single precision stays there. -/
theorem mem_of_mem (h : Rounds q z) {a b : ℝ} (ha : Representable a) (hb : Representable b)
    (hmin : -2 ^ 128 < a) (hmax : b < 2 ^ 128) (haq : a ≤ q) (hqb : q ≤ b) :
    z.isFinite = true ∧ a ≤ value z ∧ value z ≤ b := by
  cases h with
  | finite hz hnear => exact ⟨hz, hnear.le_of_le ha haq, hnear.ge_of_ge hb hqb⟩
  | infinite s _ hnear hlarge =>
    exfalso
    have hlow := hnear.le_of_le ha haq
    have hhigh := hnear.ge_of_ge hb hqb
    cases s <;> simp only [factor] at hlarge <;> linarith

/-- What is not negative does not become so. -/
theorem isFinite_or_eq_infinity (h : Rounds q z) (hq : 0 ≤ q) :
    z.isFinite = true ∨ z = infinity .positive := by
  cases h with
  | finite hz => exact .inl hz
  | infinite s hz hnear hlarge =>
    have hnonneg := hnear.le_of_le representable_zero hq
    cases s with
    | positive => exact .inr hz
    | negative =>
      simp only [factor] at hlarge
      linarith [show (0 : ℝ) < 2 ^ 128 by norm_num]

/-- **What is a number of single precision is not rounded.** -/
theorem exact (h : Rounds q z) (hq : Representable q) (hlt : |q| < 2 ^ 128) :
    z.isFinite = true ∧ value z = q := by
  obtain ⟨hmin, hmax⟩ := abs_lt.mp hlt
  obtain ⟨hz, hlow, hhigh⟩ := h.mem_of_mem hq hq hmin hmax le_rfl le_rfl
  exact ⟨hz, le_antisymm hhigh hlow⟩

/-- A result that is a number of the machine is exact. -/
theorem eq_value (h : Rounds (value x) z) : z.isFinite = true ∧ value z = value x :=
  h.exact (representable_value x) (abs_value_lt x)

end Rounds

/-! ### Operations -/

theorem rounds_mul (hx : x.isFinite = true) (hy : y.isFinite = true) :
    Rounds (value x * value y) (x * y) :=
  rounds_pack (rounded_mul hx hy (canonical x) (canonical y))

theorem rounds_add (hx : x.isFinite = true) (hy : y.isFinite = true) :
    Rounds (value x + value y) (x + y) :=
  rounds_pack (rounded_add hx hy (canonical x) (canonical y))

theorem rounds_sub (hx : x.isFinite = true) (hy : y.isFinite = true) :
    Rounds (value x - value y) (x - y) :=
  rounds_pack (rounded_sub hx hy (canonical x) (canonical y))

theorem rounds_div (hx : x.isFinite = true) (hy : y.isFinite = true) (hne : value y ≠ 0) :
    Rounds (value x / value y) (x / y) :=
  rounds_pack (rounded_div hx hy hne)

theorem unpack_infinity (s : Sign) : (infinity s).toModel.unpack = .infinity s :=
  unpack_packedInfinity s

/-- A finite number other than zero times an infinite one is infinite. -/
theorem mul_infinity (hx : x.isFinite = true) (hne : value x ≠ 0) {s : Sign}
    (hy : y.toModel.unpack = .infinity s) : ∃ t, x * y = infinity t := by
  obtain ⟨t, ht⟩ : ∃ t, UnpackedFloat.mul format x.toModel.unpack (.infinity s) = .infinity t := by
    change x.toModel.unpack.isFinite = true at hx
    unfold value at hne
    cases hu : x.toModel.unpack with
    | notANumber | infinity => rw [hu] at hx; cases hx
    | zero => rw [hu] at hne; exact absurd rfl hne
    | finite t => exact ⟨t * s, rfl⟩
  refine ⟨t, ?_⟩
  show Float32.ofModel (.pack (UnpackedFloat.mul format x.toModel.unpack y.toModel.unpack)) = _
  rw [hy, ht]
  rfl

/-- A finite number divided by an infinite one is zero. -/
theorem div_infinity (hx : x.isFinite = true) (s : Sign) :
    (x / infinity s).isFinite = true ∧ value (x / infinity s) = 0 := by
  obtain ⟨t, ht⟩ : ∃ t, UnpackedFloat.div format x.toModel.unpack (.infinity s) = .zero t := by
    change x.toModel.unpack.isFinite = true at hx
    cases hu : x.toModel.unpack with
    | notANumber | infinity => rw [hu] at hx; cases hx
    | zero t | finite t => exact ⟨t / s, rfl⟩
  have hquotient : x / infinity s = .ofModel (.pack (.zero t)) := by
    show Float32.ofModel (.pack (UnpackedFloat.div format x.toModel.unpack
      (infinity s).toModel.unpack)) = _
    rw [unpack_infinity, ht]
  rw [hquotient]
  obtain ⟨hfinite, hlow, hhigh⟩ := (rounds_pack (rounded_zero t)).mem_of_mem representable_zero
    representable_zero (by norm_num) (by norm_num) le_rfl le_rfl
  exact ⟨hfinite, le_antisymm hhigh hlow⟩

theorem rounds_toFloat32 (n : UInt32) : Rounds n.toNat n.toFloat32 := by
  have h : Rounds (((n.toNat : ℤ) : ℝ) * 2 ^ (0 : ℤ)) n.toFloat32 :=
    rounds_pack (rounded_normalize n.toNat 0 .positive)
  simpa using h

theorem unpack_neg (x : Float32) : (-x).toModel.unpack = x.toModel.unpack.neg :=
  unpack_pack (canonical_neg (canonical x)) (inRange_neg (inRange x))

theorem unpack_abs (x : Float32) : x.abs.toModel.unpack = x.toModel.unpack.abs :=
  unpack_pack (canonical_abs (canonical x)) (inRange_abs (inRange x))

/-- Negation is exact. -/
theorem neg_spec (hx : x.isFinite = true) : (-x).isFinite = true ∧ value (-x) = -value x := by
  constructor
  · show (-x).toModel.unpack.isFinite = true
    rw [unpack_neg, isFinite_neg]
    exact hx
  · unfold value
    rw [unpack_neg, real_neg]

/-- The magnitude is exact. -/
theorem abs_spec (hx : x.isFinite = true) : x.abs.isFinite = true ∧ value x.abs = |value x| := by
  constructor
  · show x.abs.toModel.unpack.isFinite = true
    rw [unpack_abs, isFinite_abs]
    exact hx
  · unfold value
    rw [unpack_abs, real_abs]

/-! ### Comparison -/

theorem le_iff (hx : x.isFinite = true) (hy : y.isFinite = true) :
    x ≤ y ↔ value x ≤ value y := by
  obtain ⟨o, ho, hcompares⟩ := compares_real hx hy (canonical x) (canonical y)
  have hle : x ≤ y ↔ o.isLE = true := by
    show decide ((x.toModel.unpack.compare y.toModel.unpack).any (·.isLE) = true) = true ↔ _
    rw [ho, decide_eq_true_iff]
    rfl
  show x ≤ y ↔ real x.toModel.unpack ≤ real y.toModel.unpack
  rw [hle, ← hcompares.ne_gt]
  cases o <;> decide

theorem lt_iff (hx : x.isFinite = true) (hy : y.isFinite = true) :
    x < y ↔ value x < value y := by
  obtain ⟨o, ho, hcompares⟩ := compares_real hx hy (canonical x) (canonical y)
  have hlt : x < y ↔ (some o == some .lt) = true := by
    show decide ((x.toModel.unpack.compare y.toModel.unpack == some .lt) = true) = true ↔ _
    rw [ho, decide_eq_true_iff]
  show x < y ↔ real x.toModel.unpack < real y.toModel.unpack
  rw [hlt, ← hcompares.eq_lt]
  cases o <;> decide

/-- What is not below a finite number is finite or positive infinity. -/
theorem finite_or_infinite_of_le (hx : x.isFinite = true) (h : x ≤ y) :
    y.isFinite = true ∧ value x ≤ value y ∨ y.toModel.unpack = .infinity .positive := by
  by_cases hy : y.isFinite = true
  · exact .inl ⟨hy, (le_iff hx hy).mp h⟩
  · right
    change ¬y.toModel.unpack.isFinite = true at hy
    change x.toModel.unpack.isFinite = true at hx
    change decide ((x.toModel.unpack.compare y.toModel.unpack).any (·.isLE) = true) = true at h
    rw [decide_eq_true_iff] at h
    generalize x.toModel.unpack = u at hx h
    generalize y.toModel.unpack = v at hy h ⊢
    cases v with
    | infinity s =>
      cases s with
      | positive => rfl
      | negative =>
        cases u with
        | notANumber | infinity => cases hx
        | zero | finite => cases h
    | notANumber => cases u <;> cases h
    | zero | finite => exact absurd rfl hy

end Machine

/-! ## Integer parts -/

/-- The integer part of a magnitude, with its sign. -/
theorem roundToInt_eq (s : Sign) (m : ℕ) (e : ℤ) :
    roundToInt s m e = s.apply ⌊(m : ℝ) * 2 ^ e⌋₊ := by
  have hvalue := decreaseExponent_value m e 0
  have hexponent : (decreaseExponent m e 0).2 ≤ 0 := by
    unfold decreaseExponent
    dsimp only
    omega
  unfold roundToInt shiftToExponent
  dsimp only
  rw [mantissa_shiftRight, mantissa_ofMantissaAndAccuracy, ← hvalue]
  generalize decreaseExponent m e 0 = d at hexponent
  obtain ⟨n, hn⟩ := Int.le.dest hexponent
  have hinverse : (2 : ℝ) ^ d.2 = ((2 ^ n : ℕ) : ℝ)⁻¹ := by
    rw [show d.2 = -n by omega, zpow_neg, zpow_natCast]
    push_cast
    rfl
  have hshift : (0 - d.2).toNat = n := by omega
  rw [hinverse, hshift, ← div_eq_mul_inv, Nat.floor_div_eq_div]

/-- **The conversion to an unsigned word takes the integer part**, held in the range of a word. -/
theorem toNat_toUInt32_eq_min {x : Float32} (hx : x.isFinite = true) (hpos : 0 ≤ value x) :
    x.toUInt32.toNat = min ⌊value x⌋₊ (2 ^ 32 - 1) := by
  have hint : x.toModel.unpack.toInt 0 (UInt32.size - 1) = ⌊value x⌋₊ := by
    unfold value at hpos ⊢
    change x.toModel.unpack.isFinite = true at hx
    cases hu : x.toModel.unpack with
    | notANumber | infinity => rw [hu] at hx; cases hx
    | zero => simp [UnpackedFloat.toInt, real]
    | finite s m e hm =>
      cases s with
      | positive =>
        rw [real_positive]
        exact roundToInt_eq .positive m e
      | negative =>
        rw [hu, real_negative] at hpos
        have : (0 : ℝ) < m * 2 ^ e := by positivity
        linarith
  show (UInt32.ofNatClamp (x.toModel.unpack.toInt 0 (UInt32.size - 1)).toNat).toNat = _
  rw [hint, Int.toNat_natCast]
  unfold UInt32.ofNatClamp
  split
  · next hlt => exact (min_eq_left (Nat.le_pred_of_lt hlt)).symm
  · next hge => exact (min_eq_right ((Nat.pred_le _).trans (not_lt.mp hge))).symm

/-- What is in the range of a word is not held. -/
theorem toNat_toUInt32 {x : Float32} (hx : x.isFinite = true) (hpos : 0 ≤ value x)
    (hlt : value x < 2 ^ 32) : x.toUInt32.toNat = ⌊value x⌋₊ := by
  have hfloor : ⌊value x⌋₊ < 2 ^ 32 := by
    rw [Nat.floor_lt hpos]
    exact_mod_cast hlt
  rw [toNat_toUInt32_eq_min hx hpos]
  exact min_eq_left (Nat.le_pred_of_lt hfloor)

end DuplexAudio.Binary32
