/-
  From a sample to its level and back.

  A sample is multiplied by one step, which gives its level, and the level by full scale, which
  gives the sample back, without what is then after its point.  One step is a little less than one
  over full scale, and both products are rounded.  If the second one came out below the sample by
  ever so little, a whole unit would be lost.  It does not (`ofLevel_toLevel`):

  1. A sample `k` has all twenty-four bits on some grid: `k = 2m / 2 ^ (j + 1)`, with `m` from
     `2 ^ 22` to `2 ^ 23` (`exists_mantissa`).  On that grid its level would be one over full scale
     too large by `2m / 2 ^ 23` steps, which is between one and two.  So it is rounded to one step
     above `k / 2 ^ 23` or to two, and full scale takes the `2m / 2 ^ 23` steps off again.  What is
     left is less than half a step away from `k` (`product_bounds`), and is rounded to `k` or more.

  2. That leaves the samples whose levels lie midway between two numbers, `3 * 2 ^ i`.  They come
     back because the tie goes to the even one of the two, and they are so few that they are
     computed (`ofLevel_toLevel_tie`).
-/
import DuplexAudio.Proofs.Signal.Levels

namespace DuplexAudio

open Binary32
open Float.Model.UnpackedFloat (Sign)

/-! ## Two products -/

/-- A sample on the grid on which it has all its bits. -/
theorem exists_mantissa {k : ℕ} (h0 : 0 < k) (h : k < 2 ^ 23) :
    ∃ m j : ℕ, k * 2 ^ j = m ∧ 2 ^ 22 < m ∧ m ≤ 2 ^ 23 ∧ j ≤ 23 := by
  have hle : k ≤ 2 ^ Nat.clog 2 k := Nat.le_pow_clog one_lt_two k
  have hclog : Nat.clog 2 k ≤ 23 := Nat.clog_le_of_le_pow h.le
  obtain ⟨j, hj⟩ := Nat.exists_eq_add_of_le hclog
  refine ⟨k * 2 ^ j, j, rfl, ?_, ?_, by omega⟩
  · rcases Nat.lt_or_ge 1 k with hone | hone
    · have hlt := Nat.pow_pred_clog_lt_self one_lt_two hone
      have hpos := Nat.clog_pos one_lt_two hone
      calc 2 ^ 22 = 2 ^ (Nat.clog 2 k).pred * 2 ^ j := by
            rw [← pow_add, Nat.pred_eq_sub_one]
            congr 1
            omega
        _ < k * 2 ^ j := Nat.mul_lt_mul_of_pos_right hlt (by positivity)
    · obtain rfl : k = 1 := by omega
      rw [Nat.clog_one_right] at hj
      rw [← show 23 = j by omega]
      norm_num
  · calc k * 2 ^ j ≤ 2 ^ Nat.clog 2 k * 2 ^ j := Nat.mul_le_mul_right _ hle
      _ = 2 ^ 23 := by rw [← pow_add, ← hj]

section Products

variable {k m j : ℕ} {x X : ℝ}

theorem cast_eq_on_grid (hk : k * 2 ^ j = m) : (k : ℝ) = 2 * m * 2 ^ (-(j + 1) : ℤ) := by
  rw [← hk, neg_add, zpow_add₀ two_ne_zero, zpow_neg, zpow_natCast]
  push_cast
  field_simp

/-- In steps of the grid: the level is `2m + 2m / 2 ^ 23`, rounded to one step above `2m` or to two,
whichever is nearer, and full scale takes off `2m / 2 ^ 23` and hardly more. -/
theorem scaled_bounds (hm : 2 ^ 22 < m) (hm' : m ≤ 2 ^ 23) (htie : m ≠ 3 * 2 ^ 21)
    (hone : m < 3 * 2 ^ 21 →
      |X - (2 * m + 2 * m / 2 ^ 23)| ≤ |(2 * m + 1 : ℝ) - (2 * m + 2 * m / 2 ^ 23)|)
    (htwo : |X - (2 * m + 2 * m / 2 ^ 23)| ≤ |(2 * m + 2 : ℝ) - (2 * m + 2 * m / 2 ^ 23)|) :
    2 * m - 1 / 2 < X * (8388607 / 2 ^ 23) ∧ X * (8388607 / 2 ^ 23) ≤ 2 * m + 1 := by
  have hlow : (2 ^ 22 + 1 : ℝ) ≤ m := by exact_mod_cast hm
  have hhigh : (m : ℝ) ≤ 2 ^ 23 := by exact_mod_cast hm'
  rcases lt_or_gt_of_ne htie with hless | hmore
  · have hless' : (m : ℝ) ≤ 3 * 2 ^ 21 - 1 := by
      have : m + 1 ≤ 3 * 2 ^ 21 := hless
      have : (m : ℝ) + 1 ≤ 3 * 2 ^ 21 := by exact_mod_cast this
      linarith
    have hnear := hone hless
    rw [abs_of_nonpos (a := 2 * (m : ℝ) + 1 - _) (by linarith), abs_le] at hnear
    constructor <;> linarith
  · have hmore' : (3 * 2 ^ 21 + 1 : ℝ) ≤ m := by exact_mod_cast hmore
    rw [abs_of_nonneg (a := 2 * (m : ℝ) + 2 - _) (by linarith), abs_le] at htwo
    constructor <;> linarith

/-- **The product of the level and full scale** is less than half a step below the sample, and not
far above it. -/
theorem product_bounds (hk : k * 2 ^ j = m) (hm : 2 ^ 22 < m) (hm' : m ≤ 2 ^ 23) (hj : j ≤ 23)
    (htie : m ≠ 3 * 2 ^ 21) (hx : Nearest (k * value levelStep) x) :
    (2 * m - 1 / 2) * 2 ^ (-(j + 1) : ℤ) < x * 8388607 ∧ x * 8388607 ≤ k + 1 / 2 := by
  obtain ⟨u, hu⟩ : ∃ u : ℝ, u = 2 ^ (-(j + 1) : ℤ) := ⟨_, rfl⟩
  have hpos : 0 < u := by
    rw [hu]
    positivity
  have hhalf : u ≤ 1 / 2 := by
    rw [hu, one_div, ← zpow_neg_one]
    exact zpow_le_zpow_right₀ one_le_two (by omega)
  have hkscaled : (k : ℝ) = 2 * m * u := hu ▸ cast_eq_on_grid hk
  have hlevel : k * value levelStep = (2 * m + 2 * m / 2 ^ 23) * (u / 2 ^ 23) := by
    rw [hkscaled, value_levelStep]
    ring
  obtain ⟨X, rfl⟩ : ∃ X, x = X * (u / 2 ^ 23) := ⟨x / (u / 2 ^ 23), by field_simp⟩
  rw [hlevel] at hx
  -- what is nearest, in steps of the grid
  have hnear {c : ℝ} (hc : Representable (c * (u / 2 ^ 23))) :
      |X - (2 * m + 2 * m / 2 ^ 23)| ≤ |c - (2 * m + 2 * m / 2 ^ 23)| := by
    have hscaled := hx _ hc
    rw [← sub_mul, ← sub_mul, abs_mul, abs_mul] at hscaled
    exact le_of_mul_le_mul_right hscaled (abs_pos.mpr (by positivity))
  have hone (hless : m < 3 * 2 ^ 21) : Representable ((2 * m + 1) * (u / 2 ^ 23)) := by
    have hgrid : u / 2 ^ 23 = 2 ^ (-(j + 1) - 23 : ℤ) := by
      rw [hu, zpow_sub₀ two_ne_zero]
      norm_num
    rw [hgrid]
    exact_mod_cast representable_of_le (m := 2 * m + 1) (e := -(j + 1) - 23) (by omega) (by omega)
      (by omega)
  have htwo : Representable ((2 * m + 2) * (u / 2 ^ 23)) := by
    have hgrid : (2 * m + 2) * (u / 2 ^ 23) = (m + 1) * (2 : ℝ) ^ (-(j + 1) - 22 : ℤ) := by
      rw [hu, zpow_sub₀ two_ne_zero]
      norm_num
      ring
    rw [hgrid]
    exact_mod_cast representable_of_le (m := m + 1) (e := -(j + 1) - 22) (by omega) (by omega)
      (by omega)
  obtain ⟨hlow, hhigh⟩ := scaled_bounds hm hm' htie (fun hless => hnear (hone hless)) (hnear htwo)
  have hproduct : X * (u / 2 ^ 23) * 8388607 = X * (8388607 / 2 ^ 23) * u := by ring
  rw [← hu, hproduct, hkscaled]
  constructor
  · exact mul_lt_mul_of_pos_right hlow hpos
  · calc X * (8388607 / 2 ^ 23) * u ≤ (2 * m + 1) * u := mul_le_mul_of_nonneg_right hhigh hpos.le
      _ ≤ 2 * m * u + 1 / 2 := by linarith

/-- **The sample comes back** as the integer part of the rounded product. -/
theorem floor_product {y : ℝ} (h0 : 0 < k) (hk : k < 2 ^ 23) (htie : ∀ i, k ≠ 3 * 2 ^ i)
    (hx : Nearest (k * value levelStep) x) (hy : Nearest (x * 8388607) y)
    (hyr : Representable y) : ⌊y⌋₊ = k := by
  obtain ⟨m, j, hgrid, hm, hm', hj⟩ := exists_mantissa h0 hk
  have hmtie : m ≠ 3 * 2 ^ 21 := by
    rintro rfl
    obtain ⟨i, hi⟩ : ∃ i, 21 = i + j := by
      refine ⟨21 - j, (Nat.sub_add_cancel ?_).symm⟩
      by_contra hlarge
      obtain ⟨n, rfl⟩ := Nat.exists_eq_add_of_le (show 22 ≤ j by omega)
      have heven : 2 ^ 22 ∣ 3 * 2 ^ 21 := ⟨k * 2 ^ n, by rw [← hgrid]; ring⟩
      exact absurd heven (by norm_num)
    refine htie i (Nat.eq_of_mul_eq_mul_right (show 0 < 2 ^ j by positivity) ?_)
    rw [hgrid, mul_assoc, ← pow_add, ← hi]
  obtain ⟨hlow, hhigh⟩ := product_bounds hgrid hm hm' hj hmtie hx
  have hle : (k : ℝ) ≤ y := by
    rw [cast_eq_on_grid hgrid]
    exact_mod_cast hy.le_of_near hyr (m := 2 * m) (e := -(j + 1)) (by omega) (by omega) (by omega)
      (by exact_mod_cast hlow)
  have hmiddle : Representable (k + 1 / 2) := by
    refine ⟨2 * k + 1, -1, ?_, by norm_num, ?_⟩
    · rw [abs_of_pos (by omega)]
      omega
    · push_cast
      ring
  have hlt := hy.ge_of_ge hmiddle hhigh
  exact (Nat.floor_eq_iff (by linarith [Nat.cast_nonneg (α := ℝ) k])).mpr ⟨hle, by linarith⟩

end Products

/-! ## Samples -/

/-- A tie goes to the even neighbour, which is the one that brings the sample back. -/
theorem ofLevel_toLevel_tie (s : Sign) (i : Fin 22) :
    ofLevel (toLevel (Int32.ofInt (s.apply (3 * 2 ^ i.val)))) =
      Int32.ofInt (s.apply (3 * 2 ^ i.val)) := by
  revert i
  cases s <;> decide +kernel

/-- What is in the range of a sample stays as it is. -/
theorem toSampleRange_of_mem {v : Int32} (h : |v.toInt| < 2 ^ 23) : toSampleRange v = v := by
  obtain ⟨hmin, hmax⟩ := abs_lt.mp h
  apply Int32.toInt.inj
  rw [toInt_toSampleRange]
  omega

/-- The level of a sample is the exact product, rounded once. -/
theorem nearest_toLevel {v : Int32} (h : |v.toInt| < 2 ^ 23) :
    Nearest (v.toInt * value levelStep) (value (toLevel v)) := by
  obtain ⟨hfinite, hrounds⟩ := toLevel_spec v
  have hexact : value (wordToFloat v) = v.toInt := by
    have hword : Representable v.toInt :=
      ⟨v.toInt, 0, h.trans (by norm_num), by norm_num, by norm_num⟩
    have hzero := (wordToFloat_spec v).2 _ hword
    rw [sub_self, abs_zero] at hzero
    exact sub_eq_zero.mp (abs_nonpos_iff.mp hzero)
  rw [← hexact]
  exact hrounds.nearest hfinite

/-- **A sample that is converted to a level and back is the same sample.** -/
theorem ofLevel_toLevel {v : Int32} (h : |v.toInt| < 2 ^ 23) : ofLevel (toLevel v) = v := by
  by_cases hzero : v = 0
  · rw [hzero]
    decide
  -- the magnitude and the sign of the sample
  obtain ⟨s, hs⟩ := exists_sign hzero
  obtain ⟨k, hk⟩ := Int.eq_ofNat_of_zero_le (by omega : 0 ≤ s.apply v.toInt)
  have hv : s.apply k = v.toInt := by
    rw [← hk]
    cases s <;> simp [Sign.apply]
  have hk0 : 0 < k := by omega
  have hk23 : k < 2 ^ 23 := by
    have habs : |v.toInt| = k := by
      rw [← hv]
      cases s <;> simp [Sign.apply]
    omega
  by_cases htie : ∃ i, k = 3 * 2 ^ i
  · obtain ⟨i, hi⟩ := htie
    have hi22 : i < 22 := by
      have hpower : 2 ^ i < 2 ^ 22 := by omega
      exact (Nat.pow_lt_pow_iff_right (by norm_num)).mp hpower
    have hword : Int32.ofInt (s.apply (3 * 2 ^ i)) = v := by
      rw [← Int32.ofInt_toInt v, ← hv, hi]
      push_cast
      rfl
    have hback := ofLevel_toLevel_tie s ⟨i, hi22⟩
    rwa [hword] at hback
  · obtain ⟨hfinite, -⟩ := toLevel_spec v
    have hle : |value (toLevel v)| ≤ 2 := by
      obtain ⟨hmin, hmax⟩ := abs_lt.mp h
      refine (abs_toLevel_le hmin.le hmax.le).trans ?_
      norm_num
    obtain ⟨y, w, hnear, hy, hw, hpart⟩ := ofLevel_spec hfinite hle
    have hmagnitude : (k : ℝ) = factor s * v.toInt := by
      rw [← cast_apply, hk]
      rfl
    have hx : Nearest (k * value levelStep) (factor s * value (toLevel v)) := by
      rw [hmagnitude, mul_assoc]
      exact (nearest_toLevel h).factor_mul s
    have hy' : Nearest (factor s * value (toLevel v) * 8388607) (factor s * y) := by
      rw [mul_assoc]
      exact hnear.factor_mul s
    have hfloor := floor_product hk0 hk23 (not_exists.mp htie) hx hy' (hy.factor_mul s)
    have hpos : 0 < factor s * y := Nat.pos_of_floor_pos (hfloor ▸ hk0)
    have hwv : w = v := by
      apply Int32.toInt.inj
      rw [hpart s hpos, hfloor, hv]
    rw [hw, hwv, toSampleRange_of_mem h]

end DuplexAudio
