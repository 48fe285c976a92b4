/-
  Rounding to single precision.

  A number is rounded by dropping bits of its mantissa down to the exponent that its magnitude asks
  for, and the dropped bits are remembered as a round bit and a sticky bit.

  1. `Represents em x`: the mantissa and its two bits say where `x` lies.  Dropping a bit halves `x`
     (`Represents.shiftRight`), and the rounded mantissa is never further than one half from it
     (`Represents.near`).

  2. `Nearest q v`: no number of single precision, its range set aside, is nearer to `q` than `v`.
     The rounded mantissa on its grid is such a `v` (`nearest_of_near`): a number on a finer grid
     is so small that the least one with all bits on the coarser grid is nearer.

  3. `rounded_roundWithAccuracy` puts this together, with the carry that may take the rounded
     mantissa to one bit more.  Sums and converted integers reach the rounding by way of
     `rounded_normalize`.

  What bounds hold before rounding, and are numbers of single precision, hold after it
  (`Nearest.le_of_le`, `Nearest.ge_of_ge`).
-/
import Mathlib

namespace DuplexAudio.Binary32

open Float.Model (Format UnpackedFloat totalExponent)
open Float.Model.UnpackedFloat

/-- The format of single precision. -/
abbrev format : Format := Format.binary32

/-! ## The mantissa and the bits that were dropped -/

/-- A mantissa with its two bits says where a number lies. -/
def Represents (em : ExtendedMantissa) (x : ℝ) : Prop :=
  match em.roundBit, em.stickyBit with
  | false, false => x = em.mantissa
  | false, true => em.mantissa < x ∧ x < em.mantissa + 1 / 2
  | true, false => x = em.mantissa + 1 / 2
  | true, true => em.mantissa + 1 / 2 < x ∧ x < em.mantissa + 1

namespace Represents

variable {em : ExtendedMantissa} {x : ℝ}

theorem exact (m : ℕ) : Represents (.ofMantissaAndAccuracy m .exact) m := rfl

theorem le (h : Represents em x) : em.mantissa ≤ x := by
  obtain ⟨m, r, s⟩ := em
  cases r <;> cases s <;> simp only [Represents] at h <;> linarith

/-- **One bit less.**  The bit that is dropped becomes the round bit, and the round bit before it
joins the sticky bit. -/
theorem shiftRightOne (h : Represents em x) : Represents em.shiftRightOne (x / 2) := by
  obtain ⟨m, r, s⟩ := em
  have hm : (m : ℝ) = 2 * (m / 2 : ℕ) + (m % 2 : ℕ) := by exact_mod_cast (Nat.div_add_mod m 2).symm
  unfold ExtendedMantissa.shiftRightOne
  rcases Nat.mod_two_eq_zero_or_one m with hbit | hbit <;> rw [hbit] at hm ⊢ <;>
    cases r <;> cases s <;> simp [Represents] at h hm ⊢ <;>
    first | linarith | (constructor <;> linarith)

/-- Induction on the bits that are dropped. -/
theorem shiftRight (h : Represents em x) (n : ℕ) : Represents (em >>> n) (x / 2 ^ n) := by
  show Represents (n.repeat ExtendedMantissa.shiftRightOne em) (x / 2 ^ n)
  induction n with
  | zero => simpa [Nat.repeat] using h
  | succ n ih =>
    rw [pow_succ, ← div_div]
    exact ih.shiftRightOne

/-- **The rounded mantissa is at most one half away.** -/
theorem near (h : Represents em x) : |(em.roundedMantissa : ℝ) - x| ≤ 1 / 2 := by
  obtain ⟨m, r, s⟩ := em
  unfold ExtendedMantissa.roundedMantissa ExtendedMantissa.accuracy
  rw [abs_le]
  cases r <;> cases s <;> simp [Represents, Accuracy.roundToNearestEven] at h ⊢
  · exact h.symm ▸ by norm_num
  · constructor <;> linarith
  · -- a tie goes to the even neighbour, either of which is one half away
    rcases Nat.mod_two_eq_zero_or_one m with hbit | hbit <;> rw [hbit] <;> norm_num <;>
      constructor <;> linarith
  · constructor <;> linarith

end Represents

theorem mantissa_shiftRight (em : ExtendedMantissa) (n : ℕ) :
    (em >>> n).mantissa = em.mantissa / 2 ^ n := by
  show (n.repeat ExtendedMantissa.shiftRightOne em).mantissa = em.mantissa / 2 ^ n
  induction n with
  | zero => simp [Nat.repeat]
  | succ n ih =>
    show (n.repeat ExtendedMantissa.shiftRightOne em).mantissa / 2 = _
    rw [ih, Nat.div_div_eq_div_mul, pow_succ]

/-! ## The nearest number of single precision -/

/-- A number of single precision, its range set aside: at most twenty-four bits, and no bit below
the least one that there is. -/
def Representable (c : ℝ) : Prop := ∃ m e : ℤ, |m| < 2 ^ 24 ∧ -149 ≤ e ∧ c = m * 2 ^ e

theorem Representable.neg {c : ℝ} (h : Representable c) : Representable (-c) := by
  obtain ⟨m, e, hm, he, rfl⟩ := h
  exact ⟨-m, e, by rwa [abs_neg], he, by push_cast; ring⟩

theorem representable_zero : Representable 0 := ⟨0, 0, by norm_num, by norm_num, by norm_num⟩

theorem representable_one : Representable 1 := ⟨1, 0, by norm_num, by norm_num, by norm_num⟩

/-- No number of single precision is nearer to `q`. -/
def Nearest (q v : ℝ) : Prop := ∀ c, Representable c → |v - q| ≤ |c - q|

namespace Nearest

variable {q v c : ℝ}

theorem refl (q : ℝ) : Nearest q q := fun c _ => by simp

theorem neg (h : Nearest q v) : Nearest (-q) (-v) := fun c hc => by
  have hnear := h (-c) hc.neg
  rw [neg_sub_neg, abs_sub_comm]
  rw [show c - -q = -(-c - q) by ring, abs_neg]
  exact hnear

/-- A lower bound of single precision holds after rounding. -/
theorem le_of_le (h : Nearest q v) (hc : Representable c) (hle : c ≤ q) : c ≤ v := by
  by_contra hlt
  rw [not_le] at hlt
  have hnear := h c hc
  rw [abs_of_nonpos (by linarith), abs_of_nonpos (by linarith)] at hnear
  linarith

/-- An upper bound of single precision holds after rounding. -/
theorem ge_of_ge (h : Nearest q v) (hc : Representable c) (hle : q ≤ c) : v ≤ c := by
  by_contra hlt
  rw [not_le] at hlt
  have hnear := h c hc
  rw [abs_of_nonneg (by linarith), abs_of_nonneg (by linarith)] at hnear
  linarith

end Nearest

/-! ### Grids -/

/-- What is on a grid is on every finer one. -/
theorem exists_multiple (k : ℤ) {e f : ℤ} (h : e ≤ f) : ∃ n : ℤ, (k : ℝ) * 2 ^ f = n * 2 ^ e := by
  obtain ⟨j, rfl⟩ := Int.le.dest h
  refine ⟨k * 2 ^ j, ?_⟩
  rw [zpow_add₀ two_ne_zero, zpow_natCast]
  push_cast
  ring

/-- A number has no bits below the grid on which it has twenty-four or more of them. -/
theorem Representable.exists_grid {c : ℝ} (h : Representable c) {t : ℤ} (hc : 2 ^ (t + 23) ≤ c) :
    ∃ n : ℤ, c = n * 2 ^ t := by
  obtain ⟨m, e, hm, -, rfl⟩ := h
  refine exists_multiple m (not_lt.mp fun hlt => not_lt.mpr hc ?_)
  have hm24 : (m : ℝ) < 2 ^ 24 := by exact_mod_cast lt_of_abs_lt hm
  calc (m : ℝ) * 2 ^ e < 2 ^ 24 * 2 ^ e := by gcongr
    _ ≤ 2 ^ 24 * 2 ^ (t - 1) := by
        gcongr
        · exact one_le_two
        · omega
    _ = 2 ^ (t + 23) := by
        rw [zpow_sub_one₀ two_ne_zero, zpow_add₀ two_ne_zero]
        norm_num
        ring

/-! ### Neighbours -/

/-- **The number before.**  Below a number with all its bits the next one is a step of its grid
away.  Only below the least of these, which is left out, the grid is finer. -/
theorem Representable.le_of_lt {v : ℝ} {m e : ℤ} (h : Representable v) (hm : 2 ^ 23 < m)
    (hlt : v < m * 2 ^ e) : v ≤ (m - 1) * 2 ^ e := by
  obtain ⟨k, f, hk, -, rfl⟩ := h
  have hpos : (0 : ℝ) < 2 ^ e := by positivity
  rcases le_or_gt e f with hle | hgt
  · -- it is a multiple of the step
    obtain ⟨n, hmultiple⟩ := exists_multiple k hle
    rw [hmultiple] at hlt ⊢
    have hbelow : n ≤ m - 1 := by
      have : n < m := by exact_mod_cast lt_of_mul_lt_mul_right hlt hpos.le
      omega
    have hbelow' : (n : ℝ) ≤ m - 1 := by exact_mod_cast hbelow
    exact mul_le_mul_of_nonneg_right hbelow' hpos.le
  · -- on a finer grid it is below the least number with all bits
    have hk24 : (k : ℝ) ≤ 2 ^ 24 := by exact_mod_cast (lt_of_abs_lt hk).le
    have hm23 : (2 : ℝ) ^ 23 ≤ m - 1 := by exact_mod_cast (by omega : (2 : ℤ) ^ 23 ≤ m - 1)
    calc (k : ℝ) * 2 ^ f ≤ 2 ^ 24 * 2 ^ (e - 1) := by
          gcongr
          · exact one_le_two
          · omega
      _ = 2 ^ 23 * 2 ^ e := by
          rw [zpow_sub_one₀ two_ne_zero]
          ring
      _ ≤ (m - 1) * 2 ^ e := by gcongr

/-- A mantissa may have one bit more, if it is the only one. -/
theorem representable_of_le {m e : ℤ} (h0 : 0 ≤ m) (hm : m ≤ 2 ^ 24) (he : -149 ≤ e) :
    Representable (m * 2 ^ e) := by
  rcases eq_or_lt_of_le hm with rfl | hlt
  · refine ⟨2 ^ 23, e + 1, by norm_num, by omega, ?_⟩
    rw [zpow_add_one₀ two_ne_zero]
    push_cast
    ring
  · exact ⟨m, e, by rwa [abs_of_nonneg h0], he, rfl⟩

theorem Representable.double {c : ℝ} (h : Representable c) : Representable (2 * c) := by
  obtain ⟨m, e, hm, he, rfl⟩ := h
  refine ⟨m, e + 1, hm, by omega, ?_⟩
  rw [zpow_add_one₀ two_ne_zero]
  ring

/-- On its grid, twice a number less one is a mantissa of the next coarser grid. -/
theorem representable_double_sub_one {n : ℤ} {j : ℕ} (hlow : 2 ^ j ≤ n) (hhigh : n ≤ 2 ^ j + 2 ^ 24)
    (hj : j ≤ 149) : Representable (2 * (n * 2 ^ (-(j + 1) : ℤ)) - 1) := by
  have hdouble : 2 * (n * 2 ^ (-(j + 1) : ℤ)) - 1 = ((n - 2 ^ j : ℤ) : ℝ) * 2 ^ (-j : ℤ) := by
    rw [neg_add, zpow_add₀ two_ne_zero, zpow_neg, zpow_natCast]
    push_cast
    field_simp
  rw [hdouble]
  exact representable_of_le (by omega) (by omega) (by omega)

/-- **Twice a number near one, less one**, needs no more bits than the number. -/
theorem Representable.double_sub_one {c : ℝ} (h : Representable c) (hlow : 1 / 2 ≤ c)
    (hhigh : c ≤ 2) : Representable (2 * c - 1) := by
  rcases le_total c 1 with hle | hge
  · obtain ⟨n, rfl⟩ := h.exists_grid (t := -((23 : ℕ) + 1)) (by norm_num at hlow ⊢; exact hlow)
    norm_num at hlow hle
    have hn : (2 ^ 23 : ℝ) ≤ n ∧ (n : ℝ) ≤ 2 ^ 24 := ⟨by linarith, by linarith⟩
    norm_cast at hn
    exact representable_double_sub_one hn.1 (by omega) (by norm_num)
  · obtain ⟨n, rfl⟩ := h.exists_grid (t := -((22 : ℕ) + 1)) (by norm_num at hge ⊢; exact hge)
    norm_num at hge hhigh
    have hn : (2 ^ 23 : ℝ) ≤ n ∧ (n : ℝ) ≤ 2 ^ 24 := ⟨by linarith, by linarith⟩
    norm_cast at hn
    exact representable_double_sub_one (by omega) (by omega) (by norm_num)

/-- What is nearer to a number with all its bits than to the one before is not rounded below it. -/
theorem Nearest.le_of_near {q v : ℝ} {m e : ℤ} (h : Nearest q v) (hv : Representable v)
    (hm : 2 ^ 23 < m) (hm' : m ≤ 2 ^ 24) (he : -149 ≤ e) (hq : (m - 1 / 2) * 2 ^ e < q) :
    m * 2 ^ e ≤ v := by
  by_contra hlt
  rw [not_le] at hlt
  have hbefore := hv.le_of_lt hm hlt
  have hnear := h _ (representable_of_le (by omega) hm' he)
  have hpos : (0 : ℝ) < 2 ^ e := by positivity
  rw [abs_of_neg (by linarith)] at hnear
  rcases abs_cases ((m : ℝ) * 2 ^ e - q) with ⟨habs, -⟩ | ⟨habs, -⟩ <;> rw [habs] at hnear <;>
    linarith

/-- What is nearer to one than to the number before it is rounded to one or above. -/
theorem Nearest.one_le {q v : ℝ} (h : Nearest q v) (hv : Representable v)
    (hq : 1 - 1 / 2 ^ 25 < q) : 1 ≤ v := by
  have hone := h.le_of_near hv (m := 2 ^ 24) (e := -24) (by norm_num) le_rfl (by norm_num)
    (by norm_num at hq ⊢; exact hq)
  norm_num at hone
  exact hone

/-! ### On a grid -/

/-- An integer within one half is a nearest one. -/
theorem abs_sub_le_of_near {r k : ℤ} {x : ℝ} (h : |(r : ℝ) - x| ≤ 1 / 2) :
    |(r : ℝ) - x| ≤ |(k : ℝ) - x| := by
  rcases eq_or_ne k r with rfl | hne
  · exact le_rfl
  · have hgap : (1 : ℝ) ≤ |(k : ℝ) - r| := by
      exact_mod_cast Int.one_le_abs (sub_ne_zero.mpr hne)
    have htriangle := abs_sub_abs_le_abs_sub ((k : ℝ) - r) (x - r)
    rw [sub_sub_sub_cancel_right] at htriangle
    rw [abs_sub_comm] at h ⊢
    linarith

/-- **A mantissa within one half, on the grid that the magnitude asks for, is nearest.**  The grid
is the finest one there is, or the number has all twenty-four bits on it. -/
theorem nearest_of_near {q : ℝ} {r t : ℤ} (hr : |(r : ℝ) - q / 2 ^ t| ≤ 1 / 2)
    (ht : t = -149 ∨ 2 ^ 23 ≤ q / 2 ^ t) : Nearest q (r * 2 ^ t) := by
  have hpos : (0 : ℝ) < 2 ^ t := by positivity
  -- every multiple of the grid is at least as far away
  have hgrid (k : ℤ) : |(r : ℝ) * 2 ^ t - q| ≤ |(k : ℝ) * 2 ^ t - q| := by
    have hscale (n : ℤ) : |(n : ℝ) * 2 ^ t - q| = |(n : ℝ) - q / 2 ^ t| * 2 ^ t := by
      rw [← abs_of_pos hpos, ← abs_mul, abs_of_pos hpos, sub_mul, div_mul_cancel₀ q hpos.ne']
    rw [hscale, hscale]
    exact mul_le_mul_of_nonneg_right (abs_sub_le_of_near hr) hpos.le
  rintro c ⟨m, e, hm, he, rfl⟩
  rcases le_or_gt t e with hte | hte
  · -- on the same grid or a coarser one
    obtain ⟨n, hmultiple⟩ := exists_multiple m hte
    rw [hmultiple]
    exact hgrid n
  · -- on a finer grid it is below the least number with all bits
    have hfull : 2 ^ 23 ≤ q / 2 ^ t := ht.resolve_left (by omega)
    have hq : (2 : ℝ) ^ 23 * 2 ^ t ≤ q := (le_div_iff₀ hpos).mp hfull
    have hstep : (2 : ℝ) * 2 ^ e ≤ 2 ^ t := by
      rw [← zpow_one_add₀ two_ne_zero]
      exact zpow_le_zpow_right₀ one_le_two (by omega)
    have hm' : (m : ℝ) ≤ 2 ^ 24 := by exact_mod_cast (le_of_lt (lt_of_abs_lt hm))
    have hepos : (0 : ℝ) < 2 ^ e := by positivity
    have hc : (m : ℝ) * 2 ^ e ≤ 2 ^ 23 * 2 ^ t := by nlinarith
    have hleast := hgrid (2 ^ 23)
    push_cast at hleast
    refine hleast.trans ?_
    rw [abs_of_nonpos (by linarith), abs_of_nonpos (by linarith)]
    linarith

/-! ## Signs -/

/-- The factor of a sign. -/
def factor : Sign → ℝ
  | .positive => 1
  | .negative => -1

theorem factor_mul (s t : Sign) : factor (s * t) = factor s * factor t := by
  cases s <;> cases t <;> norm_num [factor]

theorem factor_div (s t : Sign) : factor (s / t) = factor s / factor t := by
  cases s <;> cases t <;> norm_num [factor] <;> rfl

theorem cast_apply (s : Sign) (n : ℤ) : ((s.apply n : ℤ) : ℝ) = factor s * n := by
  cases s <;> simp [Sign.apply, factor]

theorem factor_neg (s : Sign) : factor (-s) = -factor s := by
  cases s <;> norm_num [factor]

theorem apply_neg (s : Sign) (n : ℤ) : (-s).apply n = -s.apply n := by
  cases s
  · exact (neg_neg n).symm
  · rfl

theorem Representable.factor_mul {c : ℝ} (h : Representable c) (s : Sign) :
    Representable (factor s * c) := by
  cases s with
  | positive => simpa [factor] using h
  | negative => simpa [factor] using h.neg

/-- The sign goes through rounding. -/
theorem Nearest.factor_mul {q v : ℝ} (h : Nearest q v) (s : Sign) :
    Nearest (factor s * q) (factor s * v) := by
  cases s with
  | positive => simpa [factor] using h
  | negative => simpa [factor] using h.neg

/-! ## Unpacked numbers -/

/-- The real number that an unpacked number is; what is not finite counts as zero. -/
noncomputable def real : UnpackedFloat → ℝ
  | .finite s m e _ => factor s * (m * 2 ^ e)
  | .infinity _ | .notANumber | .zero _ => 0

/-- The mantissa is less than twenty-four bits long only at the least exponent. -/
def Canonical : UnpackedFloat → Prop
  | .finite _ m e _ => m < 2 ^ 24 ∧ -149 ≤ e ∧ (e = -149 ∨ 2 ^ 23 ≤ m)
  | .infinity _ | .notANumber | .zero _ => True

/-- `u` is `q`, rounded; the exponent may still be too large for single precision. -/
structure Rounded (q : ℝ) (u : UnpackedFloat) : Prop where
  isFinite : u.isFinite = true
  canonical : Canonical u
  nearest : Nearest q (real u)

theorem Representable.real {u : UnpackedFloat} (h : Canonical u) : Representable (real u) := by
  cases u with
  | finite s m e hm =>
    obtain ⟨hm24, he, -⟩ := h
    have habs : |(m : ℤ)| < 2 ^ 24 := by
      rw [abs_of_nonneg (by positivity)]
      exact_mod_cast hm24
    have hpositive : Representable (m * 2 ^ e) := ⟨m, e, habs, he, rfl⟩
    cases s with
    | positive => simpa [Binary32.real, factor] using hpositive
    | negative => simpa [Binary32.real, factor] using hpositive.neg
  | infinity | notANumber | zero => exact representable_zero

/-! ## The rounding step -/

/-- The exponent that a mantissa and an exponent ask for. -/
theorem target_eq (m : ℕ) (e : ℤ) :
    format.targetExponent (totalExponent m e) = max (m.log2 + 1 + e - 24) (-149) := rfl

theorem shiftRight_zero (em : ExtendedMantissa) : em >>> (0 : ℕ) = em := rfl

/-- What is left of the second shift: a mantissa of twenty-five bits gives up its last one. -/
theorem shift_rounded {r : ℕ} (hr : r ≤ 2 ^ 24) {t : ℤ} (ht : -149 ≤ t) :
    shiftToTargetExponent format r t .exact =
      if r = 2 ^ 24 then (.ofMantissaAndAccuracy (2 ^ 23) .exact, t + 1)
      else (.ofMantissaAndAccuracy r .exact, t) := by
  unfold shiftToTargetExponent shiftToExponent
  rw [target_eq]
  split
  · next hcarry =>
    have hshift : (max (((2 ^ 24 : ℕ).log2 : ℤ) + 1 + t - 24) (-149) - t).toNat = 1 := by
      rw [Nat.log2_two_pow]
      omega
    subst hcarry
    dsimp only
    rw [hshift]
    rfl
  · next hcarry =>
    have hlog : r.log2 ≤ 23 := by
      rcases Nat.eq_zero_or_pos r with rfl | hpos
      · decide
      · exact Nat.le_of_lt_succ ((Nat.log2_lt hpos.ne').mpr (by omega))
    have hshift : (max ((r.log2 : ℤ) + 1 + t - 24) (-149) - t).toNat = 0 := by omega
    dsimp only
    rw [hshift, shiftRight_zero]
    simp

/-- The part of rounding that follows the choice of a mantissa. -/
theorem rounded_of_near (s : Sign) {r : ℕ} {t : ℤ} {x : ℝ} (hr : |(r : ℝ) - x| ≤ 1 / 2)
    (hr24 : r ≤ 2 ^ 24) (ht : -149 ≤ t) (hfull : t = -149 ∨ 2 ^ 23 ≤ r ∧ (2 : ℝ) ^ 23 ≤ x) :
    Rounded (factor s * (x * 2 ^ t))
      (let shifted := shiftToTargetExponent format r t .exact
      if h : shifted.1.mantissa = 0 then .zero s
      else .finite s shifted.1.mantissa shifted.2 (Nat.pos_of_ne_zero h)) := by
  have hpos : (2 : ℝ) ^ t ≠ 0 := by positivity
  have hnearest : Nearest (factor s * (x * 2 ^ t)) (factor s * (r * 2 ^ t)) := by
    refine Nearest.factor_mul ?_ s
    have hscaled : x * 2 ^ t / 2 ^ t = x := mul_div_cancel_right₀ x hpos
    exact_mod_cast nearest_of_near (q := x * 2 ^ t) (r := r) (t := t)
      (by rw [hscaled]; exact_mod_cast hr) (by rw [hscaled]; exact hfull.imp_right And.right)
  rw [shift_rounded hr24 ht]
  by_cases hcarry : r = 2 ^ 24
  · have hreal : ((2 ^ 24 : ℕ) : ℝ) * 2 ^ t = (2 ^ 23 : ℕ) * 2 ^ (t + 1) := by
      rw [zpow_add_one₀ two_ne_zero]
      push_cast
      ring
    rw [hcarry, hreal] at hnearest
    rw [if_pos hcarry]
    exact ⟨rfl, ⟨show 2 ^ 23 < 2 ^ 24 by norm_num, show -149 ≤ t + 1 by omega, .inr le_rfl⟩,
      hnearest⟩
  · rw [if_neg hcarry]
    by_cases hzero : r = 0
    · subst hzero
      exact ⟨rfl, trivial, show Nearest _ 0 by simpa using hnearest⟩
    · dsimp only
      rw [dif_neg (show ¬(ExtendedMantissa.ofMantissaAndAccuracy r .exact).mantissa = 0 from hzero)]
      exact ⟨rfl, ⟨lt_of_le_of_ne hr24 hcarry, ht, hfull.imp_right And.left⟩, hnearest⟩

theorem mantissa_ofMantissaAndAccuracy (m : ℕ) (accuracy : Accuracy) :
    (ExtendedMantissa.ofMantissaAndAccuracy m accuracy).mantissa = m := by
  unfold ExtendedMantissa.ofMantissaAndAccuracy
  split <;> rfl

theorem roundedMantissa_bounds (em : ExtendedMantissa) :
    em.mantissa ≤ em.roundedMantissa ∧ em.roundedMantissa ≤ em.mantissa + 1 := by
  obtain ⟨m, r, s⟩ := em
  cases r <;> cases s <;>
    simp [ExtendedMantissa.roundedMantissa, ExtendedMantissa.accuracy, Accuracy.roundToNearestEven]
  omega

/-- The bits that are kept: at most twenty-four, and all of them above the least exponent. -/
theorem kept_bits {m n : ℕ} {e t : ℤ} (ht : max ((m.log2 : ℤ) + 1 + e - 24) (-149) = t)
    (hn : e + n = t) : m / 2 ^ n < 2 ^ 24 ∧ (t = -149 ∨ 2 ^ 23 ≤ m / 2 ^ n) := by
  have hpos : 0 < 2 ^ n := by positivity
  constructor
  · rw [Nat.div_lt_iff_lt_mul hpos, ← pow_add]
    exact Nat.lt_log2_self.trans_le (Nat.pow_le_pow_right two_pos (by omega))
  · rcases le_or_gt t (-149) with hleast | habove
    · exact .inl (by omega)
    · right
      have hlog : 23 + n = m.log2 := by omega
      have hm : m ≠ 0 := by
        rintro rfl
        simp at hlog
      rw [Nat.le_div_iff_mul_le hpos, ← pow_add, hlog]
      exact Nat.log2_self_le hm

/-- **Rounding.**  What a mantissa and its accuracy say about a number is rounded to a nearest one,
if no bits have to be added for it. -/
theorem rounded_roundWithAccuracy (s : Sign) {m : ℕ} {e : ℤ} {accuracy : Accuracy} {x : ℝ}
    (hx : Represents (.ofMantissaAndAccuracy m accuracy) x)
    (he : e ≤ format.targetExponent (totalExponent m e)) :
    Rounded (factor s * (x * 2 ^ e)) (roundWithAccuracy format s m e accuracy) := by
  obtain ⟨n, hn⟩ := Int.le.dest he
  generalize ht : format.targetExponent (totalExponent m e) = t at he hn
  have hshift : shiftToTargetExponent format m e accuracy =
      (ExtendedMantissa.ofMantissaAndAccuracy m accuracy >>> n, t) := by
    unfold shiftToTargetExponent shiftToExponent
    rw [ht, ← hn]
    simp
  rw [target_eq] at ht
  obtain ⟨hbits, hall⟩ := kept_bits ht hn
  have hx' := hx.shiftRight n
  have hmantissa := mantissa_shiftRight (ExtendedMantissa.ofMantissaAndAccuracy m accuracy) n
  rw [mantissa_ofMantissaAndAccuracy] at hmantissa
  generalize ExtendedMantissa.ofMantissaAndAccuracy m accuracy >>> n = em at hshift hx' hmantissa
  obtain ⟨hlow, hhigh⟩ := roundedMantissa_bounds em
  rw [← hmantissa] at hbits hall
  have hscale : x * 2 ^ e = x / 2 ^ n * 2 ^ t := by
    rw [← hn, zpow_add₀ two_ne_zero, zpow_natCast]
    field_simp
  have hfull : t = -149 ∨ 2 ^ 23 ≤ em.roundedMantissa ∧ (2 : ℝ) ^ 23 ≤ x / 2 ^ n := by
    refine hall.imp_right fun h => ⟨h.trans hlow, le_trans ?_ hx'.le⟩
    exact_mod_cast h
  rw [hscale]
  unfold roundWithAccuracy
  rw [hshift]
  exact rounded_of_near s hx'.near (by omega) (by omega) hfull

theorem log2_shiftLeft {m : ℕ} (hm : m ≠ 0) (k : ℕ) : (m <<< k).log2 = m.log2 + k := by
  have hpos : m <<< k ≠ 0 := by
    rw [Nat.shiftLeft_eq]
    positivity
  rw [Nat.log2_eq_iff hpos, Nat.shiftLeft_eq]
  constructor
  · rw [pow_add]
    exact Nat.mul_le_mul_right _ (Nat.log2_self_le hm)
  · rw [show m.log2 + k + 1 = m.log2 + 1 + k by omega, pow_add]
    exact Nat.mul_lt_mul_of_pos_right Nat.lt_log2_self (by positivity)

/-- Bits that are added on the right do not change the number. -/
theorem decreaseExponent_value (m : ℕ) (e t : ℤ) :
    ((decreaseExponent m e t).1 : ℝ) * 2 ^ (decreaseExponent m e t).2 = m * 2 ^ e := by
  unfold decreaseExponent
  dsimp only
  rw [Nat.shiftLeft_eq, Nat.cast_mul, Nat.cast_pow, Nat.cast_ofNat, ← zpow_natCast, mul_assoc,
    ← zpow_add₀ two_ne_zero, add_sub_cancel]

theorem decreaseExponent_exponent {m : ℕ} {e t : ℤ} (h : t ≤ e) :
    (decreaseExponent m e t).2 = t := by
  unfold decreaseExponent
  dsimp only
  omega

/-- Rounding that adds the bits which are missing first. -/
theorem rounded_round (s : Sign) {m : ℕ} (hm : m ≠ 0) (e : ℤ) :
    Rounded (factor s * (m * 2 ^ e)) (UnpackedFloat.round format s m e) := by
  rw [← decreaseExponent_value m e (format.targetExponent (totalExponent m e))]
  refine rounded_roundWithAccuracy s (Represents.exact _) ?_
  unfold decreaseExponent
  rw [target_eq, target_eq, log2_shiftLeft hm]
  push_cast
  omega

/-- Rounding of a mantissa with a sign. -/
theorem rounded_normalize (m e : ℤ) (s : Sign) :
    Rounded (m * 2 ^ e) (UnpackedFloat.normalize format m e s) := by
  unfold UnpackedFloat.normalize
  rcases lt_trichotomy m 0 with hneg | hzero | hpos
  · rw [show compare m 0 = .lt from Int.compare_eq_lt.mpr hneg]
    have hround := rounded_round .negative (m := (-m).toNat) (by omega) e
    have hcast : (((-m).toNat : ℕ) : ℝ) = -(m : ℝ) := by
      exact_mod_cast Int.toNat_of_nonneg (by omega : 0 ≤ -m)
    rw [hcast] at hround
    simpa [factor] using hround
  · rw [show compare m 0 = .eq from Int.compare_eq_eq.mpr hzero, hzero]
    exact ⟨rfl, trivial, by simpa [real] using Nearest.refl 0⟩
  · rw [show compare m 0 = .gt from Int.compare_eq_gt.mpr hpos]
    have hround := rounded_round .positive (m := m.toNat) (by omega) e
    have hcast : ((m.toNat : ℕ) : ℝ) = (m : ℝ) := by
      exact_mod_cast Int.toNat_of_nonneg hpos.le
    rw [hcast] at hround
    simpa [factor] using hround

/-! ## Quotients -/

/-- The accuracy of a quotient says where it lies. -/
theorem represents_quotient (num : ℕ) {den : ℕ} (hden : 0 < den) :
    Represents (.ofMantissaAndAccuracy (num / den) (accuracyOfFraction (num % den) den))
      (num / den : ℝ) := by
  have hpos : (0 : ℝ) < den := by exact_mod_cast hden
  have hsplit : (num / den : ℝ) = (num / den : ℕ) + (num % den : ℕ) / den := by
    rw [eq_comm, ← mul_right_inj' hpos.ne', mul_add, mul_div_cancel₀ _ hpos.ne',
      mul_div_cancel₀ _ hpos.ne']
    exact_mod_cast Nat.div_add_mod num den
  have hlt : ((num % den : ℕ) : ℝ) < den := by exact_mod_cast Nat.mod_lt num hden
  rw [hsplit]
  generalize num / den = q at *
  generalize num % den = r at *
  unfold accuracyOfFraction
  split
  · next hzero => simp [Represents, ExtendedMantissa.ofMantissaAndAccuracy, hzero]
  · next hne =>
    have hr : (0 : ℝ) < r := by exact_mod_cast Nat.pos_of_ne_zero hne
    have hfraction : 0 < (r : ℝ) / den := div_pos hr hpos
    have hone : (r : ℝ) / den < 1 := (div_lt_one hpos).mpr hlt
    rcases lt_trichotomy (2 * r) den with hhalf | hhalf | hhalf
    · have hbelow : (r : ℝ) / den < 1 / 2 := by
        rw [div_lt_div_iff₀ hpos two_pos]
        exact_mod_cast (by omega : r * 2 < 1 * den)
      rw [Nat.compare_eq_lt.mpr hhalf]
      show (q : ℝ) < q + r / den ∧ (q : ℝ) + r / den < q + 1 / 2
      exact ⟨by linarith, by linarith⟩
    · have htie : (r : ℝ) / den = 1 / 2 := by
        rw [div_eq_div_iff hpos.ne' two_ne_zero]
        exact_mod_cast (by omega : r * 2 = 1 * den)
      rw [Nat.compare_eq_eq.mpr hhalf, htie]
      rfl
    · have habove : 1 / 2 < (r : ℝ) / den := by
        rw [div_lt_div_iff₀ two_pos hpos]
        exact_mod_cast (by omega : 1 * den < r * 2)
      rw [Nat.compare_eq_gt.mpr hhalf]
      show (q : ℝ) + 1 / 2 < q + r / den ∧ (q : ℝ) + r / den < q + 1
      exact ⟨by linarith, by linarith⟩

/-- **A quotient is rounded once.**  The dividend is given so many bits that twenty-four of them are
left in the quotient. -/
theorem rounded_divCore (s : Sign) {m₁ m₂ : ℕ} (e₁ e₂ : ℤ) (h₁ : m₁ ≠ 0) (h₂ : 0 < m₂) :
    Rounded (factor s * (m₁ * 2 ^ e₁ / (m₂ * 2 ^ e₂)))
      (let core := divCore format m₁ e₁ m₂ e₂
      roundWithAccuracy format s core.1 core.2.1 core.2.2) := by
  obtain ⟨t, ht⟩ : ∃ t, t = min (e₁ - e₂)
      (format.targetExponent (totalExponent m₁ e₁ - totalExponent m₂ e₂)) := ⟨_, rfl⟩
  obtain ⟨k, hk⟩ := Int.le.dest (show t ≤ e₁ - e₂ by omega)
  have hcore : divCore format m₁ e₁ m₂ e₂ = ((m₁ <<< k) / m₂, t,
      accuracyOfFraction ((m₁ <<< k) % m₂) m₂) := by
    unfold divCore
    rw [← ht, ← hk]
    simp
  have htarget : t ≤ max ((m₁.log2 : ℤ) + 1 + e₁ - (m₂.log2 + 1 + e₂) - 24) (-149) :=
    ht ▸ min_le_right _ _
  -- above the least exponent the dividend has twenty-four bits more than the divisor
  have hbits : t ≤ format.targetExponent (totalExponent ((m₁ <<< k) / m₂) t) := by
    rw [target_eq]
    rcases le_or_gt t (-149) with hleast | habove
    · exact le_max_of_le_right hleast
    · have hlog : 24 + m₂.log2 ≤ m₁.log2 + k := by omega
      have hlarge : 2 ^ 23 ≤ (m₁ <<< k) / m₂ := by
        rw [Nat.le_div_iff_mul_le h₂, Nat.shiftLeft_eq]
        calc 2 ^ 23 * m₂ ≤ 2 ^ 23 * 2 ^ (m₂.log2 + 1) :=
              Nat.mul_le_mul_left _ Nat.lt_log2_self.le
          _ = 2 ^ (24 + m₂.log2) := by ring
          _ ≤ 2 ^ (m₁.log2 + k) := Nat.pow_le_pow_right two_pos hlog
          _ = 2 ^ m₁.log2 * 2 ^ k := pow_add _ _ _
          _ ≤ m₁ * 2 ^ k := Nat.mul_le_mul_right _ (Nat.log2_self_le h₁)
      have := (Nat.le_log2 (by omega)).mpr hlarge
      omega
  have hscale : (m₁ * 2 ^ e₁ / (m₂ * 2 ^ e₂) : ℝ) = ((m₁ <<< k : ℕ) / m₂ : ℝ) * 2 ^ t := by
    rw [show e₁ = t + k + e₂ by omega, Nat.shiftLeft_eq, zpow_add₀ two_ne_zero,
      zpow_add₀ two_ne_zero, zpow_natCast]
    push_cast
    field_simp
  rw [hcore, hscale]
  exact rounded_roundWithAccuracy s (represents_quotient _ h₂) hbits

end DuplexAudio.Binary32
