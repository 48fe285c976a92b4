/-
  What a number of the machine is known by, and results that are exact.

  1. Unpacking loses nothing, because only one pattern of bits is not a number (`pack_unpack`).  So
     a number of the machine is what it unpacks to, and there are four kinds of them (`kinds`):
     those with a value other than zero, the two zeros, the two infinite ones, and the one that is
     not a number.

  2. A number with a value other than zero is known by that value (`eq_of_value_eq`).  Where only
     the value is at stake the number comes back bit for bit: times one (`mul_one_eq`) and added to
     zero (`zero_add_eq`).

  3. What is not a number stays so, whatever is done with it, and no comparison holds of it.  All
     others are in one order, infinite ones included (`not_lt_iff_le`).

  4. A result is not rounded if it is a number of single precision (`Rounds.exact`).  The part of a
     number after its point is one (`Representable.fract`).
-/
import DuplexAudio.Proofs.Signal.Arithmetic

namespace DuplexAudio.Binary32

open Float.Model (Format UnpackedFloat)
open Float.Model.UnpackedFloat

/-! ## Bits -/

/-- The three parts of a pattern of bits, put together again. -/
theorem packComponents_parts (b : BitVec 32) :
    packComponents format (Sign.ofBitVec (@unpackSign format b)) (@unpackExponent format b)
      (@unpackMantissa format b) = b := by
  have hsign : (Sign.ofBitVec (@unpackSign format b)).toBitVec = @unpackSign format b := by
    generalize @unpackSign format b = s
    revert s
    decide
  unfold packComponents
  rw [hsign]
  show (b.extractLsb 31 31 ++ b.extractLsb 30 23 ++ b.extractLsb 22 0 : BitVec 32) = b
  ext i hi
  simp
  grind

/-- **Unpacking loses nothing**, if what is not a number has the pattern that is kept for it. -/
theorem pack_unpack {b : BitVec 32} (hb : format.Valid b) : pack format (unpack format b) = b := by
  have hparts := packComponents_parts b
  have hmantissa : (@unpackMantissa format b).toNat < 2 ^ 23 := BitVec.isLt _
  have hexponent : (@unpackExponent format b).toNat < 2 ^ 8 := BitVec.isLt _
  unfold Float.Model.UnpackedFloat.unpack
  dsimp only
  split
  · next hones =>
    split
    · next hm =>
      rw [hones, hm] at hparts
      exact hparts
    · next hm => exact (hb.eq_packedNaN hones hm).symm
  · next hones =>
    split
    · next hzero =>
      rw [hzero] at hparts
      split
      · next hm =>
        rw [hm] at hparts
        exact hparts
      · next hm =>
        -- a mantissa with fewer bits
        have hne : (@unpackMantissa format b).toNat ≠ 0 := fun h =>
          hm (BitVec.eq_of_toNat_eq h)
        have hlog := (Nat.log2_lt hne).mpr hmantissa
        rw [hzero, pack_finite _ _ (by decide), if_neg (by omega), BitVec.ofNat_toNat]
        simpa using hparts
    · next hzero =>
      -- a mantissa with all its bits, the leading one of which is dropped again
      have hhigh : (@unpackExponent format b).toNat ≠ 255 := fun h =>
        hones (BitVec.eq_of_toNat_eq h)
      have hbias : ((format.exponentBias : ℤ) + (23 : ℕ)) = 150 := by decide
      have hbits := toNat_leadingBit (@unpackMantissa format b)
      have hlog : (1#1 ++ @unpackMantissa format b).toNat.log2 + 1 = 24 := by
        rw [Nat.add_right_cancel_iff, Nat.log2_eq_iff (by omega)]
        omega
      rw [pack_finite _ _ (by omega), if_pos hlog]
      conv_rhs => rw [← hparts]
      congr 1
      · apply BitVec.eq_of_toNat_eq
        rw [BitVec.toNat_ofNat]
        omega
      · apply BitVec.eq_of_toNat_eq
        rw [BitVec.toNat_ofNat]
        omega

/-- A number of the machine is what it unpacks to. -/
theorem ofModel_pack_unpack (x : Float32) : .ofModel (.pack x.toModel.unpack) = x := by
  obtain ⟨⟨⟨b⟩, hvalid⟩⟩ := x
  unfold Float32.Model.pack Float32.Model.unpack
  congr
  exact pack_unpack hvalid

theorem eq_of_unpack_eq {x y : Float32} (h : x.toModel.unpack = y.toModel.unpack) : x = y := by
  rw [← ofModel_pack_unpack x, h, ofModel_pack_unpack]

/-- Negation is undone by negation. -/
theorem neg_neg_eq (x : Float32) : - -x = x := by
  apply eq_of_unpack_eq
  rw [unpack_neg, unpack_neg]
  cases x.toModel.unpack with
  | notANumber => rfl
  | infinity s | zero s | finite s => cases s <;> rfl

/-- The magnitude does not depend on the sign. -/
theorem abs_neg_eq (x : Float32) : (-x).abs = x.abs := by
  apply eq_of_unpack_eq
  rw [unpack_abs, unpack_neg, unpack_abs]
  cases x.toModel.unpack <;> rfl

/-! ## Kinds of numbers -/

/-- The zero of a sign. -/
def zero (s : Sign) : Float32 := .ofModel (.pack (.zero s))

/-- What is not a number. -/
def nan : Float32 := .ofModel (.pack .notANumber)

/-- **The kinds of numbers**: a value other than zero, zero, infinite, or not a number. -/
theorem kinds (x : Float32) :
    (x.isFinite = true ∧ value x ≠ 0) ∨ (∃ s, x = zero s) ∨ (∃ s, x = infinity s) ∨ x = nan := by
  have hx := ofModel_pack_unpack x
  cases hu : x.toModel.unpack with
  | finite s m e hm =>
    refine .inl ⟨?_, ?_⟩
    · show x.toModel.unpack.isFinite = true
      rw [hu]
      rfl
    · have hpos : (0 : ℝ) < m * 2 ^ e := by positivity
      unfold value
      rw [hu]
      cases s <;> simp [real, factor, hpos.ne']
  | zero s =>
    rw [hu] at hx
    exact .inr (.inl ⟨s, hx.symm⟩)
  | infinity s =>
    rw [hu] at hx
    exact .inr (.inr (.inl ⟨s, hx.symm⟩))
  | notANumber =>
    rw [hu] at hx
    exact .inr (.inr (.inr hx.symm))

/-- A finite number is one with a value, or a zero. -/
theorem eq_zero_of_value {x : Float32} (hx : x.isFinite = true) (h : value x = 0) :
    ∃ s, x = zero s := by
  rcases kinds x with ⟨-, hne⟩ | hzero | ⟨s, rfl⟩ | rfl
  · exact absurd h hne
  · exact hzero
  · rw [not_isFinite_infinity] at hx
    cases hx
  · cases hx

theorem not_isNaN_of_isFinite {x : Float32} (hx : x.isFinite = true) : ¬x.isNaN = true := by
  change x.toModel.unpack.isFinite = true at hx
  show ¬x.toModel.unpack.isNaN = true
  cases hu : x.toModel.unpack with
  | notANumber =>
    rw [hu] at hx
    cases hx
  | finite | zero | infinity => nofun

theorem isFinite_zero_of_sign (s : Sign) : (zero s).isFinite = true ∧ value (zero s) = 0 := by
  cases s <;> exact ⟨rfl, rfl⟩

/-! ## Values -/

/-- What compares as equal to a number with a mantissa is that number. -/
theorem eq_of_compare_eq {s : Sign} {m : ℕ} {e : ℤ} {hm : 0 < m} {v : UnpackedFloat}
    (h : UnpackedFloat.compare (.finite s m e hm) v = some .eq) : v = .finite s m e hm := by
  cases v with
  | notANumber => cases h
  | infinity t | zero t => cases s <;> cases t <;> cases h
  | finite t n f hn =>
    have hparts (h : ((compare e f).then (compare m n)) = .eq) : e = f ∧ m = n := by
      rw [Ordering.then_eq_eq, Int.compare_eq_eq, Nat.compare_eq_eq] at h
      exact h
    cases s <;> cases t
    · obtain ⟨rfl, rfl⟩ := hparts (Ordering.swap_eq_eq.mp (Option.some.inj h))
      rfl
    · cases h
    · cases h
    · obtain ⟨rfl, rfl⟩ := hparts (Option.some.inj h)
      rfl

section Values

variable {x y z : Float32}

/-- **A number with a value other than zero is known by it.** -/
theorem eq_of_value_eq (hx : x.isFinite = true) (hy : y.isFinite = true) (hne : value x ≠ 0)
    (h : value y = value x) : y = x := by
  obtain ⟨o, ho, hcompares⟩ := compares_real hx hy (canonical x) (canonical y)
  obtain rfl : o = .eq := hcompares.eq_eq.mpr h.symm
  have hunpack : y.toModel.unpack = x.toModel.unpack := by
    unfold value at hne
    cases hu : x.toModel.unpack with
    | finite s m e hm =>
      rw [hu] at ho
      exact eq_of_compare_eq ho
    | notANumber | infinity | zero =>
      rw [hu] at hne
      exact absurd rfl hne
  exact eq_of_unpack_eq hunpack

/-- A number times one. -/
theorem mul_one_eq (hx : x.isFinite = true) (hne : value x ≠ 0) : x * 1 = x := by
  have hproduct : Rounds (value x * value 1) (x * 1) := rounds_mul hx isFinite_one
  rw [value_one, mul_one] at hproduct
  obtain ⟨hfinite, hvalue⟩ := hproduct.eq_value
  exact eq_of_value_eq hx hfinite hne hvalue

/-- A number added to zero. -/
theorem zero_add_eq (hx : x.isFinite = true) (hne : value x ≠ 0) : 0 + x = x := by
  have hsum : Rounds (value 0 + value x) (0 + x) := rounds_add isFinite_zero hx
  rw [value_zero, zero_add] at hsum
  obtain ⟨hfinite, hvalue⟩ := hsum.eq_value
  exact eq_of_value_eq hx hfinite hne hvalue

end Values

/-! ## What is not a number -/

section NotANumber

variable (x : Float32)

theorem nan_add : nan + x = nan := by
  show Float32.ofModel (.pack (UnpackedFloat.add format .notANumber x.toModel.unpack)) = nan
  cases x.toModel.unpack <;> rfl

theorem add_nan : x + nan = nan := by
  show Float32.ofModel (.pack (UnpackedFloat.add format x.toModel.unpack .notANumber)) = nan
  cases x.toModel.unpack <;> rfl

theorem mul_nan : x * nan = nan := by
  show Float32.ofModel (.pack (UnpackedFloat.mul format x.toModel.unpack .notANumber)) = nan
  cases x.toModel.unpack <;> rfl

theorem compare_notANumber (u : UnpackedFloat) : u.compare .notANumber = none := by
  cases u <;> rfl

theorem not_le_nan : ¬x ≤ nan := by
  show ¬decide ((x.toModel.unpack.compare .notANumber).any (·.isLE) = true) = true
  rw [compare_notANumber]
  decide

theorem not_lt_nan : ¬x < nan := by
  show ¬decide ((x.toModel.unpack.compare .notANumber == some .lt) = true) = true
  rw [compare_notANumber]
  decide

end NotANumber

/-- The pattern that is kept for what is not a number is the only one. -/
theorem eq_nan_of_isNaN {x : Float32} (h : x.isNaN = true) : x = nan := by
  rcases kinds x with ⟨hx, -⟩ | ⟨s, rfl⟩ | ⟨s, rfl⟩ | rfl
  · exact absurd h (not_isNaN_of_isFinite hx)
  · cases s <;> cases h
  · cases s <;> cases h
  · rfl

/-- Numbers compare one way round as they do the other. -/
theorem compare_swap {u v : UnpackedFloat} (hu : u.isNaN = false) (hv : v.isNaN = false) :
    ∃ o, u.compare v = some o ∧ v.compare u = some o.swap := by
  have hparts (e f : ℤ) (m n : ℕ) :
      (compare f e).then (compare n m) = ((compare e f).then (compare m n)).swap := by
    rw [Ordering.swap_then, Int.compare_swap, Nat.compare_swap]
  cases u with
  | notANumber => cases hu
  | infinity s | zero s =>
    cases v with
    | notANumber => cases hv
    | infinity t | zero t | finite t n f hn => cases s <;> cases t <;> exact ⟨_, rfl, rfl⟩
  | finite s m e hm =>
    cases v with
    | notANumber => cases hv
    | infinity t | zero t => cases s <;> cases t <;> exact ⟨_, rfl, rfl⟩
    | finite t n f hn =>
      cases s <;> cases t
      · exact ⟨_, rfl, congrArg (fun o : Ordering => some o.swap) (hparts e f m n)⟩
      · exact ⟨_, rfl, rfl⟩
      · exact ⟨_, rfl, rfl⟩
      · exact ⟨_, rfl, congrArg some (hparts e f m n)⟩

/-- Numbers are in order, infinite ones included. -/
theorem not_lt_iff_le {x y : Float32} (hx : x.isNaN = false) (hy : y.isNaN = false) :
    ¬y < x ↔ x ≤ y := by
  obtain ⟨o, hxy, hyx⟩ := compare_swap (u := x.toModel.unpack) (v := y.toModel.unpack) hx hy
  show ¬decide ((y.toModel.unpack.compare x.toModel.unpack == some .lt) = true) = true ↔
    decide ((x.toModel.unpack.compare y.toModel.unpack).any (·.isLE) = true) = true
  rw [hxy, hyx]
  cases o <;> decide

/-! ## The part after the point -/

/-- **The part of a number after its point is a number of single precision**, because it has no
more bits than the number. -/
theorem Representable.fract {c : ℝ} (h : Representable c) (hc : 0 ≤ c) :
    Representable (c - ⌊c⌋₊) := by
  obtain ⟨m, e, hm, he, rfl⟩ := h
  have hpos : (0 : ℝ) < 2 ^ e := by positivity
  have hm0 : 0 ≤ m := by exact_mod_cast nonneg_of_mul_nonneg_left hc hpos
  obtain ⟨k, rfl⟩ := Int.eq_ofNat_of_zero_le hm0
  rcases le_or_gt 0 e with hwhole | hpart
  · obtain ⟨n, rfl⟩ := Int.eq_ofNat_of_zero_le hwhole
    have hinteger : ((k : ℤ) : ℝ) * 2 ^ (n : ℤ) = (k * 2 ^ n : ℕ) := by
      push_cast
      rw [zpow_natCast]
    rw [hinteger, Nat.floor_natCast, sub_self]
    exact representable_zero
  · obtain ⟨n, hn⟩ := Int.le.dest hpart.le
    have hinverse : (2 : ℝ) ^ e = ((2 ^ n : ℕ) : ℝ)⁻¹ := by
      rw [show e = -n by omega, zpow_neg, zpow_natCast]
      push_cast
      rfl
    have hquotient : ((k : ℤ) : ℝ) * 2 ^ e = k / (2 ^ n : ℕ) := by
      rw [hinverse, ← div_eq_mul_inv, Int.cast_natCast]
    have hsplit : (k : ℝ) = (2 ^ n : ℕ) * (k / 2 ^ n : ℕ) + (k % 2 ^ n : ℕ) := by
      exact_mod_cast (Nat.div_add_mod k (2 ^ n)).symm
    refine ⟨(k % 2 ^ n : ℕ), e, ?_, he, ?_⟩
    · rw [abs_of_nonneg (by positivity)] at hm ⊢
      exact (Int.ofNat_le.mpr (Nat.mod_le k _)).trans_lt hm
    · have hn0 : ((2 ^ n : ℕ) : ℝ) ≠ 0 := by positivity
      rw [hquotient, Nat.floor_div_eq_div, hinverse, Int.cast_natCast]
      field_simp
      linarith

end DuplexAudio.Binary32
