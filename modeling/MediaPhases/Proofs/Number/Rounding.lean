import MediaPhases.Number.Binary
import Mathlib.Algebra.Order.Field.Power
import Mathlib.Data.Int.Log
import Mathlib.Data.Rat.Floor
import Mathlib.Tactic.Linarith
import Mathlib.Tactic.NormNum
import Mathlib.Tactic.Positivity
import Mathlib.Tactic.Ring

/-!
# Numbers that a binary format holds

A format holds the multiples of powers of two whose significand has no more bits than the format
and whose exponent lies in its range.  Rounding leaves such a number as it is, and what rounding
gives is such a number.  Whole numbers below the power of two that the precision names are held,
and so are the whole parts of all numbers that are held.
-/

namespace MediaPhases

/-! ## Rounding to a whole number -/

theorem roundEven_natCast (n : ℕ) : roundEven (n : ℚ) = n := by
  simp [roundEven, roundQuotient, Nat.mod_one]

theorem roundQuotient_le_succ (num den : ℕ) : roundQuotient num den ≤ num / den + 1 := by
  simp only [roundQuotient]
  split_ifs <;> omega

theorem mul_den_eq_toNat {x : ℚ} (hx : 0 ≤ x) : x * x.den = x.num.toNat := by
  have hnum : (x.num.toNat : ℤ) = x.num := Int.toNat_of_nonneg (Rat.num_nonneg.mpr hx)
  rw [Rat.mul_den_eq_num]
  exact_mod_cast hnum.symm

/-- Rounding does not pass a whole number. -/
theorem roundEven_le {x : ℚ} {n : ℕ} (hx : 0 ≤ x) (h : x < n) : roundEven x ≤ n := by
  have hdiv : x.num.toNat / x.den < n := by
    rw [Nat.div_lt_iff_lt_mul x.den_pos]
    have hden : (0 : ℚ) < x.den := Nat.cast_pos.mpr x.den_pos
    have hmul : (x.num.toNat : ℚ) < n * x.den := by
      rw [← mul_den_eq_toNat hx]
      exact mul_lt_mul_of_pos_right h hden
    exact_mod_cast hmul
  have hround := roundQuotient_le_succ x.num.toNat x.den
  rw [roundEven]
  omega

/-! ## The power of two below a number -/

theorem pow_log2_le_cast {n : ℕ} (hn : n ≠ 0) : (2 : ℚ) ^ (n.log2 : ℤ) ≤ n := by
  rw [zpow_natCast]
  exact_mod_cast Nat.log2_self_le hn

theorem cast_lt_pow_log2 (n : ℕ) : (n : ℚ) < (2 : ℚ) ^ ((n.log2 : ℤ) + 1) := by
  have hlt : n < 2 ^ (n.log2 + 1) := Nat.lt_log2_self
  rw [← Nat.cast_one, ← Nat.cast_add, zpow_natCast]
  exact_mod_cast hlt

theorem zpow_log2_sub_lt {x : ℚ} (hx : 0 < x) :
    (2 : ℚ) ^ ((x.num.toNat.log2 : ℤ) - x.den.log2 - 1) < x := by
  have hnum : x.num.toNat ≠ 0 := by
    have hpos := Rat.num_pos.mpr hx
    omega
  have hpos : (0 : ℚ) < 2 ^ ((x.den.log2 : ℤ) + 1) := by positivity
  refine lt_of_mul_lt_mul_right ?_ hpos.le
  calc (2 : ℚ) ^ ((x.num.toNat.log2 : ℤ) - x.den.log2 - 1) * 2 ^ ((x.den.log2 : ℤ) + 1)
      = 2 ^ (x.num.toNat.log2 : ℤ) := by
        rw [← zpow_add₀ two_ne_zero]
        congr 1
        ring
    _ ≤ x * x.den := (pow_log2_le_cast hnum).trans_eq (mul_den_eq_toNat hx.le).symm
    _ < x * 2 ^ ((x.den.log2 : ℤ) + 1) := mul_lt_mul_of_pos_left (cast_lt_pow_log2 x.den) hx

theorem lt_zpow_log2_sub {x : ℚ} (hx : 0 < x) :
    x < (2 : ℚ) ^ ((x.num.toNat.log2 : ℤ) - x.den.log2 + 1) := by
  have hpos : (0 : ℚ) < 2 ^ (x.den.log2 : ℤ) := by positivity
  refine lt_of_mul_lt_mul_right ?_ hpos.le
  calc x * 2 ^ (x.den.log2 : ℤ)
      ≤ x * x.den := mul_le_mul_of_nonneg_left (pow_log2_le_cast x.den_nz) hx.le
    _ < 2 ^ ((x.num.toNat.log2 : ℤ) + 1) :=
        (mul_den_eq_toNat hx.le).trans_lt (cast_lt_pow_log2 x.num.toNat)
    _ = (2 : ℚ) ^ ((x.num.toNat.log2 : ℤ) - x.den.log2 + 1) * 2 ^ (x.den.log2 : ℤ) := by
        rw [← zpow_add₀ two_ne_zero]
        congr 1
        ring

/-- The logarithm that rounding computes is the whole part of the binary logarithm. -/
theorem floorLog2_eq_log {x : ℚ} (hx : 0 < x) : floorLog2 x = Int.log 2 x := by
  have hbelow : (x.num.toNat.log2 : ℤ) - x.den.log2 - 1 ≤ Int.log 2 x := by
    rw [← Int.zpow_le_iff_le_log one_lt_two hx]
    exact_mod_cast (zpow_log2_sub_lt hx).le
  have habove : Int.log 2 x < (x.num.toNat.log2 : ℤ) - x.den.log2 + 1 := by
    rw [← Int.lt_zpow_iff_log_lt one_lt_two hx]
    exact_mod_cast lt_zpow_log2_sub hx
  rw [floorLog2]
  -- The logarithms of numerator and denominator leave two values, which the comparison tells apart.
  by_cases hlt : x < (2 : ℚ) ^ ((x.num.toNat.log2 : ℤ) - x.den.log2)
  · have hlog : Int.log 2 x < (x.num.toNat.log2 : ℤ) - x.den.log2 := by
      rw [← Int.lt_zpow_iff_log_lt one_lt_two hx]
      exact_mod_cast hlt
    simp only [if_pos hlt]
    omega
  · have hlog : (x.num.toNat.log2 : ℤ) - x.den.log2 ≤ Int.log 2 x := by
      rw [← Int.zpow_le_iff_le_log one_lt_two hx]
      exact_mod_cast not_lt.mp hlt
    simp only [if_neg hlt]
    omega

/-! ## Held numbers -/

theorem dyadicValue_nonneg (m : ℕ) (e : ℤ) : 0 ≤ dyadicValue m e := by
  rw [dyadicValue]
  positivity

namespace BinaryFormat

variable {f : BinaryFormat}

/-- The significand has no more bits than the format, and the exponent lies in its range. -/
structure Fits (f : BinaryFormat) (m : ℕ) (e : ℤ) : Prop where
  significand : m < 2 ^ f.precision
  minExponent : f.minExponent ≤ e
  maxExponent : e ≤ f.maxExponent

/-- The format has the number among its values. -/
def Holds (f : BinaryFormat) (x : ℚ) : Prop :=
  ∃ m e, f.Fits m e ∧ dyadicValue m e = x

/-- The exponent for a number is at most that of any way to hold it. -/
theorem exponentFor_le {m : ℕ} {e : ℤ} (h : f.Fits m e) (hm : 0 < dyadicValue m e) :
    f.exponentFor (dyadicValue m e) ≤ e := by
  have hlt : dyadicValue m e < (2 : ℚ) ^ ((f.precision : ℤ) + e) := by
    rw [dyadicValue, zpow_add₀ two_ne_zero, zpow_natCast]
    have hcast : (m : ℚ) < 2 ^ f.precision := by exact_mod_cast h.significand
    exact mul_lt_mul_of_pos_right hcast (by positivity)
  have hlog : Int.log 2 (dyadicValue m e) < (f.precision : ℤ) + e := by
    rw [← Int.lt_zpow_iff_log_lt one_lt_two hm]
    exact_mod_cast hlt
  rw [exponentFor, floorLog2_eq_log hm]
  have hmin := h.minExponent
  omega

/-- At its own exponent a number has no more bits before the point than the format. -/
theorem div_pow_exponentFor_lt (f : BinaryFormat) {x : ℚ} (hx : 0 < x) :
    x / 2 ^ f.exponentFor x < (2 ^ f.precision : ℕ) := by
  have hlt : x < (2 : ℚ) ^ (Int.log 2 x + 1) := by
    exact_mod_cast Int.lt_zpow_succ_log_self (b := 2) one_lt_two x
  have hle : (2 : ℚ) ^ (Int.log 2 x + 1) ≤ 2 ^ ((f.precision : ℤ) + f.exponentFor x) := by
    apply zpow_le_zpow_right₀ one_le_two
    rw [exponentFor, floorLog2_eq_log hx]
    omega
  rw [div_lt_iff₀ (by positivity)]
  push_cast
  rw [← zpow_natCast, ← zpow_add₀ two_ne_zero]
  exact hlt.trans_le hle

/-- Rounding leaves a number that the format holds as it is. -/
theorem nearest_of_holds {x : ℚ} (h : f.Holds x) :
    ∃ m e, f.nearest x = .finite m e ∧ dyadicValue m e = x := by
  obtain ⟨m, e, hfits, rfl⟩ := h
  by_cases hzero : dyadicValue m e = 0
  · refine ⟨0, f.minExponent, ?_, ?_⟩
    · rw [nearest, if_pos hzero]
    · rw [hzero, dyadicValue, Nat.cast_zero, zero_mul]
  have hpos : 0 < dyadicValue m e :=
    lt_of_le_of_ne (dyadicValue_nonneg m e) (Ne.symm hzero)
  set k : ℤ := f.exponentFor (dyadicValue m e) with hk
  have hle : k ≤ e := exponentFor_le hfits hpos
  obtain ⟨j, hj⟩ : ∃ j : ℕ, e = k + j := ⟨(e - k).toNat, by omega⟩
  -- At the chosen exponent the significand is whole, so nothing is rounded.
  have hwhole : dyadicValue m e / 2 ^ k = ((m * 2 ^ j : ℕ) : ℚ) := by
    rw [dyadicValue, hj, zpow_add₀ two_ne_zero, zpow_natCast]
    push_cast
    field_simp
  have hlt : m * 2 ^ j < 2 ^ f.precision := by
    have h := f.div_pow_exponentFor_lt hpos
    rw [← hk, hwhole] at h
    exact_mod_cast h
  have hne : m * 2 ^ j ≠ 1 <<< f.precision := by
    rw [Nat.one_shiftLeft]
    exact hlt.ne
  have hmax : ¬ f.maxExponent < k := not_lt.mpr (hle.trans hfits.maxExponent)
  refine ⟨m * 2 ^ j, k, ?_, ?_⟩
  · rw [nearest, if_neg hzero]
    simp only [← hk, hwhole, roundEven_natCast, carry, if_neg hne, if_neg hmax]
  · rw [dyadicValue, ← hwhole, div_mul_cancel₀ _ (by positivity)]

/-- What rounding gives fits the format. -/
theorem fits_of_nearest {x : ℚ} {m : ℕ} {e : ℤ} (hprecision : 0 < f.precision)
    (hrange : f.minExponent ≤ f.maxExponent) (hx : 0 ≤ x) (h : f.nearest x = .finite m e) :
    f.Fits m e := by
  rw [nearest] at h
  by_cases hzero : x = 0
  · rw [if_pos hzero] at h
    cases h
    exact ⟨by positivity, le_refl _, hrange⟩
  have hpos : 0 < x := lt_of_le_of_ne hx (Ne.symm hzero)
  have hmin : f.minExponent ≤ f.exponentFor x := by
    rw [exponentFor]
    exact le_max_right _ _
  have hround : roundEven (x / 2 ^ f.exponentFor x) ≤ 2 ^ f.precision :=
    roundEven_le (by positivity) (f.div_pow_exponentFor_lt hpos)
  rw [if_neg hzero] at h
  simp only [carry, Nat.one_shiftLeft] at h
  by_cases hcarry : roundEven (x / 2 ^ f.exponentFor x) = 2 ^ f.precision
  · simp only [if_pos hcarry] at h
    split at h
    · cases h
    · cases h
      exact ⟨Nat.pow_lt_pow_right one_lt_two (by omega), by omega, by omega⟩
  · simp only [if_neg hcarry] at h
    split at h
    · cases h
    · cases h
      exact ⟨lt_of_le_of_ne hround hcarry, hmin, by omega⟩

/-- Whole numbers of no more bits than the format are held. -/
theorem holds_natCast {n : ℕ} (h : n < 2 ^ f.precision) (hmin : f.minExponent ≤ 0)
    (hmax : 0 ≤ f.maxExponent) : f.Holds n :=
  ⟨n, 0, ⟨h, hmin, hmax⟩, by simp [dyadicValue]⟩

/-- A power of two only moves the point. -/
theorem holds_mul_pow {n j : ℕ} (h : n < 2 ^ f.precision) (hmin : f.minExponent ≤ 0)
    (hmax : (j : ℤ) ≤ f.maxExponent) : f.Holds (n * 2 ^ j : ℕ) := by
  refine ⟨n, j, ⟨h, hmin.trans (Int.natCast_nonneg j), hmax⟩, ?_⟩
  rw [dyadicValue, zpow_natCast]
  push_cast
  rfl

/-- The whole part of a number that is held is held as well. -/
theorem holds_floor {m : ℕ} {e : ℤ} (h : f.Fits m e) (hmin : f.minExponent ≤ 0)
    (hmax : 0 ≤ f.maxExponent) : f.Holds ((dyadicValue m e).floor.toNat : ℕ) := by
  by_cases he : 0 ≤ e
  · obtain ⟨j, rfl⟩ := Int.eq_ofNat_of_zero_le he
    have hvalue : dyadicValue m j = ((m * 2 ^ j : ℕ) : ℚ) := by
      rw [dyadicValue, zpow_natCast]
      push_cast
      rfl
    refine ⟨m, j, h, ?_⟩
    rw [hvalue, ← Rat.intCast_natCast, Rat.floor_intCast, Int.toNat_natCast, Rat.intCast_natCast]
  · -- Below the point bits are lost, so the whole part is at most the significand.
    have hpow : (2 : ℚ) ^ e ≤ 1 := zpow_le_one_of_nonpos₀ one_le_two (by omega)
    have hle : dyadicValue m e ≤ m := by
      rw [dyadicValue]
      exact mul_le_of_le_one_right (Nat.cast_nonneg m) hpow
    have hfloor : (dyadicValue m e).floor ≤ (m : ℤ) := by
      have hcast : ((dyadicValue m e).floor : ℚ) ≤ (m : ℤ) :=
        (Rat.floor_le _).trans (by exact_mod_cast hle)
      exact_mod_cast hcast
    apply holds_natCast _ hmin hmax
    have hsignificand := h.significand
    omega

/-- A whole number that is held is a whole significand times a power of two of a whole number. -/
theorem Holds.exists_natCast {n : ℕ} (h : f.Holds n) :
    n < 2 ^ f.precision ∨
      ∃ m j : ℕ, n = m * 2 ^ j ∧ m < 2 ^ f.precision ∧ (j : ℤ) ≤ f.maxExponent := by
  obtain ⟨m, e, hfits, hvalue⟩ := h
  rw [dyadicValue] at hvalue
  by_cases he : 0 ≤ e
  · obtain ⟨j, rfl⟩ := Int.eq_ofNat_of_zero_le he
    rw [zpow_natCast] at hvalue
    exact .inr ⟨m, j, by exact_mod_cast hvalue.symm, hfits.significand, hfits.maxExponent⟩
  · have hpow : (2 : ℚ) ^ e ≤ 1 := zpow_le_one_of_nonpos₀ one_le_two (by omega)
    have hle : (n : ℚ) ≤ m := by
      rw [← hvalue]
      exact mul_le_of_le_one_right (Nat.cast_nonneg m) hpow
    exact .inl (lt_of_le_of_lt (by exact_mod_cast hle) hfits.significand)

/-- Dividing by a power of two loses nothing. -/
theorem holds_of_mul_pow {n j : ℕ} (hmin : f.minExponent ≤ 0) (hmax : 0 ≤ f.maxExponent)
    (h : f.Holds (n * 2 ^ j : ℕ)) : f.Holds n := by
  obtain hsmall | ⟨m, i, hvalue, hm, hi⟩ := h.exists_natCast
  · have hle : n ≤ n * 2 ^ j := Nat.le_mul_of_pos_right n (by positivity)
    exact holds_natCast (hle.trans_lt hsmall) hmin hmax
  by_cases hij : j ≤ i
  · have hsplit : 2 ^ i = 2 ^ (i - j) * 2 ^ j := by
      rw [← pow_add, Nat.sub_add_cancel hij]
    rw [hsplit, ← mul_assoc] at hvalue
    have hn : n = m * 2 ^ (i - j) := Nat.eq_of_mul_eq_mul_right (by positivity) hvalue
    refine ⟨m, (i - j : ℕ), ⟨hm, by omega, by omega⟩, ?_⟩
    rw [dyadicValue, zpow_natCast, hn]
    push_cast
    rfl
  · have hsplit : 2 ^ j = 2 ^ (j - i) * 2 ^ i := by
      rw [← pow_add, Nat.sub_add_cancel (by omega)]
    rw [hsplit, ← mul_assoc] at hvalue
    have hn : n * 2 ^ (j - i) = m := Nat.eq_of_mul_eq_mul_right (by positivity) hvalue
    have hle : n ≤ n * 2 ^ (j - i) := Nat.le_mul_of_pos_right n (by positivity)
    exact holds_natCast ((hle.trans_eq hn).trans_lt hm) hmin hmax

/-- A product that the format holds is computed exactly. -/
theorem mul_ofNat_of_holds {m n : ℕ} {e : ℤ} (hn : f.Holds n)
    (h : f.Holds (dyadicValue m e * n)) :
    ∃ m' e', f.mul (.finite m e) (f.ofNat n) = .finite m' e' ∧
      dyadicValue m' e' = dyadicValue m e * n := by
  obtain ⟨k, l, hnearest, hvalue⟩ := nearest_of_holds hn
  obtain ⟨m', e', hproduct, hvalue'⟩ := nearest_of_holds h
  refine ⟨m', e', ?_, hvalue'⟩
  rw [ofNat, hnearest]
  simp only [mul, hvalue, hproduct]

/-- What a product comes to fits the format. -/
theorem fits_of_mul {x y : Magnitude} {m : ℕ} {e : ℤ} (hprecision : 0 < f.precision)
    (hrange : f.minExponent ≤ f.maxExponent) (h : f.mul x y = .finite m e) : f.Fits m e := by
  cases x with
  | infinite => cases h
  | finite m₁ e₁ =>
      cases y with
      | infinite => cases h
      | finite m₂ e₂ =>
          have hnonneg : 0 ≤ dyadicValue m₁ e₁ * dyadicValue m₂ e₂ :=
            mul_nonneg (dyadicValue_nonneg m₁ e₁) (dyadicValue_nonneg m₂ e₂)
          exact fits_of_nearest hprecision hrange hnonneg h

end BinaryFormat

end MediaPhases
