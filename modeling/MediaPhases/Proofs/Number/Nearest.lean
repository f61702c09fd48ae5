import MediaPhases.Proofs.Number.Rounding

/-!
# Rounding to the nearest number

What a number is rounded to is at most half a unit of its last place away, and no number that the
format holds is nearer.  Numbers of one size that are held lie on one grid, so that two of them
that are closer than a unit are the same.
-/

namespace MediaPhases

variable {x : ℚ}

/-! ## Whole numbers -/

theorem roundQuotient_bounds (num : ℕ) {den : ℕ} (hden : 0 < den) :
    2 * (den * roundQuotient num den) ≤ 2 * num + den ∧
      2 * num ≤ 2 * (den * roundQuotient num den) + den := by
  have hdiv : den * (num / den) + num % den = num := Nat.div_add_mod num den
  have hmod : num % den < den := Nat.mod_lt num hden
  simp only [roundQuotient]
  generalize num / den = q at hdiv
  generalize num % den = r at hdiv hmod
  split_ifs
  all_goals
    try rw [Nat.mul_add_one]
    omega

/-- A number is rounded by at most a half. -/
theorem abs_sub_roundEven_le (hx : 0 ≤ x) : |x - roundEven x| ≤ 1 / 2 := by
  have hden : (0 : ℚ) < x.den := Nat.cast_pos.mpr x.den_pos
  have hnum := mul_den_eq_toNat hx
  obtain ⟨hlow, hhigh⟩ := roundQuotient_bounds x.num.toNat x.den_pos
  have hlow' : 2 * ((x.den : ℚ) * roundEven x) ≤ 2 * (x * x.den) + x.den := by
    rw [hnum, roundEven]
    exact_mod_cast hlow
  have hhigh' : 2 * (x * x.den) ≤ 2 * ((x.den : ℚ) * roundEven x) + x.den := by
    rw [hnum, roundEven]
    exact_mod_cast hhigh
  rw [abs_le]
  constructor
  · apply le_of_mul_le_mul_right _ hden
    linarith
  · apply le_of_mul_le_mul_right _ hden
    linarith

theorem eq_of_abs_sub_lt_one {m n : ℕ} (h : |(m : ℚ) - n| < 1) : m = n := by
  have hcast : |(m : ℤ) - n| < 1 := by exact_mod_cast h
  rw [Int.abs_lt_one_iff] at hcast
  omega

/-- The whole number that is less than a half away is the one that rounding gives. -/
theorem roundEven_eq_of_abs_sub_lt {n : ℕ} (hx : 0 ≤ x) (h : |x - n| < 1 / 2) :
    roundEven x = n := by
  apply eq_of_abs_sub_lt_one
  calc |(roundEven x : ℚ) - n|
      ≤ |(roundEven x : ℚ) - x| + |x - n| := abs_sub_le _ _ _
    _ = |x - roundEven x| + |x - n| := by rw [abs_sub_comm]
    _ < 1 := by linarith [abs_sub_roundEven_le hx]

/-- No whole number is nearer than the one that rounding gives. -/
theorem abs_sub_roundEven_le_abs_sub (hx : 0 ≤ x) (n : ℕ) : |x - roundEven x| ≤ |x - n| := by
  by_cases hhalf : |x - n| < 1 / 2
  · rw [roundEven_eq_of_abs_sub_lt hx hhalf]
  · exact (abs_sub_roundEven_le hx).trans (not_lt.mp hhalf)

/-! ## Numbers of a format -/

namespace BinaryFormat

variable {f : BinaryFormat} {y : ℚ} {m : ℕ} {e : ℤ}

/-- Rounding takes the nearest whole multiple of the unit of the last place. -/
theorem dyadicValue_of_nearest (hprecision : 0 < f.precision) (h : f.nearest x = .finite m e) :
    dyadicValue m e = roundEven (x / 2 ^ f.exponentFor x) * 2 ^ f.exponentFor x := by
  rw [nearest] at h
  by_cases hzero : x = 0
  · rw [if_pos hzero] at h
    cases h
    simp [hzero, dyadicValue, roundEven, roundQuotient]
  rw [if_neg hzero] at h
  simp only [carry, Nat.one_shiftLeft] at h
  by_cases hcarry : roundEven (x / 2 ^ f.exponentFor x) = 2 ^ f.precision
  · simp only [if_pos hcarry] at h
    split at h
    · cases h
    · cases h
      obtain ⟨p, hp⟩ : ∃ p, f.precision = p + 1 := ⟨f.precision - 1, by omega⟩
      rw [dyadicValue, hcarry, hp, Nat.add_sub_cancel, zpow_add_one₀ two_ne_zero]
      push_cast
      ring
  · simp only [if_neg hcarry] at h
    split at h
    · cases h
    · cases h
      rw [dyadicValue]

theorem abs_sub_mul_zpow (x z : ℚ) (e : ℤ) :
    |x - z * 2 ^ e| = |x / 2 ^ e - z| * 2 ^ e := by
  have hpos : (0 : ℚ) < 2 ^ e := by positivity
  rw [← abs_of_pos hpos, ← abs_mul, sub_mul, abs_of_pos hpos, div_mul_cancel₀ _ hpos.ne']

/-- A number is rounded by at most half a unit of its last place. -/
theorem abs_sub_nearest_le (hprecision : 0 < f.precision) (hx : 0 ≤ x)
    (h : f.nearest x = .finite m e) :
    |x - dyadicValue m e| ≤ 1 / 2 * 2 ^ f.exponentFor x := by
  rw [dyadicValue_of_nearest hprecision h, abs_sub_mul_zpow]
  exact mul_le_mul_of_nonneg_right (abs_sub_roundEven_le (by positivity)) (by positivity)

theorem abs_sub_nearest_le_of_le {k : ℤ} (hprecision : 0 < f.precision) (hx : 0 ≤ x)
    (h : f.nearest x = .finite m e) (hk : f.exponentFor x ≤ k) :
    |x - dyadicValue m e| ≤ 1 / 2 * 2 ^ k := by
  apply (abs_sub_nearest_le hprecision hx h).trans
  exact mul_le_mul_of_nonneg_left (zpow_le_zpow_right₀ one_le_two hk) (by norm_num)

/-- Below the unit of the last place of `x` the numbers that are held lie below `x`, and so does a
whole significand at that place. -/
theorem exists_between_of_holds (hprecision : 0 < f.precision) (hx : 0 < x)
    (hfits : f.Fits m e) (hlt : e < f.exponentFor x) :
    ∃ n : ℕ, dyadicValue m e ≤ n * 2 ^ f.exponentFor x ∧ n * 2 ^ f.exponentFor x ≤ x := by
  obtain ⟨p, hp⟩ : ∃ p, f.precision = p + 1 := ⟨f.precision - 1, by omega⟩
  have hexponent : f.exponentFor x = Int.log 2 x - p := by
    have hmin := hfits.minExponent
    rw [exponentFor, floorLog2_eq_log hx] at hlt ⊢
    omega
  have hpower : ((2 ^ p : ℕ) : ℚ) * 2 ^ f.exponentFor x = 2 ^ Int.log 2 x := by
    rw [hexponent, Nat.cast_pow, Nat.cast_ofNat, ← zpow_natCast, ← zpow_add₀ two_ne_zero]
    congr 1
    ring
  refine ⟨2 ^ p, ?_, ?_⟩
  · have hm : (m : ℚ) ≤ 2 ^ f.precision := by exact_mod_cast hfits.significand.le
    calc dyadicValue m e
        ≤ 2 ^ f.precision * 2 ^ e := mul_le_mul_of_nonneg_right hm (by positivity)
      _ = 2 ^ ((f.precision : ℤ) + e) := by rw [zpow_add₀ two_ne_zero, zpow_natCast]
      _ ≤ 2 ^ Int.log 2 x := zpow_le_zpow_right₀ one_le_two (by omega)
      _ = ((2 ^ p : ℕ) : ℚ) * 2 ^ f.exponentFor x := hpower.symm
  · rw [hpower]
    exact_mod_cast Int.zpow_log_le_self one_lt_two hx

/-- No number that the format holds is nearer than the one that rounding gives. -/
theorem abs_sub_nearest_le_abs_sub (hprecision : 0 < f.precision) (hx : 0 ≤ x)
    (h : f.nearest x = .finite m e) (hy : f.Holds y) : |x - dyadicValue m e| ≤ |x - y| := by
  by_cases hzero : x = 0
  · have hvalue : dyadicValue m e = 0 := by
      rw [dyadicValue_of_nearest hprecision h, hzero]
      simp [roundEven, roundQuotient]
    simp [hzero, hvalue]
  have hpos : 0 < x := lt_of_le_of_ne hx (Ne.symm hzero)
  have hgrid : ∀ n : ℕ, |x - dyadicValue m e| ≤ |x - n * 2 ^ f.exponentFor x| := by
    intro n
    rw [dyadicValue_of_nearest hprecision h, abs_sub_mul_zpow, abs_sub_mul_zpow]
    exact mul_le_mul_of_nonneg_right (abs_sub_roundEven_le_abs_sub (by positivity) n)
      (by positivity)
  obtain ⟨k, i, hfits, rfl⟩ := hy
  by_cases hle : f.exponentFor x ≤ i
  · obtain ⟨j, hj⟩ : ∃ j : ℕ, i = f.exponentFor x + j := ⟨(i - f.exponentFor x).toNat, by omega⟩
    have hmultiple : dyadicValue k i = ((k * 2 ^ j : ℕ) : ℚ) * 2 ^ f.exponentFor x := by
      rw [dyadicValue, hj, zpow_add₀ two_ne_zero, zpow_natCast]
      push_cast
      ring
    rw [hmultiple]
    exact hgrid _
  · obtain ⟨n, hbelow, habove⟩ :=
      exists_between_of_holds hprecision hpos hfits (not_le.mp hle)
    calc |x - dyadicValue m e|
        ≤ |x - n * 2 ^ f.exponentFor x| := hgrid n
      _ = x - n * 2 ^ f.exponentFor x := abs_of_nonneg (sub_nonneg.mpr habove)
      _ ≤ x - dyadicValue k i := by linarith
      _ ≤ |x - dyadicValue k i| := le_abs_self _

/-! ## The size of a number -/

theorem exponentFor_le_of_lt {k : ℤ} (hx : 0 < x) (h : x < 2 ^ k) :
    f.exponentFor x ≤ max (k - f.precision) f.minExponent := by
  have hlog : Int.log 2 x < k := by
    rw [← Int.lt_zpow_iff_log_lt one_lt_two hx]
    exact_mod_cast h
  rw [exponentFor, floorLog2_eq_log hx]
  omega

theorem le_exponentFor_of_le {k : ℤ} (h : 2 ^ k ≤ x) :
    k - f.precision + 1 ≤ f.exponentFor x := by
  have hx : 0 < x := lt_of_lt_of_le (by positivity) h
  have hlog : k ≤ Int.log 2 x := by
    rw [← Int.zpow_le_iff_le_log one_lt_two hx]
    exact_mod_cast h
  rw [exponentFor, floorLog2_eq_log hx]
  omega

/-- A number whose last place lies below the largest exponent is not rounded to infinity. -/
theorem exists_nearest_of_exponentFor_lt (h : f.exponentFor x < f.maxExponent) :
    ∃ m e, f.nearest x = .finite m e := by
  rw [nearest]
  by_cases hzero : x = 0
  · rw [if_pos hzero]
    exact ⟨_, _, rfl⟩
  · have hmax : ∀ (p : Prop) [Decidable p],
        ¬f.maxExponent < if p then f.exponentFor x + 1 else f.exponentFor x := by
      intro p _
      split <;> omega
    simp only [if_neg hzero, carry, if_neg (hmax _)]
    exact ⟨_, _, rfl⟩

/-- From a power of two on, the numbers that are held are multiples of one unit. -/
theorem Holds.exists_mul_zpow {k : ℤ} (h : f.Holds y) (hle : 2 ^ k ≤ y) :
    ∃ n : ℕ, y = n * 2 ^ (k + 1 - f.precision) := by
  obtain ⟨m, e, hfits, rfl⟩ := h
  have hm : (m : ℚ) < 2 ^ f.precision := by exact_mod_cast hfits.significand
  have hpower : (2 : ℚ) ^ k < 2 ^ ((f.precision : ℤ) + e) := by
    calc (2 : ℚ) ^ k
        ≤ m * 2 ^ e := hle
      _ < 2 ^ f.precision * 2 ^ e := mul_lt_mul_of_pos_right hm (by positivity)
      _ = 2 ^ ((f.precision : ℤ) + e) := by rw [zpow_add₀ two_ne_zero, zpow_natCast]
  have hlt : k < (f.precision : ℤ) + e := (zpow_lt_zpow_iff_right₀ one_lt_two).mp hpower
  obtain ⟨j, hj⟩ : ∃ j : ℕ, e = k + 1 - f.precision + j :=
    ⟨(e - (k + 1 - f.precision)).toNat, by omega⟩
  refine ⟨m * 2 ^ j, ?_⟩
  rw [dyadicValue, hj, zpow_add₀ two_ne_zero, zpow_natCast]
  push_cast
  ring

/-- Two numbers of one size that are held and closer than a unit are equal. -/
theorem Holds.eq_of_abs_sub_lt {k : ℤ} (hx : f.Holds x) (hy : f.Holds y) (hxle : 2 ^ k ≤ x)
    (hyle : 2 ^ k ≤ y) (h : |x - y| < 2 ^ (k + 1 - f.precision)) : x = y := by
  obtain ⟨m, rfl⟩ := hx.exists_mul_zpow hxle
  obtain ⟨n, rfl⟩ := hy.exists_mul_zpow hyle
  have hpos : (0 : ℚ) < 2 ^ (k + 1 - f.precision) := by positivity
  rw [abs_sub_mul_zpow, mul_div_cancel_right₀ _ hpos.ne'] at h
  rw [eq_of_abs_sub_lt_one ((mul_lt_iff_lt_one_left hpos).mp h)]

end BinaryFormat

end MediaPhases
