import MediaPhases.Proofs.Number.Digits
import MediaPhases.Proofs.Number.Nearest

/-!
# Decimals by their value

A decimal is rounded by its value alone.  Those far below or far beyond the range of double
precision are decided by their size, which agrees with rounding the value.  A text that is read as a
plain decimal is one of digits with at most one point.
-/

namespace MediaPhases

variable {n : ℕ} {cs : List Char} {d : Decimal}

/-! ## Digits -/

theorem digitsValue_append (xs ys : List Char) :
    digitsValue (xs ++ ys) = digitsValue xs * 10 ^ ys.length + digitsValue ys := by
  have hfold : ∀ (ys : List Char) (init : ℕ),
      ys.foldl (fun n c => n * 10 + digitValue c) init =
        init * 10 ^ ys.length + digitsValue ys := by
    intro ys
    induction ys with
    | nil =>
        intro init
        simp [digitsValue]
    | cons y ys ih =>
        intro init
        rw [digitsValue, List.foldl_cons, List.foldl_cons, ih, ih (0 * 10 + digitValue y),
          List.length_cons, pow_succ]
        ring
  rw [digitsValue, List.foldl_append, hfold, ← digitsValue]

theorem digitsValue_replicate_zero (k : ℕ) : digitsValue (List.replicate k '0') = 0 := by
  induction k with
  | zero => rfl
  | succ k ih =>
      have hzero : digitsValue ['0'] = 0 := by decide
      rw [List.replicate_succ', digitsValue_append, ih, hzero, Nat.zero_mul]

/-- Zeros at the start do not count. -/
theorem digitsValue_replicate_append (k : ℕ) (ds : List Char) :
    digitsValue (List.replicate k '0' ++ ds) = digitsValue ds := by
  rw [digitsValue_append, digitsValue_replicate_zero, Nat.zero_mul, Nat.zero_add]

/-- Zeros at the end shift the number. -/
theorem digitsValue_append_replicate (ds : List Char) (k : ℕ) :
    digitsValue (ds ++ List.replicate k '0') = digitsValue ds * 10 ^ k := by
  rw [digitsValue_append, digitsValue_replicate_zero, List.length_replicate, Nat.add_zero]

theorem all_isDigit_replicate_zero (k : ℕ) : (List.replicate k '0').all Char.isDigit = true := by
  rw [List.all_eq_true]
  intro c hc
  rw [List.eq_of_mem_replicate hc]
  rfl

namespace Decimal

/-! ## The size of a decimal -/

theorem lt_pow_size (n : ℕ) : n < 10 ^ size n := by
  rw [size]
  split_ifs with hzero
  · simp [hzero]
  · exact (Nat.length_toDigits_le_iff (by decide) (Nat.length_toDigits_pos)).mp le_rfl

theorem pow_size_le (hn : n ≠ 0) : 10 ^ (size n - 1) ≤ n := by
  rw [size, if_neg hn]
  by_contra hlt
  by_cases hone : (decimalDigits n).length - 1 = 0
  · rw [hone] at hlt
    omega
  · have hle := (Nat.length_toDigits_le_iff (by decide) (Nat.pos_of_ne_zero hone)).mpr
      (not_le.mp hlt)
    rw [decimalDigits] at hone hle
    omega

theorem size_pos (hn : n ≠ 0) : 0 < size n := by
  rw [size, if_neg hn]
  exact Nat.length_toDigits_pos

theorem toRat_lt (d : Decimal) : d.toRat < 10 ^ ((size d.digits : ℤ) + d.exponent) := by
  have hlt : (d.digits : ℚ) < 10 ^ size d.digits := by exact_mod_cast lt_pow_size d.digits
  rw [toRat, zpow_add₀ (by norm_num), zpow_natCast]
  exact mul_lt_mul_of_pos_right hlt (by positivity)

theorem le_toRat (hd : d.digits ≠ 0) :
    (10 : ℚ) ^ ((size d.digits : ℤ) + d.exponent - 1) ≤ d.toRat := by
  have hpos := size_pos hd
  have hle : (10 : ℚ) ^ (size d.digits - 1) ≤ d.digits := by exact_mod_cast pow_size_le hd
  have hsplit : (size d.digits : ℤ) + d.exponent - 1 = (size d.digits - 1 : ℕ) + d.exponent := by
    omega
  rw [toRat, hsplit, zpow_add₀ (by norm_num), zpow_natCast]
  exact mul_le_mul_of_nonneg_right hle (by positivity)

/-! ## Plain decimals -/

theorem ofParts_toRat (whole fraction : List Char) : (ofParts whole fraction).toRat =
    digitsValue (whole ++ fraction) * 10 ^ (-(fraction.length : ℤ)) := by
  rfl

/-- What is read as a plain decimal: digits, with a point before, between or after them or with
none. -/
theorem plainDecimal?_eq_some_iff : plainDecimal? cs = some d ↔
    ∃ whole fraction : List Char, (whole ++ fraction).all Char.isDigit = true ∧
      whole ++ fraction ≠ [] ∧ d = ofParts whole fraction ∧
        (cs = whole ++ '.' :: fraction ∨ cs = whole ∧ fraction = []) := by
  constructor
  · intro h
    simp only [plainDecimal?] at h
    have hwhole : (cs.takeWhile Char.isDigit).all Char.isDigit = true :=
      List.all_takeWhile
    have hsplit : cs.takeWhile Char.isDigit ++ cs.dropWhile Char.isDigit = cs :=
      List.takeWhile_append_dropWhile
    split at h
    · rename_i fraction hfraction
      split_ifs at h with hdigits
      cases h
      simp only [Bool.and_eq_true, Bool.not_eq_true', List.isEmpty_eq_false_iff] at hdigits
      refine ⟨_, fraction, ?_, hdigits.2, rfl, ?_⟩
      · rw [List.all_append, hwhole, hdigits.1]
        rfl
      · split at hfraction
        · rename_i rest hrest
          cases hfraction
          exact .inl (by rw [← hrest, hsplit])
        · rename_i hnil
          cases hfraction
          rw [hnil, List.append_nil] at hsplit
          exact .inr ⟨hsplit.symm, rfl⟩
        · cases hfraction
    · cases h
  · rintro ⟨whole, fraction, hdigits, hne, rfl, hcs⟩
    rw [List.all_append, Bool.and_eq_true] at hdigits
    have hne' : (whole ++ fraction).isEmpty = false := List.isEmpty_eq_false_iff.mpr hne
    obtain rfl | ⟨rfl, rfl⟩ := hcs
    · have hstop : ∀ c ∈ ('.' :: fraction).head?, c.isDigit = false := by
        simp
      obtain ⟨htake, hdrop⟩ := takeWhile_append_of_all hdigits.1 hstop
      simp only [plainDecimal?, htake, hdrop, hdigits.2, hne', Bool.not_false, Bool.and_self,
        if_true]
    · have hstop : ∀ c ∈ ([] : List Char).head?, c.isDigit = false := by
        simp
      obtain ⟨htake, hdrop⟩ := takeWhile_append_of_all hdigits.1 hstop
      rw [List.append_nil] at htake hdrop
      simp only [plainDecimal?, htake, hdrop, hdigits.2, hne', Bool.not_false, Bool.and_self,
        if_true]

/-! ## Decimals far out of range -/

theorem zpow_two_le_zpow_ten {k : ℤ} (hk : 0 ≤ k) : (2 : ℚ) ^ (3 * k) ≤ 10 ^ k := by
  obtain ⟨j, rfl⟩ := Int.eq_ofNat_of_zero_le hk
  have height : (2 : ℚ) ^ (3 * j : ℤ) = 8 ^ j := by
    rw [zpow_mul, zpow_natCast]
    norm_num
  rw [height, zpow_natCast]
  exact pow_le_pow_left₀ (by norm_num) (by norm_num) j

/-- A decimal below every exponent of the format is rounded to zero. -/
theorem nearest_toRat_of_small (hd : d.digits ≠ 0)
    (htop : (size d.digits : ℤ) + d.exponent < -400) :
    BinaryFormat.double.nearest d.toRat = .finite 0 BinaryFormat.double.minExponent := by
  have hpos : 0 < d.toRat := lt_of_lt_of_le (by positivity) (le_toRat hd)
  have hbound : d.toRat < 2 ^ (-1076 : ℤ) := by
    have hten := zpow_two_le_zpow_ten (k := -((size d.digits : ℤ) + d.exponent)) (by omega)
    have hinv := inv_anti₀ (by positivity) hten
    rw [← zpow_neg, ← zpow_neg, neg_neg] at hinv
    calc d.toRat
        < 10 ^ ((size d.digits : ℤ) + d.exponent) := d.toRat_lt
      _ ≤ 2 ^ (-(3 * -((size d.digits : ℤ) + d.exponent))) := hinv
      _ ≤ 2 ^ (-1076 : ℤ) := zpow_le_zpow_right₀ one_le_two (by omega)
  have hexponent : BinaryFormat.double.exponentFor d.toRat = -1074 := by
    have hle := BinaryFormat.exponentFor_le_of_lt (f := .double) hpos hbound
    have hge : (-1074 : ℤ) ≤ BinaryFormat.double.exponentFor d.toRat := le_max_right _ _
    simp only [BinaryFormat.double] at hle hge ⊢
    omega
  have hround : roundEven (d.toRat / 2 ^ (-1074 : ℤ)) = 0 := by
    apply roundEven_eq_of_abs_sub_lt (by positivity)
    rw [Nat.cast_zero, sub_zero, abs_of_nonneg (by positivity), div_lt_iff₀ (by positivity)]
    refine hbound.trans_le ?_
    rw [show (-1076 : ℤ) = -2 + -1074 by norm_num, zpow_add₀ two_ne_zero]
    exact mul_le_mul_of_nonneg_right (by norm_num) (by positivity)
  rw [BinaryFormat.nearest, if_neg hpos.ne', hexponent]
  simp only [hround]
  rfl

/-- A decimal beyond every exponent of the format is rounded to infinity. -/
theorem nearest_toRat_of_large (hd : d.digits ≠ 0)
    (htop : 400 < (size d.digits : ℤ) + d.exponent) :
    BinaryFormat.double.nearest d.toRat = .infinite := by
  have hpos : 0 < d.toRat := lt_of_lt_of_le (by positivity) (le_toRat hd)
  have hbound : (2 : ℚ) ^ (1200 : ℤ) ≤ d.toRat := by
    calc (2 : ℚ) ^ (1200 : ℤ)
        ≤ 2 ^ (3 * ((size d.digits : ℤ) + d.exponent - 1)) :=
          zpow_le_zpow_right₀ one_le_two (by omega)
      _ ≤ 10 ^ ((size d.digits : ℤ) + d.exponent - 1) := zpow_two_le_zpow_ten (by omega)
      _ ≤ d.toRat := le_toRat hd
  have hexponent := BinaryFormat.le_exponentFor_of_le (f := .double) hbound
  have hlarge : BinaryFormat.double.maxExponent < BinaryFormat.double.exponentFor d.toRat := by
    simp only [BinaryFormat.double] at hexponent ⊢
    omega
  rw [BinaryFormat.nearest, if_neg hpos.ne']
  simp only [BinaryFormat.carry]
  rw [if_pos]
  split <;> omega

/-- A decimal is rounded by its value, whatever its digits and its exponent. -/
theorem nearest_double (d : Decimal) :
    d.nearest .double = BinaryFormat.double.nearest d.toRat := by
  by_cases hd : d.digits = 0
  · simp [nearest, toRat, hd, BinaryFormat.nearest]
  rw [nearest]
  by_cases hsmall : (size d.digits : ℤ) + d.exponent < -400
  · simp only [if_pos (Or.inr hsmall), nearest_toRat_of_small hd hsmall]
  have hnear : ¬(d.digits = 0 ∨ (size d.digits : ℤ) + d.exponent < -400) := by
    rintro (hzero | hlt)
    · exact hd hzero
    · exact hsmall hlt
  by_cases hlarge : 400 < (size d.digits : ℤ) + d.exponent
  · simp only [if_neg hnear, if_pos hlarge, nearest_toRat_of_large hd hlarge]
  · simp only [if_neg hnear, if_neg hlarge]

end Decimal

end MediaPhases
