import MediaPhases.Number.Notation
import MediaPhases.Proofs.Number.Decimal

/-!
# Shortest decimals read back

The shortest decimal of a number reads back as the number, since every candidate is read before
it is taken and the exact expansion is left where none is.  Written without an exponent, it is a
plain decimal of the same value.
-/

namespace MediaPhases

variable {m : ℕ} {e : ℤ}

namespace Decimal

/-! ## The decimal that is chosen -/

theorem stripZeros_toRat (fuel : ℕ) (d : Decimal) : (stripZeros fuel d).toRat = d.toRat := by
  induction fuel generalizing d with
  | zero => rfl
  | succ fuel ih =>
      rw [stripZeros]
      by_cases hzero : d.digits ≠ 0 ∧ d.digits % 10 = 0
      · have hdigits : (d.digits : ℚ) = (d.digits / 10 : ℕ) * 10 := by
          exact_mod_cast (Nat.div_mul_cancel (Nat.dvd_of_mod_eq_zero hzero.2)).symm
        rw [if_pos hzero, ih, toRat, toRat, hdigits, zpow_add_one₀ (by norm_num)]
        ring
      · rw [if_neg hzero]

theorem exact_toRat (m : ℕ) (e : ℤ) : (exact m e).toRat = dyadicValue m e := by
  rw [exact]
  by_cases he : 0 ≤ e
  · obtain ⟨j, rfl⟩ := Int.eq_ofNat_of_zero_le he
    simp [toRat, dyadicValue, Nat.shiftLeft_eq]
  · obtain ⟨j, rfl⟩ : ∃ j : ℕ, e = -j := ⟨(-e).toNat, by omega⟩
    have hten : (10 : ℚ) ^ (-j : ℤ) = 2 ^ (-j : ℤ) * 5 ^ (-j : ℤ) := by
      rw [← mul_zpow]
      norm_num
    have hfive : (5 : ℚ) ^ j * 5 ^ (-j : ℤ) = 1 := by
      rw [← zpow_natCast, ← zpow_add₀ (by norm_num), add_neg_cancel, zpow_zero]
    have hpow : Nat.pow 5 j = 5 ^ j := rfl
    rw [if_neg he, toRat, dyadicValue, neg_neg, Int.toNat_natCast, hten, hpow]
    push_cast
    calc (m : ℚ) * 5 ^ j * (2 ^ (-j : ℤ) * 5 ^ (-j : ℤ))
        = m * 2 ^ (-j : ℤ) * (5 ^ j * 5 ^ (-j : ℤ)) := by ring
      _ = m * 2 ^ (-j : ℤ) := by rw [hfive, mul_one]

/-- A candidate is taken only where it reads back. -/
theorem nearest_of_onGrid? {f : BinaryFormat} {tie : DecimalTie} {x : ℚ} {k : ℤ} {d : Decimal}
    (h : onGrid? f tie m e x k = some d) : d.nearest f = .finite m e := by
  simp only [onGrid?] at h
  split at h
  · rename_i hlow hhigh
    cases h
    split
    · exact of_decide_eq_true hlow
    · exact of_decide_eq_true hhigh
  · rename_i hlow _
    cases h
    exact of_decide_eq_true hlow
  · rename_i _ hhigh
    cases h
    exact of_decide_eq_true hhigh
  · cases h

/-- The shortest decimal of a number that double precision holds is rounded to that number. -/
theorem exists_nearest_shortest (hfits : BinaryFormat.double.Fits m e) (tie : DecimalTie)
    (limit : ℕ) :
    ∃ m' e', BinaryFormat.double.nearest (shortest .double tie limit m e).toRat =
      .finite m' e' ∧ dyadicValue m' e' = dyadicValue m e := by
  have hexact : ∃ m' e', BinaryFormat.double.nearest (dyadicValue m e) = .finite m' e' ∧
      dyadicValue m' e' = dyadicValue m e :=
    BinaryFormat.nearest_of_holds ⟨m, e, hfits, rfl⟩
  rw [shortest]
  by_cases hzero : m = 0
  · have hvalue : (⟨0, 0⟩ : Decimal).toRat = dyadicValue m e := by
      simp [toRat, dyadicValue, hzero]
    rw [if_pos hzero, hvalue]
    exact hexact
  simp only [if_neg hzero, stripZeros_toRat]
  cases hfound : ((List.range limit).map fun n : ℕ =>
      floorLog10 (dyadicValue m e) - (n : ℤ)).findSome? (onGrid? .double tie m e (dyadicValue m e))
    with
  | none =>
      rw [Option.getD_none, exact_toRat]
      exact hexact
  | some d =>
      obtain ⟨k, -, hgrid⟩ := List.exists_of_findSome?_eq_some hfound
      rw [Option.getD_some, ← nearest_double]
      exact ⟨m, e, nearest_of_onGrid? hgrid, rfl⟩

end Decimal

/-! ## The text of a decimal -/

namespace NumberNotation

open Decimal

theorem isPositional_plain (p : ℤ) : plain.isPositional p = true := by
  rfl

/-- Digits and the power of ten that they are to be shifted by, written without an exponent. -/
theorem exists_plainDecimal?_positional {ds : List Char} (hdigits : ds.all Char.isDigit = true)
    (hne : ds ≠ []) (p : ℤ) : ∃ d, plainDecimal? (plain.positional ds p) = some d ∧
      d.toRat = digitsValue ds * 10 ^ (p - ds.length) := by
  rw [positional]
  by_cases hsmall : p ≤ 0
  · -- All digits stand after the point, with zeros between.
    rw [if_pos hsmall]
    refine ⟨_, plainDecimal?_eq_some_iff.mpr
      ⟨['0'], List.replicate (-p).toNat '0' ++ ds, ?_, by simp, rfl, .inl rfl⟩, ?_⟩
    · simp only [List.all_append, all_isDigit_replicate_zero, hdigits]
      rfl
    · have hexponent : -(((-p).toNat + ds.length : ℕ) : ℤ) = p - ds.length := by omega
      have hvalue : digitsValue ['0'] = 0 := by decide
      rw [ofParts_toRat, digitsValue_append, hvalue, Nat.zero_mul, Nat.zero_add,
        digitsValue_replicate_append, List.length_append, List.length_replicate, hexponent]
  rw [if_neg hsmall]
  by_cases hlarge : ds.length ≤ p.toNat
  · -- The digits are filled up with zeros to a whole number.
    rw [if_pos hlarge]
    refine ⟨_, plainDecimal?_eq_some_iff.mpr
      ⟨ds ++ List.replicate (p.toNat - ds.length) '0', [], ?_, by simp [hne], rfl,
        .inr ⟨by simp [plain], rfl⟩⟩, ?_⟩
    · simp only [List.all_append, all_isDigit_replicate_zero, hdigits]
      rfl
    · have hexponent : p - ds.length = (p.toNat - ds.length : ℕ) := by omega
      rw [ofParts_toRat, List.append_nil, digitsValue_append_replicate, hexponent, zpow_natCast]
      push_cast
      simp
  · -- The point stands between two digits.
    rw [if_neg hlarge]
    refine ⟨_, plainDecimal?_eq_some_iff.mpr ⟨ds.take p.toNat, ds.drop p.toNat, ?_, ?_, rfl,
      .inl rfl⟩, ?_⟩
    · rw [List.take_append_drop]
      exact hdigits
    · rw [List.take_append_drop]
      exact hne
    · have hexponent : -((ds.length - p.toNat : ℕ) : ℤ) = p - ds.length := by omega
      rw [ofParts_toRat, List.take_append_drop, List.length_drop, hexponent]

/-- Without an exponent every decimal is written as a plain one of the same value. -/
theorem exists_plainDecimal?_spell (d : Decimal) :
    ∃ d', plainDecimal? (plain.spell d) = some d' ∧ d'.toRat = d.toRat := by
  rw [spell]
  by_cases hzero : d.digits = 0
  · refine ⟨⟨0, 0⟩, ?_, ?_⟩
    · rw [if_pos hzero]
      rfl
    · simp [toRat, hzero]
  simp only [if_neg hzero, isPositional_plain, if_true]
  obtain ⟨d', hread, hvalue⟩ := exists_plainDecimal?_positional
    (all_isDigit_decimalDigits d.digits) (decimalDigits_ne_nil d.digits)
    ((decimalDigits d.digits).length + d.exponent)
  refine ⟨d', hread, ?_⟩
  rw [hvalue, digitsValue_decimalDigits, add_sub_cancel_left, toRat]

/-- The text of a number that double precision holds, without an exponent, is a plain decimal that
is rounded to that number. -/
theorem exists_plainDecimal?_text (hfits : BinaryFormat.double.Fits m e) :
    ∃ d m' e', plainDecimal? (plain.text (.finite false m e)).toList = some d ∧
      d.nearest .double = .finite m' e' ∧ dyadicValue m' e' = dyadicValue m e := by
  obtain ⟨d, hspell, hvalue⟩ :=
    exists_plainDecimal?_spell (Decimal.shortest .double plain.tie 17 m e)
  obtain ⟨m', e', hnearest, hdyadic⟩ := exists_nearest_shortest hfits plain.tie 17
  refine ⟨d, m', e', ?_, ?_, hdyadic⟩
  · rw [text, String.toList_ofList]
    exact hspell
  · rw [nearest_double, hvalue, hnearest]

end NumberNotation

end MediaPhases
