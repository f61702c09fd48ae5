import MediaPhases.Proofs.Number.Nearest
import MediaPhases.Proofs.Threshold.Timespan

/-!
# Parts of a second read back

A duration that was rounded from a number in double precision is shown through the sum of its
seconds and its nanoseconds, rounded twice.  Below `2 ^ 23` seconds that sum is less than half a
nanosecond off; from there on it is the number that the duration was rounded from.  In both cases
it is rounded to the same nanoseconds again.
-/

namespace MediaPhases.Timespan

open BinaryFormat (double)

variable {t : Timespan} {v w f : ℚ} {s n : ℕ}

/-! ## The number that a duration was rounded from -/

/-- The duration is the number of seconds `v`, which double precision holds, rounded to whole
nanoseconds. -/
structure IsRounding (t : Timespan) (v : ℚ) : Prop where
  holds : double.Holds v
  nonneg : 0 ≤ v
  nanos : roundEven (v * 1000000000) = t.seconds * 1000000000 + t.nanos

/-- From `2 ^ 52` on, double precision holds whole numbers only. -/
theorem exists_eq_natCast (hv : double.Holds v) (hle : 2 ^ (52 : ℤ) ≤ v) : ∃ i : ℕ, v = i := by
  obtain ⟨i, hi⟩ := hv.exists_mul_zpow hle
  refine ⟨i, ?_⟩
  rw [hi]
  simp [double]

/-- The seconds of a duration that was rounded from a held number are held. -/
theorem IsRounding.holds_seconds (h : t.IsRounding v) : double.Holds t.seconds := by
  have hround := h.nanos
  have hv0 := h.nonneg
  have hnanos := t.nanos_lt
  by_cases hlarge : (2 : ℚ) ^ (52 : ℤ) ≤ v
  · obtain ⟨i, rfl⟩ := exists_eq_natCast h.holds hlarge
    have hcast : (i : ℚ) * 1000000000 = ((i * 1000000000 : ℕ) : ℚ) := by
      push_cast
      rfl
    rw [hcast, roundEven_natCast] at hround
    have hseconds : t.seconds = i := by omega
    rw [hseconds]
    exact h.holds
  · have hbound : v * 1000000000 < ((2 ^ 52 * 1000000000 : ℕ) : ℚ) := by
      push_cast
      have hlt : v < 2 ^ 52 := by exact_mod_cast not_le.mp hlarge
      linarith
    have hle := roundEven_le (by positivity) hbound
    rw [hround] at hle
    have hlt : t.seconds < 2 ^ double.precision := by
      simp only [double]
      omega
    exact BinaryFormat.holds_natCast hlt (by decide) (by decide)

/-! ## Rounding to the same nanoseconds again -/

/-- Two roundings by less than half a nanosecond together are undone. -/
theorem roundEven_of_small (hw : 0 ≤ w) (hf : |n / 1000000000 - f| ≤ 2 ^ (-54 : ℤ))
    (hsum : |s + f - w| ≤ 2 ^ (-31 : ℤ)) :
    roundEven (w * 1000000000) = s * 1000000000 + n := by
  apply roundEven_eq_of_abs_sub_lt (by positivity)
  rw [abs_le] at hf hsum
  rw [abs_lt]
  norm_num at hf hsum
  push_cast
  constructor <;> linarith

/-- Where held numbers are more than a nanosecond apart, the sum is rounded to the number that the
duration was rounded from. -/
theorem roundEven_of_large (hv : double.Holds v) (hw : double.Holds w) (hv0 : 0 ≤ v)
    (hround : roundEven (v * 1000000000) = s * 1000000000 + n) (hn : 0 < n) (hs : 2 ^ 23 ≤ s)
    (hf : |n / 1000000000 - f| ≤ 2 ^ (-54 : ℤ)) (hsum : |s + f - w| ≤ |s + f - v|) :
    roundEven (w * 1000000000) = s * 1000000000 + n := by
  have hnano := abs_sub_roundEven_le (x := v * 1000000000) (by positivity)
  have hn1 : (1 : ℚ) ≤ n := by exact_mod_cast hn
  have hs23 : (8388608 : ℚ) ≤ s := by exact_mod_cast hs
  rw [hround] at hnano
  push_cast at hnano
  norm_num at hf
  rw [abs_le] at hnano hf
  have hvsum : |s + f - v| ≤ 1 / 2000000000 + 1 / 18014398509481984 := by
    rw [abs_le]
    constructor <;> linarith
  have hwsum := hsum.trans hvsum
  rw [abs_le] at hvsum hwsum
  have hvw : w = v := by
    apply hw.eq_of_abs_sub_lt hv (k := 23)
    · norm_num
      linarith
    · norm_num
      linarith
    · rw [abs_lt]
      norm_num [double]
      constructor <;> linarith
  rw [hvw, hround]

/-! ## The number that is shown -/

/-- The nanoseconds as a part of a second are at most half of the place `2 ^ (-53)` off. -/
theorem exists_fraction (hn0 : n ≠ 0) (hn : n < 1000000000) :
    ∃ m e, double.div (double.ofNat n) (double.ofNat 1000000000) = .finite m e ∧
      |n / 1000000000 - dyadicValue m e| ≤ 2 ^ (-54 : ℤ) := by
  have hpos : (0 : ℚ) < n / 1000000000 := by
    have hn1 : (0 : ℚ) < n := by exact_mod_cast Nat.pos_of_ne_zero hn0
    positivity
  have hheld : double.Holds n :=
    BinaryFormat.holds_natCast (hn.trans (by decide)) (by decide) (by decide)
  have hbillion : double.Holds (1000000000 : ℕ) :=
    BinaryFormat.holds_natCast (by decide) (by decide) (by decide)
  obtain ⟨mn, en, hnearest, hvalue⟩ := BinaryFormat.nearest_of_holds hheld
  obtain ⟨mb, eb, hnearestBillion, hvalueBillion⟩ := BinaryFormat.nearest_of_holds hbillion
  push_cast at hvalueBillion
  have hfraction : (n : ℚ) / 1000000000 < 2 ^ (0 : ℤ) := by
    rw [zpow_zero, div_lt_one (by norm_num)]
    exact_mod_cast hn
  have hexponent : double.exponentFor ((n : ℚ) / 1000000000) ≤ -53 :=
    BinaryFormat.exponentFor_le_of_lt hpos hfraction
  obtain ⟨m, e, h⟩ := BinaryFormat.exists_nearest_of_exponentFor_lt (f := double)
    (hexponent.trans_lt (by decide))
  refine ⟨m, e, ?_, ?_⟩
  · simp only [BinaryFormat.ofNat, hnearest, hnearestBillion, BinaryFormat.div, hvalue,
      hvalueBillion, h]
  calc |(n : ℚ) / 1000000000 - dyadicValue m e|
      ≤ 1 / 2 * 2 ^ (-53 : ℤ) :=
        BinaryFormat.abs_sub_nearest_le_of_le (by decide) hpos.le h hexponent
    _ = 2 ^ (-54 : ℤ) := by norm_num

/-- Adding a part of a second is rounded to a number, and below `2 ^ 23` seconds by at most half of
the place `2 ^ (-30)`. -/
theorem exists_nearest_add (hs : s < UInt64.size) (hf0 : 0 < f) (hf1 : f < 1) :
    ∃ m e, double.nearest (s + f) = .finite m e ∧ double.Fits m e ∧
      (s < 2 ^ 23 → |s + f - dyadicValue m e| ≤ 2 ^ (-31 : ℤ)) := by
  have hprecision : 0 < double.precision := by decide
  have hs0 : (0 : ℚ) ≤ s := Nat.cast_nonneg s
  have hs1 : (s : ℚ) < 18446744073709551616 := by exact_mod_cast hs
  have hpos : 0 < s + f := by linarith
  have hlt : s + f < (2 : ℚ) ^ (65 : ℤ) := by
    norm_num
    linarith
  have hexponent : double.exponentFor (s + f) ≤ 12 :=
    BinaryFormat.exponentFor_le_of_lt hpos hlt
  obtain ⟨m, e, h⟩ := BinaryFormat.exists_nearest_of_exponentFor_lt (f := double)
    (hexponent.trans_lt (by decide))
  refine ⟨m, e, h, BinaryFormat.fits_of_nearest hprecision (by decide) hpos.le h, ?_⟩
  intro hsmall
  have hs23 : (s : ℚ) + 1 ≤ 8388608 := by exact_mod_cast hsmall
  have hlt23 : s + f < (2 : ℚ) ^ (23 : ℤ) := by
    norm_num
    linarith
  have hplace : double.exponentFor (s + f) ≤ -30 :=
    BinaryFormat.exponentFor_le_of_lt hpos hlt23
  calc |s + f - dyadicValue m e|
      ≤ 1 / 2 * 2 ^ (-30 : ℤ) :=
        BinaryFormat.abs_sub_nearest_le_of_le hprecision hpos.le h hplace
    _ = 2 ^ (-31 : ℤ) := by norm_num

/-- The text of a duration with a part of a second is that of a number which is rounded to the
duration. -/
theorem IsRounding.exists_asSeconds (h : t.IsRounding v) (hnanos : t.nanos ≠ 0) :
    ∃ m e, t.asSeconds = .finite m e ∧ double.Fits m e ∧ t.IsRounding (dyadicValue m e) := by
  have hpos := Nat.pos_of_ne_zero hnanos
  obtain ⟨ms, es, hseconds, hsvalue⟩ : ∃ m e, double.ofNat t.seconds = .finite m e ∧
      dyadicValue m e = t.seconds := BinaryFormat.nearest_of_holds h.holds_seconds
  obtain ⟨mf, ef, hfraction, hferror⟩ := exists_fraction hnanos t.nanos_lt
  obtain ⟨hlow, hhigh⟩ := abs_le.mp hferror
  have hn0 : (1 : ℚ) ≤ t.nanos := by exact_mod_cast hpos
  have hn1 : (t.nanos : ℚ) ≤ 999999999 := by exact_mod_cast Nat.le_of_lt_succ t.nanos_lt
  have hpower : (2 : ℚ) ^ (-54 : ℤ) = 1 / 18014398509481984 := by norm_num
  rw [hpower] at hlow hhigh
  have hf0 : 0 < dyadicValue mf ef := by linarith
  have hf1 : dyadicValue mf ef < 1 := by linarith
  obtain ⟨m, e, hnearest, hfits, herror⟩ := exists_nearest_add t.seconds_lt hf0 hf1
  have hw0 := dyadicValue_nonneg m e
  refine ⟨m, e, ?_, hfits, ⟨m, e, hfits, rfl⟩, hw0, ?_⟩
  · simp only [asSeconds, hfraction, hseconds, BinaryFormat.add, hsvalue, hnearest]
  by_cases hsmall : t.seconds < 2 ^ 23
  · exact roundEven_of_small hw0 hferror (herror hsmall)
  · have hsum : 0 ≤ t.seconds + dyadicValue mf ef := by positivity
    exact roundEven_of_large h.holds ⟨m, e, hfits, rfl⟩ h.nonneg h.nanos hpos
      (not_lt.mp hsmall) hferror
      (BinaryFormat.abs_sub_nearest_le_abs_sub (by decide) hsum hnearest h.holds)

end MediaPhases.Timespan
