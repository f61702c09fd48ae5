import MediaPhases.Document.Json.Scan
import MediaPhases.Proofs.Number.Digits
import Mathlib.Data.Int.Notation

/-!
# JSON integers read back

The digits of an integer of 64 bits are read as that integer, where the text does not go on with
what would belong to the number.
-/

namespace MediaPhases.Json

/-- The integers that a document can state: those of 64 bits, with or without a sign. -/
def IsInteger64 (n : ℤ) : Prop :=
  -(UInt64.size / 2 : ℕ) ≤ n ∧ n < UInt64.size

theorem isInteger64_natCast {n : ℕ} (h : n < UInt64.size) : IsInteger64 n :=
  ⟨by omega, by omega⟩

/-- The text does not go on with a part of a number. -/
def EndsNumber (rest : List Char) : Prop :=
  ∀ c ∈ rest.head?, c.isDigit = false ∧ c ≠ '.' ∧ c ≠ 'e' ∧ c ≠ 'E'

theorem endsNumber_nil : EndsNumber [] := by
  rintro c ⟨⟩

theorem endsNumber_cons {c : Char} (h : c.isDigit = false ∧ c ≠ '.' ∧ c ≠ 'e' ∧ c ≠ 'E')
    (rest : List Char) : EndsNumber (c :: rest) := by
  rintro _ ⟨⟩
  exact h

/-- An integer is zero or does not begin with a zero. -/
theorem whole_decimalDigits (n : ℕ) :
    ((decimalDigits n).isEmpty ||
      ((decimalDigits n).length != 1 && (decimalDigits n).head? == some '0')) = false := by
  have hempty : (decimalDigits n).isEmpty = false := by
    simp [decimalDigits_ne_nil n]
  by_cases hzero : n = 0
  · subst hzero
    rfl
  · have hhead := head?_decimalDigits_ne_zero hzero
    simp [hempty, hhead]

theorem decimalDigits_append_ne_minus (n : ℕ) (rest tail : List Char) :
    decimalDigits n ++ rest ≠ '-' :: tail := by
  intro heq
  have hfirst := congrArg List.head? heq
  rw [List.head?_append_of_ne_nil _ (decimalDigits_ne_nil n)] at hfirst
  have hdigit := isDigit_of_mem_decimalDigits (List.mem_of_mem_head? hfirst)
  exact absurd hdigit (by decide)

/-- Digits after a sign, or without one, are read as a number of their own. -/
theorem scanNumber_decimalDigits (negative : Bool) {n : ℕ} {rest : List Char}
    (hrest : EndsNumber rest) :
    scanNumber ((if negative then ['-'] else []) ++ (decimalDigits n ++ rest)) =
      some (⟨negative, decimalDigits n, none, none⟩, rest) := by
  have hstop : ∀ c ∈ rest.head?, c.isDigit = false := fun c hc => (hrest c hc).1
  obtain ⟨htake, hdrop⟩ := takeWhile_append_of_all (all_isDigit_decimalDigits n) hstop
  have hwhole := whole_decimalDigits n
  have hminus := decimalDigits_append_ne_minus n rest
  have hpoint : ∀ tail, rest = '.' :: tail → False := by
    rintro tail rfl
    exact (hrest '.' rfl).2.1 rfl
  have hexponent : ∀ e ∈ rest.head?, ¬(e = 'e' ∨ e = 'E') := fun e he =>
    not_or.mpr (hrest e he).2.2
  -- the simplifier takes the sign, and the missing point, from the hypotheses above
  cases negative with
  | true =>
      simp only [scanNumber, if_true, List.cons_append, List.nil_append, htake, hdrop, hwhole,
        Bool.false_eq_true, if_false]
      cases rest with
      | nil => rfl
      | cons e tail => exact if_neg (hexponent e rfl)
  | false =>
      simp only [scanNumber, Bool.false_eq_true, if_false, List.nil_append, htake, hdrop, hwhole]
      cases rest with
      | nil => rfl
      | cons e tail => exact if_neg (hexponent e rfl)

/-- The digits of an integer are read as that integer. -/
theorem scanNumber_int {n : ℤ} (hn : IsInteger64 n) {rest : List Char} (hrest : EndsNumber rest) :
    ∃ l, scanNumber ((toString n).toList ++ rest) = some (l, rest) ∧ ofNumber l = .int n := by
  obtain ⟨hlow, hhigh⟩ := hn
  cases n with
  | ofNat m =>
      have htext : (toString (Int.ofNat m)).toList = decimalDigits m := toList_toString m
      have hlt : m < UInt64.size := by
        have hcast : ((m : ℕ) : ℤ) < (UInt64.size : ℕ) := hhigh
        exact_mod_cast hcast
      refine ⟨_, by rw [htext]; exact scanNumber_decimalDigits false hrest, ?_⟩
      simp [ofNumber, NumberLiteral.value, digitsValue_decimalDigits, hlt]
  | negSucc m =>
      have htext : (toString (Int.negSucc m)).toList = '-' :: decimalDigits (m + 1) := by
        have happend : toString (Int.negSucc m) = "-" ++ toString (m + 1) := rfl
        rw [happend, String.toList_append, toList_toString]
        rfl
      have hle : m + 1 ≤ UInt64.size / 2 := by
        rw [Int.negSucc_eq] at hlow
        omega
      refine ⟨_, by rw [htext]; exact scanNumber_decimalDigits true hrest, ?_⟩
      simp [ofNumber, NumberLiteral.value, digitsValue_decimalDigits, hle, Int.negSucc_eq]

/-- An integer that is read from a text has 64 bits. -/
theorem isInteger64_of_value {l : NumberLiteral} {n : ℤ} (h : l.value = .int n) :
    IsInteger64 n := by
  simp only [NumberLiteral.value] at h
  split_ifs at h with hnat hneg
  · simp only [Bool.and_eq_true, decide_eq_true_eq] at hnat
    cases h
    exact ⟨by omega, by omega⟩
  · simp only [Bool.and_eq_true, decide_eq_true_eq] at hneg
    cases h
    exact ⟨by omega, by omega⟩
  · split at h <;> cases h

end MediaPhases.Json
