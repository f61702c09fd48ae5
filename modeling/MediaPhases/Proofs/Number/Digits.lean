import MediaPhases.Number.Decimal
import Mathlib.Data.List.Basic

/-!
# Decimal digits read back

The digits of a natural number are one or more ASCII digits that stand for it, and the first is a
zero only where the number is.
-/

namespace MediaPhases

variable {n : ℕ}

theorem toNat_of_isDigit {c : Char} (h : c.isDigit = true) : 48 ≤ c.toNat ∧ c.toNat ≤ 57 := by
  have hrange : '0'.toNat ≤ c.toNat ∧ c.toNat ≤ '9'.toNat := by
    simpa [Char.isDigit, UInt32.le_iff_toNat_le] using h
  exact hrange

theorem isDigit_of_mem_decimalDigits {c : Char} (h : c ∈ decimalDigits n) : c.isDigit = true :=
  Nat.isDigit_of_mem_toDigits (by decide) (by decide) h

theorem all_isDigit_decimalDigits (n : ℕ) : (decimalDigits n).all Char.isDigit = true :=
  List.all_eq_true.mpr fun _ => isDigit_of_mem_decimalDigits

theorem decimalDigits_ne_nil (n : ℕ) : decimalDigits n ≠ [] :=
  Nat.toDigits_ne_nil

theorem digitsValue_decimalDigits (n : ℕ) : digitsValue (decimalDigits n) = n := by
  have hfold : ∀ (cs : List Char) (init : ℕ),
      cs.foldl (fun n c => n * 10 + digitValue c) init = Nat.ofDigitChars 10 cs init := by
    intro cs init
    simp only [Nat.ofDigitChars, digitValue, Nat.mul_comm]
  rw [digitsValue, hfold]
  exact Nat.ofDigitChars_ten_toDigits

theorem toList_toString (n : ℕ) : (toString n).toList = decimalDigits n := by
  rw [Nat.toString_eq_ofList_toDigits, String.toList_ofList, decimalDigits]

theorem digitChar_ne_zero : ∀ d < 10, d ≠ 0 → d.digitChar ≠ '0' := by
  decide

/-- Only zero is written with a zero at the start. -/
theorem head?_decimalDigits_ne_zero (hn : n ≠ 0) : (decimalDigits n).head? ≠ some '0' := by
  induction n using Nat.strongRecOn with
  | _ n ih =>
      rw [decimalDigits, Nat.toDigits_eq_if (by decide)]
      by_cases hlt : n < 10
      · have hchar : n.digitChar ≠ '0' := digitChar_ne_zero n hlt hn
        simpa [if_pos hlt] using hchar
      · have hne : n / 10 ≠ 0 := by omega
        have hhead : (decimalDigits (n / 10)).head? ≠ some '0' := ih (n / 10) (by omega) hne
        rw [if_neg hlt, List.head?_append_of_ne_nil _ (Nat.toDigits_ne_nil)]
        exact hhead

/-- The longest run of characters of a class ends where the class does. -/
theorem takeWhile_append_of_all {p : Char → Bool} {ds cs : List Char}
    (hds : ds.all p = true) (hcs : ∀ c ∈ cs.head?, p c = false) :
    (ds ++ cs).takeWhile p = ds ∧ (ds ++ cs).dropWhile p = cs := by
  have hall : ∀ d ∈ ds, p d = true := List.all_eq_true.mp hds
  have hstop : cs.takeWhile p = [] ∧ cs.dropWhile p = cs := by
    cases cs with
    | nil => exact ⟨rfl, rfl⟩
    | cons c cs =>
        have hc : p c = false := hcs c rfl
        simp [hc]
  rw [List.takeWhile_append_of_pos hall, List.dropWhile_append_of_pos hall, hstop.1, hstop.2,
    List.append_nil]
  exact ⟨rfl, rfl⟩

end MediaPhases
