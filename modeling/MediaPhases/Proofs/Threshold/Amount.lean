import MediaPhases.Proofs.Number.Decimal
import MediaPhases.Proofs.Text.Blank
import MediaPhases.Threshold.Amount

/-!
# Amounts in literals

A literal is split where its number ends, and its unit stands after white space.  What is read as
a number are digits with at most one point; digits alone state their number exactly where double
precision holds it, with or without zeros at the start.
-/

namespace MediaPhases

variable {n : ℕ} {c : Char} {cs number gap unit : List Char}

/-! ## Characters -/

theorem isAmountChar_iff : isAmountChar c = true ↔ c.isDigit = true ∨ c = '.' := by
  simp [isAmountChar]

theorem bounds_of_isAmountChar (h : isAmountChar c = true) : 46 ≤ c.toNat ∧ c.toNat ≤ 57 := by
  obtain hdigit | rfl := isAmountChar_iff.mp h
  · have hrange := toNat_of_isDigit hdigit
    omega
  · decide

theorem isBlank_of_isAmountChar (h : isAmountChar c = true) : Text.isBlank c = false := by
  have hrange := bounds_of_isAmountChar h
  simp only [Text.isBlank, Bool.or_eq_false_iff, Bool.and_eq_false_iff, decide_eq_false_iff_not,
    beq_eq_false_iff_ne]
  omega

theorem isAmountChar_of_isBlank (h : Text.isBlank c = true) : isAmountChar c = false := by
  by_contra hamount
  rw [Bool.not_eq_false] at hamount
  rw [isBlank_of_isAmountChar hamount] at h
  cases h

/-! ## Numbers -/

/-- ASCII digits with at most one point among them and at least one digit. -/
structure IsPlainNumber (cs : List Char) : Prop where
  isDigit_or_point : ∀ c ∈ cs, c.isDigit = true ∨ c = '.'
  count_le_one : cs.count '.' ≤ 1
  exists_isDigit : ∃ c ∈ cs, c.isDigit = true

theorem count_point_of_all_isDigit (h : cs.all Char.isDigit = true) : cs.count '.' = 0 := by
  rw [List.count_eq_zero]
  intro hmem
  have hdigit := List.all_eq_true.mp h '.' hmem
  revert hdigit
  decide

theorem all_isDigit_of_count_eq_zero (h : ∀ c ∈ cs, c.isDigit = true ∨ c = '.')
    (hcount : cs.count '.' = 0) : cs.all Char.isDigit = true := by
  rw [List.all_eq_true]
  intro c hc
  apply (h c hc).resolve_right
  rintro rfl
  exact List.count_eq_zero.mp hcount hc

theorem isPlainNumber_of_plainDecimal? {d : Decimal} (h : plainDecimal? cs = some d) :
    IsPlainNumber cs := by
  obtain ⟨whole, fraction, hdigits, hne, -, hcs⟩ := Decimal.plainDecimal?_eq_some_iff.mp h
  have hdigit : ∀ c ∈ whole ++ fraction, c.isDigit = true := List.all_eq_true.mp hdigits
  have hcount := count_point_of_all_isDigit hdigits
  rw [List.count_append] at hcount
  have hmem : ∀ c, c ∈ cs ↔ c ∈ whole ++ fraction ∨ c = '.' ∧ cs ≠ whole := by
    intro c
    obtain rfl | ⟨rfl, rfl⟩ := hcs
    · simp [or_left_comm, or_comm, and_comm]
    · simp
  refine ⟨?_, ?_, ?_⟩
  · intro c hc
    exact ((hmem c).mp hc).imp (hdigit c) And.left
  · obtain rfl | ⟨rfl, rfl⟩ := hcs
    · rw [List.count_append, List.count_cons_self]
      omega
    · omega
  · obtain ⟨c, hc⟩ := List.exists_mem_of_ne_nil _ hne
    exact ⟨c, (hmem c).mpr (.inl hc), hdigit c hc⟩

theorem exists_plainDecimal?_of_isPlainNumber (h : IsPlainNumber cs) :
    ∃ d, plainDecimal? cs = some d := by
  by_cases hpoint : '.' ∈ cs
  · obtain ⟨whole, fraction, rfl⟩ := List.append_of_mem hpoint
    have hcount := h.count_le_one
    rw [List.count_append, List.count_cons_self] at hcount
    have hamount := h.isDigit_or_point
    rw [List.forall_mem_append, List.forall_mem_cons] at hamount
    have hwhole : whole.all Char.isDigit = true :=
      all_isDigit_of_count_eq_zero hamount.1 (by omega)
    have hfraction : fraction.all Char.isDigit = true :=
      all_isDigit_of_count_eq_zero hamount.2.2 (by omega)
    have hne : whole ++ fraction ≠ [] := by
      intro hnil
      obtain ⟨rfl, rfl⟩ := List.append_eq_nil_iff.mp hnil
      obtain ⟨c, hc, hdigit⟩ := h.exists_isDigit
      rw [List.nil_append, List.mem_singleton] at hc
      subst hc
      revert hdigit
      decide
    refine ⟨_, Decimal.plainDecimal?_eq_some_iff.mpr ⟨whole, fraction, ?_, hne, rfl, .inl rfl⟩⟩
    rw [List.all_append, hwhole, hfraction]
    rfl
  · obtain ⟨c, hc, -⟩ := h.exists_isDigit
    have hall : cs.all Char.isDigit = true :=
      all_isDigit_of_count_eq_zero h.isDigit_or_point (List.count_eq_zero.mpr hpoint)
    refine ⟨_, Decimal.plainDecimal?_eq_some_iff.mpr ⟨cs, [], ?_, ?_, rfl, .inr ⟨rfl, rfl⟩⟩⟩
    · rw [List.append_nil]
      exact hall
    · rw [List.append_nil]
      exact List.ne_nil_of_mem hc

theorem all_isAmountChar_of_isPlainNumber (h : IsPlainNumber cs) :
    cs.all isAmountChar = true :=
  List.all_eq_true.mpr fun c hc => isAmountChar_iff.mpr (h.isDigit_or_point c hc)

theorem ne_nil_of_isPlainNumber (h : IsPlainNumber cs) : cs ≠ [] := by
  obtain ⟨c, hc, -⟩ := h.exists_isDigit
  exact List.ne_nil_of_mem hc

theorem amountOf_eq_ok_iff {m : ℕ} {e : ℤ} : amountOf cs = .ok (m, e) ↔
    ∃ d, plainDecimal? cs = some d ∧ d.nearest .double = .finite m e := by
  rw [amountOf]
  cases plainDecimal? cs with
  | none => simp
  | some d => cases hnearest : d.nearest .double <;> simp [hnearest]

theorem amountOf_cases (h : IsPlainNumber cs) :
    (∃ m e, amountOf cs = .ok (m, e)) ∨ amountOf cs = .error .notNonnegative := by
  obtain ⟨d, hd⟩ := exists_plainDecimal?_of_isPlainNumber h
  cases hnearest : d.nearest .double with
  | infinite =>
      refine .inr ?_
      rw [amountOf, hd]
      simp only [hnearest]
  | finite m e => exact .inl ⟨m, e, amountOf_eq_ok_iff.mpr ⟨d, hd, hnearest⟩⟩

theorem amountOf_of_not_isPlainNumber (h : ¬IsPlainNumber cs) :
    amountOf cs = .error .missingNumber := by
  rw [amountOf]
  cases hread : plainDecimal? cs with
  | none => rfl
  | some d => exact absurd (isPlainNumber_of_plainDecimal? hread) h

/-! ## Digits -/

/-- One or more decimal digits. -/
structure IsDigits (cs : List Char) : Prop where
  nonempty : cs ≠ []
  all_isDigit : cs.all Char.isDigit = true

theorem isDigits_decimalDigits (n : ℕ) : IsDigits (decimalDigits n) :=
  ⟨decimalDigits_ne_nil n, all_isDigit_decimalDigits n⟩

namespace IsDigits

theorem plainDecimal?_eq (h : IsDigits cs) : plainDecimal? cs = some ⟨digitsValue cs, 0⟩ := by
  refine Decimal.plainDecimal?_eq_some_iff.mpr ⟨cs, [], ?_, ?_, ?_, .inr ⟨rfl, rfl⟩⟩
  · rw [List.append_nil]
    exact h.all_isDigit
  · rw [List.append_nil]
    exact h.nonempty
  · simp [Decimal.ofParts]

theorem all_isAmountChar (h : IsDigits cs) : cs.all isAmountChar = true :=
  all_isAmountChar_of_isPlainNumber (isPlainNumber_of_plainDecimal? h.plainDecimal?_eq)

/-- Digits state their number exactly where double precision holds it. -/
theorem exists_amountOf (h : IsDigits cs)
    (hholds : BinaryFormat.double.Holds (digitsValue cs : ℕ)) :
    ∃ m e, amountOf cs = .ok (m, e) ∧ dyadicValue m e = (digitsValue cs : ℕ) := by
  obtain ⟨m, e, hnearest, hvalue⟩ := BinaryFormat.nearest_of_holds hholds
  refine ⟨m, e, amountOf_eq_ok_iff.mpr ⟨_, h.plainDecimal?_eq, ?_⟩, hvalue⟩
  rw [Decimal.nearest_double, Decimal.toRat, zpow_zero, mul_one, hnearest]

end IsDigits

/-! ## Units -/

/-- A unit is a trimmed text that does not begin like a number. -/
structure IsUnit (unit : List Char) : Prop where
  notAmount : ∀ c ∈ unit.head?, isAmountChar c = false
  trimmed : Text.trimChars unit = unit
  nonempty : unit ≠ []
  last : ∀ c ∈ unit.getLast?, Text.isBlank c = false

theorem isUnit_of_ends {unit : List Char} {first last : Char} (hfirst : unit.head? = some first)
    (hlast : unit.getLast? = some last) (hamount : isAmountChar first = false)
    (hblank : Text.isBlank first = false) (hblank' : Text.isBlank last = false) :
    IsUnit unit := by
  have hhead : ∀ c ∈ unit.head?, c = first := fun c hc =>
    Option.some.inj ((Option.mem_def.mp hc).symm.trans hfirst)
  have hend : ∀ c ∈ unit.getLast?, Text.isBlank c = false := fun c hc => by
    rw [Option.some.inj ((Option.mem_def.mp hc).symm.trans hlast)]
    exact hblank'
  refine ⟨fun c hc => hhead c hc ▸ hamount, ?_, ?_, hend⟩
  · exact Text.trimChars_of_ends (fun c hc => hhead c hc ▸ hblank) hend
  · rintro rfl
    cases hfirst

theorem IsUnit.first (h : IsUnit unit) : ∀ c ∈ unit.head?, Text.isBlank c = false := by
  intro c hc
  rw [← h.trimmed] at hc
  exact Text.isBlank_of_head?_trimChars hc

/-- A literal is split into its number and its unit, without the white space between them. -/
theorem splitAmount_append (hnumber : number.all isAmountChar = true)
    (hgap : ∀ c ∈ gap, Text.isBlank c = true) (h : IsUnit unit) :
    splitAmount (number ++ (gap ++ unit)) = (number, unit) := by
  have hstop : ∀ c ∈ (gap ++ unit).head?, isAmountChar c = false := by
    intro c hc
    cases gap with
    | nil => exact h.notAmount c hc
    | cons b gap =>
        cases hc
        exact isAmountChar_of_isBlank (hgap c List.mem_cons_self)
  have hunit : Text.trimChars (gap ++ unit) = unit := by
    have htrim := Text.trimChars_of_blank_append hgap (List.forall_mem_nil _) h.nonempty h.first
      h.last
    rwa [List.append_nil] at htrim
  obtain ⟨htake, hdrop⟩ := takeWhile_append_of_all hnumber hstop
  rw [splitAmount, htake, hdrop, hunit]

/-- A literal that is trimmed is its number, white space, and its unit. -/
theorem exists_splitAmount_eq (hlast : ∀ c ∈ cs.getLast?, Text.isBlank c = false)
    (h : splitAmount cs = (number, unit)) (hunit : unit ≠ []) :
    ∃ gap, (∀ c ∈ gap, Text.isBlank c = true) ∧ cs = number ++ (gap ++ unit) := by
  have hsplit := splitAmount_number_append cs
  rw [splitAmount] at h hsplit
  cases h
  have hrest : cs.dropWhile isAmountChar ≠ [] := by
    intro hnil
    rw [hnil] at hunit
    exact hunit rfl
  rw [← hsplit, List.getLast?_append_of_ne_nil _ hrest] at hlast
  obtain ⟨gap, hgap, heq⟩ := Text.exists_eq_append_trimChars hlast
  refine ⟨gap, hgap, ?_⟩
  rw [← heq, hsplit]

/-! ## Whole numbers between white space -/

/-- A whole number in digits with white space on either side. -/
structure PaddedNumber where
  before : List Char
  digits : List Char
  after : List Char
  isBlank_before : ∀ c ∈ before, Text.isBlank c = true
  isDigits : IsDigits digits
  isBlank_after : ∀ c ∈ after, Text.isBlank c = true

namespace PaddedNumber

/-- The text of the number with its white space. -/
def chars (p : PaddedNumber) : List Char :=
  p.before ++ (p.digits ++ p.after)

/-- The number that the digits stand for. -/
def value (p : PaddedNumber) : ℕ :=
  digitsValue p.digits

/-- A number without zeros at the start and without white space. -/
def bare (n : ℕ) : PaddedNumber where
  before := []
  digits := decimalDigits n
  after := []
  isBlank_before := by simp
  isDigits := isDigits_decimalDigits n
  isBlank_after := by simp

theorem chars_bare (n : ℕ) : (bare n).chars = decimalDigits n := by
  simp [chars, bare]

theorem value_bare (n : ℕ) : (bare n).value = n :=
  digitsValue_decimalDigits n

theorem trimChars_chars (p : PaddedNumber) : Text.trimChars p.chars = p.digits := by
  have hblank : ∀ c ∈ p.digits, Text.isBlank c = false := fun c hc =>
    isBlank_of_isAmountChar (List.all_eq_true.mp p.isDigits.all_isAmountChar c hc)
  apply Text.trimChars_of_blank_append p.isBlank_before p.isBlank_after p.isDigits.nonempty
  · intro c hc
    exact hblank c (List.mem_of_mem_head? hc)
  · intro c hc
    exact hblank c (List.mem_of_getLast? hc)

/-- Trimming a literal that starts with a whole number leaves the number and what follows. -/
theorem trimChars_chars_append (p : PaddedNumber) (h : IsUnit unit)
    {after : List Char} (hafter : ∀ c ∈ after, Text.isBlank c = true) :
    Text.trimChars (p.chars ++ (unit ++ after)) = p.digits ++ (p.after ++ unit) := by
  have hassoc : p.chars ++ (unit ++ after) =
      p.before ++ (p.digits ++ (p.after ++ unit) ++ after) := by
    simp only [chars, List.append_assoc]
  have hne : p.after ++ unit ≠ [] := List.append_ne_nil_of_right_ne_nil _ h.nonempty
  rw [hassoc]
  apply Text.trimChars_of_blank_append p.isBlank_before hafter
  · exact List.append_ne_nil_of_right_ne_nil _ hne
  · intro c hc
    rw [List.head?_append_of_ne_nil _ p.isDigits.nonempty] at hc
    exact isBlank_of_isAmountChar
      (List.all_eq_true.mp p.isDigits.all_isAmountChar c (List.mem_of_mem_head? hc))
  · intro c hc
    rw [List.getLast?_append_of_ne_nil _ hne, List.getLast?_append_of_ne_nil _ h.nonempty] at hc
    exact h.last c hc

end PaddedNumber

end MediaPhases
