import MediaPhases.Proofs.Document.Record
import MediaPhases.Proofs.Text.AsciiCase
import MediaPhases.Proofs.Threshold.Amount
import MediaPhases.Threshold.ByteSize

/-!
# Sizes read back

A size that double precision holds is read back from its text, and every size that was read from
a literal is of that kind, since it is the whole part of a product in double precision.
-/

namespace MediaPhases.ByteSize

/-! ## Units -/

/-- Every unit is a power of two in range. -/
theorem exists_pow_of_mem_units {u : String × ℕ} (hu : u ∈ units) : ∃ j ≤ 40, u.2 = 2 ^ j := by
  simp only [units, List.mem_cons, List.not_mem_nil, or_false] at hu
  rcases hu with rfl | rfl | rfl | rfl | rfl
  · exact ⟨40, by decide, rfl⟩
  · exact ⟨30, by decide, rfl⟩
  · exact ⟨20, by decide, rfl⟩
  · exact ⟨10, by decide, rfl⟩
  · exact ⟨0, by decide, rfl⟩

theorem ne_nil_of_mem_units : ∀ u ∈ units, u.1.toList ≠ [] := by
  decide

/-- Units are named in capitals. -/
theorem isCapital_of_mem_units : ∀ u ∈ units, ∀ c ∈ u.1.toList, Text.IsCapital c := by
  have hall : units.all fun u => u.1.toList.all fun c => decide (Text.IsCapital c) := by decide
  simpa only [List.all_eq_true, decide_eq_true_eq] using hall

theorem eq_of_mem_units : ∀ u ∈ units, ∀ v ∈ units, u.1.toList = v.1.toList → u = v := by
  decide

/-- A text is read as a unit exactly where it is the unit's name up to letter case. -/
theorem unitBytes?_eq_some_iff {unit : List Char} {k : ℕ} : unitBytes? unit = some k ↔
    ∃ u ∈ units, u.2 = k ∧ Text.eqIgnoringAsciiCase (String.ofList unit) u.1 = true := by
  have hcase : ∀ u ∈ units, (unit.map Char.toUpper == u.1.toList) = true ↔
      Text.eqIgnoringAsciiCase (String.ofList unit) u.1 = true := by
    intro u hu
    rw [Text.eqIgnoringAsciiCase, String.toList_ofList, beq_iff_eq, beq_iff_eq]
    exact Text.map_toUpper_eq_iff (isCapital_of_mem_units u hu)
  rw [unitBytes?, Option.map_eq_some_iff]
  constructor
  · rintro ⟨u, hfound, rfl⟩
    have hu := List.mem_of_find?_eq_some hfound
    have hupper := List.find?_some hfound
    exact ⟨u, hu, rfl, (hcase u hu).mp hupper⟩
  · rintro ⟨u, hu, rfl, hname⟩
    have hupper := (hcase u hu).mpr hname
    cases hfound : units.find? fun u => unit.map Char.toUpper == u.1.toList with
    | none =>
        exact absurd hupper (List.find?_eq_none.mp hfound u hu)
    | some v =>
        have hv := List.find?_some hfound
        rw [beq_iff_eq] at hupper hv
        refine ⟨v, rfl, ?_⟩
        rw [eq_of_mem_units v (List.mem_of_find?_eq_some hfound) u hu (hv.symm.trans hupper)]

/-- What is read as a unit consists of letters. -/
theorem letter_of_unitBytes? {unit : List Char} {k : ℕ} (h : unitBytes? unit = some k) :
    unit ≠ [] ∧ ∀ c ∈ unit, 65 ≤ c.toNat ∧ c.toNat ≤ 122 := by
  obtain ⟨u, hfound, -⟩ := Option.map_eq_some_iff.mp h
  have hu := List.mem_of_find?_eq_some hfound
  have hne := ne_nil_of_mem_units u hu
  have hcapital := isCapital_of_mem_units u hu
  have hupper := List.find?_some hfound
  rw [beq_iff_eq] at hupper
  rw [← hupper] at hne hcapital
  refine ⟨fun hnil => hne (by rw [hnil, List.map_nil]), fun c hc => ?_⟩
  exact Text.letter_of_toUpper_eq (hcapital _ (List.mem_map_of_mem hc)) rfl

theorem isUnit_of_unitBytes? {unit : List Char} {k : ℕ} (h : unitBytes? unit = some k) :
    IsUnit unit := by
  obtain ⟨hne, hletter⟩ := letter_of_unitBytes? h
  have hamount : ∀ c ∈ unit, isAmountChar c = false := by
    intro c hc
    by_contra hamount
    have hrange := bounds_of_isAmountChar (Bool.of_not_eq_false hamount)
    have hc := hletter c hc
    omega
  have hblank : ∀ c ∈ unit, Text.isBlank c = false := by
    intro c hc
    have hc := hletter c hc
    simp only [Text.isBlank, Bool.or_eq_false_iff, Bool.and_eq_false_iff,
      decide_eq_false_iff_not, beq_eq_false_iff_ne]
    omega
  exact isUnit_of_ends (List.head?_eq_some_head hne) (List.getLast?_eq_some_getLast hne)
    (hamount _ (List.head_mem hne)) (hblank _ (List.head_mem hne)) (hblank _ (List.getLast_mem hne))

/-! ## Whole numbers of units -/

theorem ofProduct_of_eq_natCast {m n : ℕ} {e : ℤ} (h : dyadicValue m e = n) :
    ofProduct (.finite m e) =
      if hlt : n < UInt64.size then .ok ⟨n, hlt⟩ else .error .tooLarge := by
  have hfloor : (dyadicValue m e).floor.toNat = n := by
    rw [h, ← Rat.intCast_natCast, Rat.floor_intCast, Int.toNat_natCast]
  simp only [ofProduct, hfloor]

/-- A whole number of units is that many bytes, where double precision holds both. -/
theorem parse_padded {text : String} (p : PaddedNumber) {unit after : List Char} {k : ℕ}
    (hunit : unitBytes? unit = some k) (hafter : ∀ c ∈ after, Text.isBlank c = true)
    (htext : text.toList = p.chars ++ (unit ++ after))
    (hnumber : BinaryFormat.double.Holds p.value)
    (hproduct : BinaryFormat.double.Holds (p.value * k : ℕ)) :
    parse text = if h : p.value * k < UInt64.size then .ok ⟨p.value * k, h⟩
      else .error ⟨.fileSize, text, .tooLarge⟩ := by
  have hisUnit := isUnit_of_unitBytes? hunit
  have hk : BinaryFormat.double.Holds (k : ℕ) := by
    obtain ⟨u, hu, rfl, -⟩ := unitBytes?_eq_some_iff.mp hunit
    obtain ⟨j, hj, hpow⟩ := exists_pow_of_mem_units hu
    have hlt : u.2 < 2 ^ BinaryFormat.double.precision := by
      rw [hpow]
      exact Nat.pow_lt_pow_right one_lt_two (by simp only [BinaryFormat.double]; omega)
    exact BinaryFormat.holds_natCast hlt (by decide) (by decide)
  obtain ⟨m, e, hamount, hvalue⟩ := p.isDigits.exists_amountOf hnumber
  have hcast : dyadicValue m e * k = (p.value * k : ℕ) := by
    rw [hvalue, Nat.cast_mul]
    rfl
  rw [← hcast] at hproduct
  obtain ⟨m', e', hmul, hvalue'⟩ := BinaryFormat.mul_ofNat_of_holds hk hproduct
  have hchars : parseChars (p.digits ++ (p.after ++ unit)) =
      if h : p.value * k < UInt64.size then .ok ⟨p.value * k, h⟩ else .error .tooLarge := by
    rw [parseChars, splitAmount_append p.isDigits.all_isAmountChar p.isBlank_after hisUnit]
    simp only [hunit, hamount, hmul]
    exact ofProduct_of_eq_natCast (hvalue'.trans hcast)
  rw [parse, htext, p.trimChars_chars_append hisUnit hafter, hchars]
  split <;> rfl

/-! ## Reading the text of a size -/

/-- The text of a size is a number and a unit whose product it is. -/
theorem exists_render_eq (s : ByteSize) :
    ∃ n, ∃ u ∈ units, s.bytes = n * u.2 ∧ s.render.toList = decimalDigits n ++ u.1.toList := by
  rw [render]
  cases hfound : units.find? fun u => s.bytes ≠ 0 && s.bytes % u.2 == 0 with
  | none =>
      -- Every other size is divided by the smallest unit.
      have hbyte : ("B", 1) ∈ units := by decide
      have hzero := List.find?_eq_none.mp hfound ("B", 1) hbyte
      simp only [ne_eq, Nat.mod_one, beq_self_eq_true, Bool.and_true, decide_eq_true_eq,
        not_not] at hzero
      refine ⟨0, ("B", 1), hbyte, by rw [hzero, Nat.zero_mul], ?_⟩
      rw [hzero, String.toList_append, toList_toString]
  | some u =>
      have hdivides := List.find?_some hfound
      simp only [Bool.and_eq_true, beq_iff_eq] at hdivides
      refine ⟨s.bytes / u.2, u, List.mem_of_find?_eq_some hfound, ?_, ?_⟩
      · exact (Nat.div_mul_cancel (Nat.dvd_of_mod_eq_zero hdivides.2)).symm
      · rw [String.toList_append, toList_toString]

/-- A size that double precision holds is the one that its text states. -/
theorem parse_render {s : ByteSize} (h : BinaryFormat.double.Holds s.bytes) :
    parse s.render = .ok s := by
  obtain ⟨n, u, hu, hbytes, htext⟩ := s.exists_render_eq
  obtain ⟨j, -, hpow⟩ := exists_pow_of_mem_units hu
  have hunit : unitBytes? u.1.toList = some u.2 := by
    refine unitBytes?_eq_some_iff.mpr ⟨u, hu, rfl, ?_⟩
    rw [String.ofList_toList, Text.eqIgnoringAsciiCase, beq_self_eq_true]
  have hholds : BinaryFormat.double.Holds n := by
    rw [hbytes, hpow] at h
    exact BinaryFormat.holds_of_mul_pow (by decide) (by decide) h
  have hpadded : s.render.toList = (PaddedNumber.bare n).chars ++ (u.1.toList ++ []) := by
    rw [htext, PaddedNumber.chars_bare, List.append_nil]
  have hread := parse_padded (.bare n) hunit (List.forall_mem_nil _) hpadded
  simp only [PaddedNumber.value_bare, ← hbytes, dif_pos s.bytes_lt] at hread
  exact hread hholds h

/-- What a product comes to is held in double precision. -/
theorem holds_of_ofProduct {x y : Magnitude} {s : ByteSize}
    (h : ofProduct (BinaryFormat.double.mul x y) = .ok s) :
    BinaryFormat.double.Holds s.bytes := by
  cases hproduct : BinaryFormat.double.mul x y with
  | infinite =>
      rw [hproduct] at h
      cases h
  | finite m e =>
      have hfits := BinaryFormat.fits_of_mul (by decide) (by decide) hproduct
      simp only [hproduct, ofProduct] at h
      split at h
      · cases h
        exact BinaryFormat.holds_floor hfits (by decide) (by decide)
      · cases h

/-- A size that a literal states is held in double precision. -/
theorem holds_of_parse {text : String} {s : ByteSize} (h : parse text = .ok s) :
    BinaryFormat.double.Holds s.bytes := by
  rw [parse, mapError_eq_ok_iff] at h
  simp only [parseChars] at h
  split at h
  · cases h
  · split at h
    · cases h
    · exact holds_of_ofProduct h

/-- Every size that a literal states is read back from its own text, and the sizes read back are
those that double precision holds. -/
theorem parse_render_iff_holds (s : ByteSize) :
    (∀ text, parse text = .ok s → parse s.render = .ok s) ∧
      (parse s.render = .ok s ↔ BinaryFormat.double.Holds s.bytes) := by
  refine ⟨?_, ?_⟩
  · intro text h
    exact parse_render (holds_of_parse h)
  · constructor
    · exact holds_of_parse
    · exact parse_render

/-- A size that is shown in another unit than it was written in, and the largest one that double
precision holds. -/
theorem parse_render_megabytes :
    parse "1.5gb" = .ok ⟨1610612736, by decide⟩ ∧ parse "1536MB" = .ok ⟨1610612736, by decide⟩ ∧
      parse "18014398509481982KB" = .ok ⟨18446744073709549568, by decide⟩ := by
  have hread : parse "1.5gb" = .ok ⟨1610612736, by decide⟩ := by decide +kernel
  have hback := (parse_render_iff_holds ⟨1610612736, by decide⟩).1 "1.5gb" hread
  have hrender : render ⟨1610612736, by decide⟩ = "1536MB" := by decide
  have hlargest : BinaryFormat.double.Holds (18446744073709549568 : ℕ) := by
    have hsplit : 18446744073709549568 = 9007199254740991 * 2 ^ 11 := by decide
    rw [hsplit]
    exact BinaryFormat.holds_mul_pow (by decide) (by decide) (by decide)
  have hback' := (parse_render_iff_holds ⟨18446744073709549568, by decide⟩).2.mpr hlargest
  have hrender' : render ⟨18446744073709549568, by decide⟩ = "18014398509481982KB" := by decide
  rw [hrender] at hback
  rw [hrender'] at hback'
  exact ⟨hread, hback, hback'⟩

end MediaPhases.ByteSize
