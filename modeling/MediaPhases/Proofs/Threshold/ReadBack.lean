import MediaPhases.Proofs.Document.Record
import MediaPhases.Proofs.Threshold.Fraction

/-!
# Which durations are read back

What the simple form states is always read back from its text.  The compound form is exact, and
states durations that double precision does not hold; of these, whole hours are shown in the
simple form, so that another duration or none at all is read back.
-/

namespace MediaPhases.Timespan

open BinaryFormat (double)

variable {t : Timespan} {text : String} {number unit : List Char} {k : ℕ} {v : ℚ}

/-! ## What the forms state -/

theorem exists_isRounding_of_ofProduct {x y : Magnitude}
    (h : ofProduct (double.mul x y) = .ok t) : ∃ v, t.IsRounding v := by
  cases hproduct : double.mul x y with
  | infinite =>
      rw [hproduct] at h
      cases h
  | finite m e =>
      rw [hproduct, ofProduct_eq_ok_iff] at h
      have hfits := BinaryFormat.fits_of_mul (by decide) (by decide) hproduct
      exact ⟨_, ⟨m, e, hfits, rfl⟩, dyadicValue_nonneg m e, h⟩

theorem exists_isRounding_of_ofAmount {cs : List Char} (h : ofAmount cs = .ok t) :
    ∃ v, t.IsRounding v := by
  simp only [ofAmount] at h
  split at h
  · cases h
  · split at h
    · cases h
    · exact exists_isRounding_of_ofProduct h

theorem minutely_of_ofCompound {hours minutes : List Char}
    (h : ofCompound hours minutes = .ok t) : t.nanos = 0 ∧ t.seconds % 60 = 0 := by
  simp only [ofCompound] at h
  split at h
  · cases h
  · cases h
  · split at h
    · rename_i seconds hseconds
      cases h
      have hsum := compoundSeconds?_eq_some_iff.mp hseconds
      have hminutely : seconds.val % 60 = 0 := by omega
      exact ⟨rfl, hminutely⟩
    · cases h

/-- The literal is not of the compound form. -/
def IsSimple (text : String) : Prop :=
  compoundParts? (Text.lowerChars (Text.trimChars text.toList)) = none

instance (text : String) : Decidable (IsSimple text) :=
  inferInstanceAs (Decidable (_ = none))

theorem isSimple_of_toList_eq (hnumber : number.all isAmountChar = true) (hne : number ≠ [])
    (hunit : unitSeconds? unit = some k) (htext : text.toList = number ++ unit) :
    IsSimple text := by
  rw [IsSimple, htext, lowerChars_trimChars_simple hnumber hne hunit]
  exact compoundParts?_simple hnumber hunit

/-- The simple form states a product in double precision, rounded. -/
theorem exists_isRounding (hsimple : IsSimple text) (h : parse text = .ok t) :
    ∃ v, t.IsRounding v := by
  rw [parse, mapError_eq_ok_iff, parseChars, hsimple] at h
  exact exists_isRounding_of_ofAmount h

/-- The compound form states whole minutes. -/
theorem minutely_of_compound (hcompound : ¬IsSimple text) (h : parse text = .ok t) :
    t.nanos = 0 ∧ t.seconds % 60 = 0 := by
  obtain ⟨⟨hours, minutes⟩, hparts⟩ := Option.ne_none_iff_exists'.mp hcompound
  rw [parse, mapError_eq_ok_iff, parseChars, hparts] at h
  exact minutely_of_ofCompound h

/-! ## Reading back -/

/-- A duration that was rounded from a held number is the one that its text states. -/
theorem IsRounding.parse_render (h : t.IsRounding v) : parse t.render = .ok t := by
  by_cases hnanos : t.nanos = 0
  · exact parse_render_of_holds hnanos h.holds_seconds
  obtain ⟨m, e, hseconds, hfits, hrounding⟩ := h.exists_asSeconds hnanos
  obtain ⟨d, m', e', hd, hnearest, hvalue⟩ := NumberNotation.exists_plainDecimal?_text hfits
  have hnumber := isPlainNumber_of_plainDecimal? hd
  have htext : t.render.toList =
      (NumberNotation.plain.text (.finite false m e)).toList ++ ['s'] := by
    rw [render, if_pos (.inl hnanos), asDouble, hseconds, String.toList_append]
    rfl
  have hunit : unitSeconds? ['s'] = some 1 := rfl
  have hholds : double.Holds (dyadicValue m' e' * (1 : ℕ)) := by
    rw [Nat.cast_one, mul_one, hvalue]
    exact hrounding.holds
  obtain ⟨m'', e'', hmul, hproduct⟩ :=
    BinaryFormat.mul_ofNat_of_holds (holds_of_unitSeconds? hunit) hholds
  rw [Nat.cast_one, mul_one, hvalue] at hproduct
  have hread : ofProduct (.finite m'' e'') = .ok t := by
    rw [ofProduct_eq_ok_iff, hproduct]
    exact hrounding.nanos
  rw [parse_simple (all_isAmountChar_of_isPlainNumber hnumber) (ne_nil_of_isPlainNumber hnumber)
    hunit (amountOf_eq_ok_iff.mpr ⟨d, hd, hnearest⟩) htext, hmul, hread]
  rfl

/-- Whole hours are read back exactly where double precision holds their seconds, and other whole
minutes always. -/
theorem parse_render_iff_of_minutely (hnanos : t.nanos = 0) (hminutely : t.seconds % 60 = 0) :
    parse t.render = .ok t ↔ (3600 ∣ t.seconds → double.Holds t.seconds) := by
  constructor
  · intro h hhours
    have hboth : ¬t.ShowsBoth := by
      intro hboth
      have hminutes := hboth.minutes
      omega
    obtain ⟨n, unit, k, hunit, -, -, htext⟩ := render_simple hnanos hboth
    have hdigits := isDigits_decimalDigits n
    have hsimple := isSimple_of_toList_eq hdigits.all_isAmountChar hdigits.nonempty hunit htext
    obtain ⟨v, hrounding⟩ := exists_isRounding hsimple h
    exact hrounding.holds_seconds
  · intro h
    by_cases hboth : t.ShowsBoth
    · exact parse_render_of_showsBoth hnanos hboth
    apply parse_render_of_holds hnanos
    by_cases hhours : 3600 ∣ t.seconds
    · exact h hhours
    · -- Without hours there are less than sixty minutes.
      have hsmall : t.seconds / 3600 = 0 := by
        by_contra hne
        exact hboth ⟨hminutely, hne, by omega⟩
      have hlt : t.seconds < 2 ^ double.precision := by
        simp only [double]
        omega
      exact BinaryFormat.holds_natCast hlt (by decide) (by decide)

/-! ## Whole hours in both forms -/

theorem eq_of_parse_noMinutes {hours : ℕ} (h : parse (toString hours ++ "h0m") = .ok t) :
    t.nanos = 0 ∧ t.seconds = hours * 3600 := by
  have htext : (toString hours ++ "h0m").toList =
      (PaddedNumber.bare hours).chars ++ ('h' :: ((PaddedNumber.bare 0).chars ++ ['m']) ++ []) := by
    rw [String.toList_append, toList_toString, PaddedNumber.chars_bare, PaddedNumber.chars_bare]
    rfl
  rw [parse_compound _ _ (.inl rfl) (.inl rfl) (List.forall_mem_nil _) htext] at h
  split at h
  · cases h
    simp [PaddedNumber.value_bare]
  · cases h

/-- Hours alone state the same as hours without minutes exactly where double precision holds the
seconds. -/
theorem parse_hours_iff {hours : ℕ} (hnanos : t.nanos = 0) (hhours : t.seconds = hours * 3600) :
    parse (toString hours ++ "h") = .ok t ↔ double.Holds t.seconds := by
  have hdigits := isDigits_decimalDigits hours
  have hunit : unitSeconds? ['h'] = some 3600 := rfl
  have htext : (toString hours ++ "h").toList = decimalDigits hours ++ ['h'] := by
    rw [String.toList_append, toList_toString]
    rfl
  constructor
  · intro h
    have hsimple := isSimple_of_toList_eq hdigits.all_isAmountChar hdigits.nonempty hunit htext
    obtain ⟨v, hrounding⟩ := exists_isRounding hsimple h
    exact hrounding.holds_seconds
  · intro h
    have hlt : hours < 2 ^ double.precision := by
      have hseconds : t.seconds < 18446744073709551616 := t.seconds_lt
      simp only [double]
      omega
    have hheld : double.Holds hours := BinaryFormat.holds_natCast hlt (by decide) (by decide)
    exact parse_whole hnanos hheld h hunit hhours htext

/-- A duration that a literal states is read back from its own text, unless it is whole hours whose
seconds double precision does not hold.  The simple form never states such hours, and the two ways
to write whole hours agree exactly on the others. -/
theorem parse_render_iff_of_parse (h : parse text = .ok t) :
    (parse t.render = .ok t ↔ (t.nanos = 0 → 3600 ∣ t.seconds → double.Holds t.seconds)) ∧
      (IsSimple text → parse t.render = .ok t) ∧
      ∀ (hours : ℕ) (t' : Timespan), text = toString hours ++ "h0m" →
        parse (toString hours ++ "h") = .ok t' → (t' = t ↔ double.Holds t.seconds) := by
  refine ⟨?_, ?_, ?_⟩
  · by_cases hsimple : IsSimple text
    · obtain ⟨v, hrounding⟩ := exists_isRounding hsimple h
      exact iff_of_true hrounding.parse_render fun _ _ => hrounding.holds_seconds
    · obtain ⟨hnanos, hminutely⟩ := minutely_of_compound hsimple h
      rw [parse_render_iff_of_minutely hnanos hminutely]
      exact ⟨fun hholds _ => hholds, fun hholds => hholds hnanos⟩
  · intro hsimple
    obtain ⟨v, hrounding⟩ := exists_isRounding hsimple h
    exact hrounding.parse_render
  · rintro hours t' rfl h'
    obtain ⟨hnanos, hhours⟩ := eq_of_parse_noMinutes h
    rw [← parse_hours_iff hnanos hhours, h']
    constructor
    · rintro rfl
      rfl
    · intro hsame
      cases hsame
      rfl

/-- A part of a second in the simple form, and whole hours in both forms. -/
theorem parse_render_twoHours :
    parse "1.5s" = .ok ⟨1, 500000000, by decide, by decide⟩ ∧
      parse (render ⟨1, 500000000, by decide, by decide⟩) =
        .ok ⟨1, 500000000, by decide, by decide⟩ ∧
      parse "2h0m" = .ok ⟨7200, 0, by decide, by decide⟩ ∧
      parse (render ⟨7200, 0, by decide, by decide⟩) = .ok ⟨7200, 0, by decide, by decide⟩ ∧
      double.Holds (7200 : ℕ) := by
  have hfraction : parse "1.5s" = .ok ⟨1, 500000000, by decide, by decide⟩ := by decide +kernel
  have hboth : parse "2h0m" = .ok ⟨7200, 0, by decide, by decide⟩ := by decide +kernel
  have hhours : parse "2h" = .ok ⟨7200, 0, by decide, by decide⟩ := by decide +kernel
  have hheld : double.Holds (7200 : ℕ) :=
    ((parse_render_iff_of_parse hboth).2.2 2 _ (by decide) hhours).mp rfl
  refine ⟨hfraction, ?_, hboth, ?_, hheld⟩
  · exact (parse_render_iff_of_parse hfraction).2.1 (by decide +kernel)
  · exact (parse_render_iff_of_parse hboth).1.mpr fun _ _ => hheld

/-- Whole hours that are read back as others, by sixteen seconds, and whole hours whose text is
refused. -/
theorem wholeHours_not_read_back :
    parse "40031996687739h0m" = .ok ⟨144115188075860400, 0, by decide, by decide⟩ ∧
      parse (render ⟨144115188075860400, 0, by decide, by decide⟩) =
        .ok ⟨144115188075860416, 0, by decide, by decide⟩ ∧
      parse "40031996687739h" = .ok ⟨144115188075860416, 0, by decide, by decide⟩ ∧
      parse "5124095576030431h0m" = .ok ⟨18446744073709551600, 0, by decide, by decide⟩ ∧
      parse (render ⟨18446744073709551600, 0, by decide, by decide⟩) =
        .error ⟨.duration, "5124095576030431h", .tooLarge⟩ := by
  refine ⟨?_, ?_, ?_, ?_, ?_⟩
  all_goals decide +kernel

end MediaPhases.Timespan
