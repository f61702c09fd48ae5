import MediaPhases.Proofs.Number.Shortest
import MediaPhases.Proofs.Threshold.Compound

/-!
# Durations read back

A duration of whole seconds is read back from its text where double precision holds its seconds:
the simple form goes through a product that is exact then, and the compound form is always exact.
-/

namespace MediaPhases.Timespan

variable {t : Timespan} {text : String} {number unit : List Char} {k : ℕ}

/-- The duration has no part of a second, and double precision holds its seconds. -/
structure IsWhole (t : Timespan) : Prop where
  nanos : t.nanos = 0
  seconds : t.seconds < 2 ^ 53

theorem IsWhole.holds (h : t.IsWhole) : BinaryFormat.double.Holds t.seconds :=
  BinaryFormat.holds_natCast h.seconds (by decide) (by decide)

/-! ## The text of a duration -/

theorem text_zero : NumberNotation.plain.text (.finite false 0 (-1074)) = "0" := by
  rfl

/-- No seconds at all are shown as such. -/
theorem render_zero (hnanos : t.nanos = 0) (hzero : t.seconds = 0) : t.render = "0s" := by
  have hnat : BinaryFormat.double.ofNat 0 = .finite 0 (-1074) := by
    simp [BinaryFormat.ofNat, BinaryFormat.nearest, BinaryFormat.double]
  have hdouble : t.asDouble = .finite false 0 (-1074) := by
    have hholds : BinaryFormat.double.Holds (1000000000 : ℕ) :=
      BinaryFormat.holds_natCast (by decide) (by decide) (by decide)
    obtain ⟨m, e, hbillion, -⟩ := BinaryFormat.nearest_of_holds hholds
    have hdiv : BinaryFormat.double.div (.finite 0 (-1074)) (BinaryFormat.double.ofNat 1000000000)
        = .finite 0 (-1074) := by
      rw [BinaryFormat.ofNat, hbillion]
      simp [BinaryFormat.div, BinaryFormat.nearest, dyadicValue, BinaryFormat.double]
    rw [asDouble, asSeconds, hzero, hnanos]
    simp only [hnat, hdiv]
    simp [BinaryFormat.add, BinaryFormat.nearest, dyadicValue, BinaryFormat.double,
      Double.ofMagnitude]
  rw [render, if_pos (.inr hzero), hdouble, text_zero]
  rfl

/-- The duration is shown in hours and minutes together. -/
structure ShowsBoth (t : Timespan) : Prop where
  minutely : t.seconds % 60 = 0
  hours : t.seconds / 3600 ≠ 0
  minutes : t.seconds % 3600 / 60 ≠ 0

theorem render_compound (hnanos : t.nanos = 0) (h : t.ShowsBoth) :
    t.render.toList = decimalDigits (t.seconds / 3600) ++
      'h' :: (decimalDigits (t.seconds % 3600 / 60) ++ ['m']) := by
  have hhours := h.hours
  have hfirst : ¬(t.nanos ≠ 0 ∨ t.seconds = 0) := by
    rintro (hne | hzero)
    · exact hne hnanos
    · omega
  simp only [render, if_neg hfirst, if_neg (not_not.mpr h.minutely), if_neg h.hours,
    if_neg h.minutes, String.toList_append, toList_toString, List.append_assoc]
  rfl

/-- Other whole seconds are shown as a number with one unit, whose product they are. -/
theorem render_simple (hnanos : t.nanos = 0) (h : ¬t.ShowsBoth) :
    ∃ n unit k, unitSeconds? unit = some k ∧ t.seconds = n * k ∧ (k = 1 ∨ n < 2 ^ 53) ∧
      t.render.toList = decimalDigits n ++ unit := by
  by_cases hzero : t.seconds = 0
  · refine ⟨0, ['s'], 1, rfl, hzero, .inl rfl, ?_⟩
    rw [render_zero hnanos hzero]
    rfl
  have hfirst : ¬(t.nanos ≠ 0 ∨ t.seconds = 0) := by
    rintro (hne | hseconds)
    · exact hne hnanos
    · exact hzero hseconds
  have hlt : t.seconds < 18446744073709551616 := t.seconds_lt
  simp only [render, if_neg hfirst]
  by_cases hseconds : t.seconds % 60 = 0
  · rw [if_neg (not_not.mpr hseconds)]
    by_cases hhours : t.seconds / 3600 = 0
    · refine ⟨t.seconds % 3600 / 60, ['m'], 60, rfl, by omega, .inr (by omega), ?_⟩
      rw [if_pos hhours, String.toList_append, toList_toString]
      rfl
    have hminutes : t.seconds % 3600 / 60 = 0 := by
      by_contra hminutes
      exact h ⟨hseconds, hhours, hminutes⟩
    refine ⟨t.seconds / 3600, ['h'], 3600, rfl, by omega, .inr (by omega), ?_⟩
    rw [if_neg hhours, if_pos hminutes, String.toList_append, toList_toString]
    rfl
  · refine ⟨t.seconds, ['s'], 1, rfl, by omega, .inl rfl, ?_⟩
    rw [if_pos hseconds, String.toList_append, toList_toString]
    rfl

/-! ## The simple form -/

/-- A unit of durations is one of three letters. -/
theorem unitSeconds?_cases (h : unitSeconds? unit = some k) :
    unit = ['s'] ∧ k = 1 ∨ unit = ['m'] ∧ k = 60 ∨ unit = ['h'] ∧ k = 3600 := by
  unfold unitSeconds? at h
  split at h <;> simp_all

theorem isUnit_of_unitSeconds? (h : unitSeconds? unit = some k) : IsUnit unit := by
  obtain ⟨rfl, -⟩ | ⟨rfl, -⟩ | ⟨rfl, -⟩ := unitSeconds?_cases h
  · exact isUnit_of_ends rfl rfl rfl rfl rfl
  · exact isUnit_of_ends rfl rfl rfl rfl rfl
  · exact isUnit_of_ends rfl rfl rfl rfl rfl

theorem isAsciiLower_of_unitSeconds? (h : unitSeconds? unit = some k) :
    ∀ c ∈ unit, Text.IsAsciiLower c := by
  obtain ⟨rfl, -⟩ | ⟨rfl, -⟩ | ⟨rfl, -⟩ := unitSeconds?_cases h
  all_goals
    rw [List.forall_mem_singleton]
    decide

theorem holds_of_unitSeconds? (h : unitSeconds? unit = some k) :
    BinaryFormat.double.Holds (k : ℕ) := by
  apply BinaryFormat.holds_natCast _ (by decide) (by decide)
  obtain ⟨-, rfl⟩ | ⟨-, rfl⟩ | ⟨-, rfl⟩ := unitSeconds?_cases h
  all_goals decide

theorem compoundParts?_simple (hnumber : number.all isAmountChar = true)
    (hunit : unitSeconds? unit = some k) : compoundParts? (number ++ unit) = none := by
  have hne : ∀ c ∈ number, decide (c ≠ 'h') = true := by
    intro c hc
    have hrange := bounds_of_isAmountChar (List.all_eq_true.mp hnumber c hc)
    rw [decide_eq_true_eq]
    rintro rfl
    revert hrange
    decide
  rw [compoundParts?, List.dropWhile_append_of_pos hne]
  obtain ⟨rfl, -⟩ | ⟨rfl, -⟩ | ⟨rfl, -⟩ := unitSeconds?_cases hunit <;> rfl

/-- A number with its unit is already trimmed and in lower case. -/
theorem lowerChars_trimChars_simple (hnumber : number.all isAmountChar = true)
    (hne : number ≠ []) (hunit : unitSeconds? unit = some k) :
    Text.lowerChars (Text.trimChars (number ++ unit)) = number ++ unit := by
  have hisUnit := isUnit_of_unitSeconds? hunit
  have hamountChar : ∀ c ∈ number, isAmountChar c = true := List.all_eq_true.mp hnumber
  have htrim : Text.trimChars (number ++ unit) = number ++ unit := by
    apply Text.trimChars_of_ends
    · intro c hc
      rw [List.head?_append_of_ne_nil _ hne] at hc
      exact isBlank_of_isAmountChar (hamountChar c (List.mem_of_mem_head? hc))
    · intro c hc
      rw [List.getLast?_append_of_ne_nil _ hisUnit.nonempty] at hc
      exact hisUnit.last c hc
  rw [htrim]
  apply Text.lowerChars_of_isAsciiLower
  exact List.forall_mem_append.mpr ⟨fun c hc => isAsciiLower_of_isAmountChar (hamountChar c hc),
    isAsciiLower_of_unitSeconds? hunit⟩

/-- A literal in the simple form is read through the product of its amount and its unit. -/
theorem parse_simple {m : ℕ} {e : ℤ} (hnumber : number.all isAmountChar = true)
    (hne : number ≠ []) (hunit : unitSeconds? unit = some k)
    (hamount : amountOf number = .ok (m, e)) (htext : text.toList = number ++ unit) :
    parse text =
      (ofProduct (BinaryFormat.double.mul (.finite m e) (BinaryFormat.double.ofNat k))).mapError
        fun reason => ⟨.duration, text, reason⟩ := by
  have hsplit : splitAmount (number ++ unit) = (number, unit) := by
    have hsplit := splitAmount_append hnumber (List.forall_mem_nil _) (isUnit_of_unitSeconds? hunit)
    rwa [List.nil_append] at hsplit
  rw [parse, htext, lowerChars_trimChars_simple hnumber hne hunit, parseChars,
    compoundParts?_simple hnumber hunit]
  simp only [ofAmount, hsplit, hunit, hamount]

/-! ## Reading the text of whole seconds -/

theorem ofNanos?_eq_some_iff {n : ℕ} :
    ofNanos? n = some t ↔ n = t.seconds * 1000000000 + t.nanos := by
  have hseconds := t.seconds_lt
  have hnanos := t.nanos_lt
  rw [ofNanos?]
  constructor
  · intro h
    split at h
    · cases h
      exact (Nat.div_add_mod' n 1000000000).symm
    · cases h
  · rintro rfl
    have hdiv : (t.seconds * 1000000000 + t.nanos) / 1000000000 = t.seconds := by omega
    have hmod : (t.seconds * 1000000000 + t.nanos) % 1000000000 = t.nanos := by omega
    simp only [hdiv, hmod, dif_pos hseconds]

/-- A product comes to the duration of its nanoseconds, rounded. -/
theorem ofProduct_eq_ok_iff {m : ℕ} {e : ℤ} : ofProduct (.finite m e) = .ok t ↔
    roundEven (dyadicValue m e * 1000000000) = t.seconds * 1000000000 + t.nanos := by
  rw [← ofNanos?_eq_some_iff, ofProduct]
  cases ofNanos? (roundEven (dyadicValue m e * 1000000000)) <;> simp

theorem ofProduct_of_eq_natCast (hnanos : t.nanos = 0) {m : ℕ} {e : ℤ}
    (h : dyadicValue m e = t.seconds) : ofProduct (.finite m e) = .ok t := by
  have hcast : dyadicValue m e * 1000000000 = ((t.seconds * 1000000000 : ℕ) : ℚ) := by
    rw [h]
    push_cast
    rfl
  rw [ofProduct_eq_ok_iff, hcast, roundEven_natCast, hnanos, Nat.add_zero]

/-- A number of units states the duration of the product, where double precision holds it. -/
theorem parse_whole (hnanos : t.nanos = 0) {n : ℕ} (hn : BinaryFormat.double.Holds n)
    (hholds : BinaryFormat.double.Holds t.seconds) (hunit : unitSeconds? unit = some k)
    (hproduct : t.seconds = n * k) (htext : text.toList = decimalDigits n ++ unit) :
    parse text = .ok t := by
  have hdigits := isDigits_decimalDigits n
  have hvalue : digitsValue (decimalDigits n) = n := digitsValue_decimalDigits n
  rw [← hvalue] at hn
  obtain ⟨m, e, hamount, hdyadic⟩ := hdigits.exists_amountOf hn
  have hcast : dyadicValue m e * k = t.seconds := by
    rw [hdyadic, hvalue, hproduct, Nat.cast_mul]
  rw [← hcast] at hholds
  obtain ⟨m', e', hmul, hdyadic'⟩ :=
    BinaryFormat.mul_ofNat_of_holds (holds_of_unitSeconds? hunit) hholds
  rw [parse_simple hdigits.all_isAmountChar hdigits.nonempty hunit hamount htext, hmul,
    ofProduct_of_eq_natCast hnanos (hdyadic'.trans hcast)]
  rfl

/-- Hours and minutes together are always read back. -/
theorem parse_render_of_showsBoth (hnanos : t.nanos = 0) (h : t.ShowsBoth) :
    parse t.render = .ok t := by
  have htext : t.render.toList = (PaddedNumber.bare (t.seconds / 3600)).chars ++
      ('h' :: ((PaddedNumber.bare (t.seconds % 3600 / 60)).chars ++ ['m']) ++ []) := by
    rw [render_compound hnanos h, PaddedNumber.chars_bare, PaddedNumber.chars_bare,
      List.append_nil]
  have hsum : t.seconds / 3600 * 3600 + t.seconds % 3600 / 60 * 60 = t.seconds := by
    have hminutely := h.minutely
    omega
  have hread := parse_compound _ _ (.inl rfl) (.inl rfl) (List.forall_mem_nil _) htext
  simp only [PaddedNumber.value_bare, hsum, dif_pos t.seconds_lt] at hread
  rw [hread]
  exact congrArg Except.ok (Timespan.ext rfl hnanos.symm)

/-- A duration of whole seconds that double precision holds is the one that its text states. -/
theorem parse_render_of_holds (hnanos : t.nanos = 0)
    (hholds : BinaryFormat.double.Holds t.seconds) : parse t.render = .ok t := by
  by_cases hboth : t.ShowsBoth
  · exact parse_render_of_showsBoth hnanos hboth
  · obtain ⟨n, unit, k, hunit, hproduct, hsmall, htext⟩ := render_simple hnanos hboth
    have hn : BinaryFormat.double.Holds n := by
      rcases hsmall with rfl | hlt
      · rwa [hproduct, Nat.mul_one] at hholds
      · exact BinaryFormat.holds_natCast hlt (by decide) (by decide)
    exact parse_whole hnanos hn hholds hunit hproduct htext

theorem parse_render (h : t.IsWhole) : parse t.render = .ok t :=
  parse_render_of_holds h.nanos h.holds

end MediaPhases.Timespan
