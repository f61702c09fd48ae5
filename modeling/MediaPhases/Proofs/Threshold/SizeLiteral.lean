import MediaPhases.Proofs.Threshold.ByteSize

/-!
# Size literals

What is written as a size is a plain number, white space, and the name of a unit in any letter
case.  Nothing else is accepted, and a literal of this form is refused for its magnitude only.
Whole numbers below `2 ^ 53` are read exactly with every unit, up to the end of the range.
-/

namespace MediaPhases.ByteSize

variable {text : String} {cs unit : List Char}

/-! ## The form of a literal -/

/-- A plain number, white space, and the name of a unit in any letter case. -/
def IsLiteral (cs : List Char) : Prop :=
  ∃ number gap unit, cs = number ++ (gap ++ unit) ∧ IsPlainNumber number ∧
    (∀ c ∈ gap, Text.isBlank c = true) ∧
    ∃ u ∈ units, Text.eqIgnoringAsciiCase (String.ofList unit) u.1 = true

/-- A reason that does not speak of the form of a literal. -/
def IsMagnitude (reason : ThresholdReason) : Prop :=
  reason = .tooLarge ∨ reason = .notNonnegative

theorem ofProduct_error {x : Magnitude} {reason : ThresholdReason}
    (h : ofProduct x = .error reason) : reason = .tooLarge := by
  cases x with
  | infinite =>
      cases h
      rfl
  | finite m e =>
      simp only [ofProduct] at h
      split at h
      · cases h
      · cases h
        rfl

/-- A literal of the right form is refused for its magnitude only. -/
theorem isMagnitude_of_isLiteral (h : IsLiteral cs) {reason : ThresholdReason}
    (hrefused : parseChars cs = .error reason) : IsMagnitude reason := by
  obtain ⟨number, gap, unit, rfl, hnumber, hgap, u, hu, hname⟩ := h
  have hunit : unitBytes? unit = some u.2 := unitBytes?_eq_some_iff.mpr ⟨u, hu, rfl, hname⟩
  rw [parseChars, splitAmount_append (all_isAmountChar_of_isPlainNumber hnumber) hgap
    (isUnit_of_unitBytes? hunit)] at hrefused
  simp only [hunit] at hrefused
  obtain ⟨m, e, hamount⟩ | hamount := amountOf_cases hnumber
  · rw [hamount] at hrefused
    exact .inl (ofProduct_error hrefused)
  · rw [hamount] at hrefused
    cases hrefused
    exact .inr rfl

/-- A trimmed literal that is not refused for its form has it. -/
theorem isLiteral_of_parseChars (hlast : ∀ c ∈ cs.getLast?, Text.isBlank c = false)
    (h : ∀ reason, parseChars cs = .error reason → IsMagnitude reason) : IsLiteral cs := by
  obtain ⟨number, unit, hsplit⟩ : ∃ number unit, splitAmount cs = (number, unit) :=
    ⟨_, _, rfl⟩
  simp only [parseChars, hsplit] at h
  cases hunit : unitBytes? unit with
  | none =>
      simp only [hunit] at h
      obtain hreason | hreason := h _ rfl
      · cases hreason
      · cases hreason
  | some k =>
      simp only [hunit] at h
      have hnumber : IsPlainNumber number := by
        by_contra hnumber
        rw [amountOf_of_not_isPlainNumber hnumber] at h
        obtain hreason | hreason := h _ rfl
        · cases hreason
        · cases hreason
      obtain ⟨gap, hgap, heq⟩ :=
        exists_splitAmount_eq hlast hsplit (isUnit_of_unitBytes? hunit).nonempty
      obtain ⟨u, hu, -, hname⟩ := unitBytes?_eq_some_iff.mp hunit
      exact ⟨number, gap, unit, heq, hnumber, hgap, u, hu, hname⟩

/-- What has the form of a literal is accepted or refused for its magnitude, and nothing else
is. -/
theorem isLiteral_trimChars_iff : IsLiteral (Text.trimChars text.toList) ↔
    (∃ s, parse text = .ok s) ∨
      ∃ reason, IsMagnitude reason ∧ parse text = .error ⟨.fileSize, text, reason⟩ := by
  have hlast : ∀ c ∈ (Text.trimChars text.toList).getLast?, Text.isBlank c = false :=
    fun _ hc => Text.isBlank_of_getLast?_trimEnd hc
  rw [parse]
  constructor
  · intro h
    cases hchars : parseChars (Text.trimChars text.toList) with
    | ok s => exact .inl ⟨s, rfl⟩
    | error reason => exact .inr ⟨reason, isMagnitude_of_isLiteral h hchars, rfl⟩
  · intro h
    apply isLiteral_of_parseChars hlast
    intro reason hchars
    rw [hchars] at h
    obtain ⟨s, hs⟩ | ⟨reason', hmagnitude, hreason⟩ := h
    · cases hs
    · cases hreason
      exact hmagnitude

/-! ## Whole numbers of units -/

/-- Numbers below `2 ^ 53` are read exactly, in every unit. -/
theorem parse_small (p : PaddedNumber) {after : List Char} {u : String × ℕ} (hu : u ∈ units)
    (hname : Text.eqIgnoringAsciiCase (String.ofList unit) u.1 = true)
    (hafter : ∀ c ∈ after, Text.isBlank c = true) (hsmall : p.value < 2 ^ 53)
    (htext : text.toList = p.chars ++ (unit ++ after)) :
    parse text = if h : p.value * u.2 < UInt64.size then .ok ⟨p.value * u.2, h⟩
      else .error ⟨.fileSize, text, .tooLarge⟩ := by
  obtain ⟨j, hj, hpow⟩ := exists_pow_of_mem_units hu
  have hunit : unitBytes? unit = some u.2 := unitBytes?_eq_some_iff.mpr ⟨u, hu, rfl, hname⟩
  have hnumber : BinaryFormat.double.Holds p.value :=
    BinaryFormat.holds_natCast hsmall (by decide) (by decide)
  have hproduct : BinaryFormat.double.Holds (p.value * u.2 : ℕ) := by
    rw [hpow]
    apply BinaryFormat.holds_mul_pow hsmall (by decide)
    simp only [BinaryFormat.double]
    omega
  exact parse_padded p hunit hafter htext hnumber hproduct

/-- The accepted literals are those of the right form whose magnitude is in range.  For whole
numbers below `2 ^ 53` the size is the exact product, and the literal is refused as soon as the
product leaves the range. -/
theorem parse_sizeLiteral (text : String) :
    (IsLiteral (Text.trimChars text.toList) ↔ (∃ s, parse text = .ok s) ∨
      ∃ reason, IsMagnitude reason ∧ parse text = .error ⟨.fileSize, text, reason⟩) ∧
    ∀ (p : PaddedNumber) (unit after : List Char), ∀ u ∈ units,
      text.toList = p.chars ++ (unit ++ after) →
      Text.eqIgnoringAsciiCase (String.ofList unit) u.1 = true →
      (∀ c ∈ after, Text.isBlank c = true) → p.value < 2 ^ 53 →
      (p.value * u.2 < UInt64.size → ∃ s, parse text = .ok s ∧ s.bytes = p.value * u.2) ∧
      (UInt64.size ≤ p.value * u.2 → parse text = .error ⟨.fileSize, text, .tooLarge⟩) := by
  refine ⟨isLiteral_trimChars_iff, ?_⟩
  intro p unit after u hu htext hname hafter hsmall
  have hread := parse_small p hu hname hafter hsmall htext
  constructor
  · intro hlt
    rw [dif_pos hlt] at hread
    exact ⟨_, hread, rfl⟩
  · intro hle
    rwa [dif_neg (not_lt.mpr hle)] at hread

/-- A number of terabytes with white space and a zero at the start, and the first one that is out
of range. -/
theorem parse_terabytes :
    IsLiteral (Text.trimChars " 016383 Tb".toList) ∧
    (∃ s, parse " 016383 Tb" = .ok s ∧ s.bytes = 18013298997854208) ∧
    parse "16777216TB" = .error ⟨.fileSize, "16777216TB", .tooLarge⟩ := by
  have hunit : ("TB", 1 <<< 40) ∈ units := by decide
  obtain ⟨s, hs, hbytes⟩ := ((parse_sizeLiteral " 016383 Tb").2
    ⟨[' '], "016383".toList, [' '], List.all_eq_true.mp rfl, ⟨by decide, rfl⟩,
      List.all_eq_true.mp rfl⟩
    ['T', 'b'] [] _ hunit (by decide) (by decide) (List.all_eq_true.mp rfl) (by decide)).1
    (by decide)
  have hlarge := ((parse_sizeLiteral "16777216TB").2
    ⟨[], "16777216".toList, [], List.all_eq_true.mp rfl, ⟨by decide, rfl⟩,
      List.all_eq_true.mp rfl⟩
    ['T', 'B'] [] _ hunit (by decide) (by decide) (List.all_eq_true.mp rfl) (by decide)).2
    (by decide)
  refine ⟨(parse_sizeLiteral " 016383 Tb").1.mpr (.inl ⟨s, hs⟩), ⟨s, hs, ?_⟩, hlarge⟩
  exact hbytes.trans (by decide)

end MediaPhases.ByteSize
