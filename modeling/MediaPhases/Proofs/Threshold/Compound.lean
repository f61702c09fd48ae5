import MediaPhases.Proofs.Text.Lowercase
import MediaPhases.Proofs.Threshold.Amount
import MediaPhases.Threshold.Timespan

/-!
# Hours and minutes

The compound form of a duration is exact: hours and minutes of any length, with zeros at the
start, with white space around them and with their letters in either case, state their sum where
it is in range and are refused where it is not.
-/

namespace MediaPhases

variable {cs : List Char}

/-! ## Numbers in lower case -/

theorem isAsciiLower_of_isAmountChar {c : Char} (h : isAmountChar c = true) :
    Text.IsAsciiLower c := by
  have hrange := bounds_of_isAmountChar h
  exact ⟨by omega, by omega⟩

theorem IsDigits.isLower (h : IsDigits cs) : ∀ c ∈ cs, Text.IsLower c := by
  intro c hc
  have hamount := List.all_eq_true.mp h.all_isAmountChar c hc
  exact (isAsciiLower_of_isAmountChar hamount).isLower

theorem PaddedNumber.isLower (p : PaddedNumber) : ∀ c ∈ p.chars, Text.IsLower c := by
  rw [chars, List.forall_mem_append, List.forall_mem_append]
  exact ⟨fun c hc => Text.isLower_of_isBlank (p.isBlank_before c hc), p.isDigits.isLower,
    fun c hc => Text.isLower_of_isBlank (p.isBlank_after c hc)⟩

namespace Timespan

/-! ## Whole numbers in range -/

/-- Digits are read as their number, if it is in range. -/
theorem wholeNumber?_digits (p : PaddedNumber) :
    wholeNumber? p.digits = if p.value < UInt64.size then some p.value else none := by
  have hplus : ∀ rest, p.digits ≠ '+' :: rest := by
    intro rest heq
    have hmem : '+' ∈ p.digits := heq ▸ List.mem_cons_self
    have hdigit := List.all_eq_true.mp p.isDigits.all_isDigit '+' hmem
    revert hdigit
    decide
  have hnumber : natOfDigits? p.digits = some p.value := by
    rw [natOfDigits?, if_pos ⟨p.isDigits.nonempty, p.isDigits.all_isDigit⟩, PaddedNumber.value]
  unfold wholeNumber?
  split
  · rename_i rest heq
    exact absurd heq (hplus rest)
  · simp only [hnumber, Option.filter_some, decide_eq_true_eq]

/-! ## The parts of the compound form -/

/-- Neither digits nor white space are the letter that parts hours from minutes. -/
theorem ne_h_of_padded (p : PaddedNumber) :
    (p.digits ++ p.after).all (fun c => decide (c ≠ 'h')) = true := by
  rw [List.all_append, Bool.and_eq_true, List.all_eq_true, List.all_eq_true]
  constructor
  · intro c hc
    have hdigit := List.all_eq_true.mp p.isDigits.all_isDigit c hc
    rw [decide_eq_true_eq]
    rintro rfl
    revert hdigit
    decide
  · intro c hc
    have hblank := p.isBlank_after c hc
    rw [decide_eq_true_eq]
    rintro rfl
    revert hblank
    decide

theorem compoundParts?_padded (p q : PaddedNumber) :
    compoundParts? (p.digits ++ (p.after ++ 'h' :: (q.chars ++ ['m']))) =
      some (p.digits ++ p.after, q.chars) := by
  have hstop : ∀ c ∈ ('h' :: (q.chars ++ ['m'])).head?, decide (c ≠ 'h') = false := by
    simp
  obtain ⟨htake, hdrop⟩ := takeWhile_append_of_all (ne_h_of_padded p) hstop
  rw [← List.append_assoc, compoundParts?, hdrop, htake]
  simp

/-! ## Checked sums -/

theorem checked_eq_some_iff {n : ℕ} {seconds : Fin UInt64.size} :
    checked n = some seconds ↔ n = seconds := by
  rw [checked]
  constructor
  · intro h
    split at h
    · cases h
      rfl
    · cases h
  · rintro rfl
    exact dif_pos seconds.isLt

/-- None of the products overflows where the sum does not. -/
theorem compoundSeconds?_eq (hours minutes : ℕ) :
    compoundSeconds? hours minutes = checked (hours * 3600 + minutes * 60) := by
  refine Option.ext fun seconds => ?_
  have hlt := seconds.isLt
  simp only [compoundSeconds?, Option.bind_eq_some_iff, checked_eq_some_iff]
  constructor
  · rintro ⟨h, hhours, m, hminutes, hsum⟩
    rw [hhours, hminutes, hsum]
  · intro hsum
    exact ⟨⟨hours * 3600, by omega⟩, rfl, ⟨minutes * 60, by omega⟩, rfl, hsum⟩

theorem compoundSeconds?_eq_some_iff {hours minutes : ℕ} {seconds : Fin UInt64.size} :
    compoundSeconds? hours minutes = some seconds ↔ hours * 3600 + minutes * 60 = seconds := by
  rw [compoundSeconds?_eq, checked_eq_some_iff]

/-- Why hours and minutes whose sum is out of range are refused. -/
def excess (hours minutes : ℕ) : ThresholdReason :=
  if UInt64.size ≤ hours then .wholeHours
  else if UInt64.size ≤ minutes then .wholeMinutes
  else .tooLarge

theorem ofCompound_padded (p q : PaddedNumber) :
    ofCompound (p.digits ++ p.after) q.chars =
      if h : p.value * 3600 + q.value * 60 < UInt64.size then
        .ok { seconds := p.value * 3600 + q.value * 60, seconds_lt := h }
      else .error (excess p.value q.value) := by
  have hhours : Text.trimChars (p.digits ++ p.after) = p.digits :=
    { p with before := [], isBlank_before := by simp }.trimChars_chars
  rw [ofCompound, hhours, q.trimChars_chars, wholeNumber?_digits, wholeNumber?_digits]
  by_cases hp : p.value < UInt64.size
  · by_cases hq : q.value < UInt64.size
    · by_cases hsum : p.value * 3600 + q.value * 60 < UInt64.size
      · simp only [if_pos hp, if_pos hq, compoundSeconds?_eq, checked, dif_pos hsum, ofSeconds]
      · simp only [if_pos hp, if_pos hq, compoundSeconds?_eq, checked, dif_neg hsum, excess,
          if_neg (not_le.mpr hp), if_neg (not_le.mpr hq)]
    · have hsum : ¬p.value * 3600 + q.value * 60 < UInt64.size := by omega
      simp only [if_pos hp, if_neg hq, dif_neg hsum, excess, if_neg (not_le.mpr hp),
        if_pos (not_lt.mp hq)]
  · have hsum : ¬p.value * 3600 + q.value * 60 < UInt64.size := by omega
    simp only [if_neg hp, dif_neg hsum, excess, if_pos (not_lt.mp hp)]

/-! ## The compound form in either case -/

theorem lowerChars_compound (p q : PaddedNumber) {h m : Char} (hh : h = 'h' ∨ h = 'H')
    (hm : m = 'm' ∨ m = 'M') :
    Text.lowerChars (p.digits ++ (p.after ++ h :: (q.chars ++ [m]))) =
      p.digits ++ (p.after ++ 'h' :: (q.chars ++ ['m'])) := by
  have hdigits := p.isDigits.isLower
  have hafter : ∀ c ∈ p.after, Text.IsLower c := fun c hc =>
    Text.isLower_of_isBlank (p.isBlank_after c hc)
  have hown : ∀ c ∈ p.digits ++ (p.after ++ h :: (q.chars ++ [m])), Text.HasOwnForm c := by
    rw [List.forall_mem_append, List.forall_mem_append, List.forall_mem_cons,
      List.forall_mem_append, List.forall_mem_singleton]
    refine ⟨fun c hc => (hdigits c hc).hasOwnForm, fun c hc => (hafter c hc).hasOwnForm, ?_,
      fun c hc => (q.isLower c hc).hasOwnForm, ?_⟩
    · rcases hh with rfl | rfl <;> decide
    · rcases hm with rfl | rfl <;> decide
  have hletter : Text.lowerChar h = 'h' := by
    rcases hh with rfl | rfl <;> decide +kernel
  have hletter' : Text.lowerChar m = 'm' := by
    rcases hm with rfl | rfl <;> decide +kernel
  rw [Text.lowerChars_eq_map hown]
  simp only [List.map_append, List.map_cons, List.map_nil, Text.map_lowerChar_of_isLower hdigits,
    Text.map_lowerChar_of_isLower hafter, Text.map_lowerChar_of_isLower q.isLower, hletter,
    hletter']

/-- A literal of hours and minutes is the sum of both, or refused where the sum is out of range. -/
theorem parse_compound {text : String} (p q : PaddedNumber) {h m : Char} {after : List Char}
    (hh : h = 'h' ∨ h = 'H') (hm : m = 'm' ∨ m = 'M')
    (hafter : ∀ c ∈ after, Text.isBlank c = true)
    (htext : text.toList = p.chars ++ (h :: (q.chars ++ [m]) ++ after)) :
    parse text =
      if hsum : p.value * 3600 + q.value * 60 < UInt64.size then
        .ok { seconds := p.value * 3600 + q.value * 60, seconds_lt := hsum }
      else .error ⟨.duration, text, excess p.value q.value⟩ := by
  have hlast : (h :: (q.chars ++ [m])).getLast? = some m := by
    rw [← List.cons_append, List.getLast?_concat]
  have hunit : IsUnit (h :: (q.chars ++ [m])) := by
    apply isUnit_of_ends rfl hlast
    · rcases hh with rfl | rfl <;> decide
    · rcases hh with rfl | rfl <;> decide
    · rcases hm with rfl | rfl <;> decide
  rw [parse, htext, p.trimChars_chars_append hunit hafter, lowerChars_compound p q hh hm,
    parseChars, compoundParts?_padded]
  simp only [ofCompound_padded]
  split <;> rfl

/-- Hours and minutes in digits come to exactly their sum where both and the sum are in range,
and are refused everywhere else. -/
theorem parse_hoursMinutes {text : String} (p q : PaddedNumber) {h m : Char} {after : List Char}
    (hh : h = 'h' ∨ h = 'H') (hm : m = 'm' ∨ m = 'M')
    (hafter : ∀ c ∈ after, Text.isBlank c = true)
    (htext : text.toList = p.chars ++ (h :: (q.chars ++ [m]) ++ after)) :
    (p.value < UInt64.size ∧ q.value < UInt64.size ∧
        3600 * p.value + 60 * q.value < UInt64.size →
      ∃ t, parse text = .ok t ∧ t.seconds = 3600 * p.value + 60 * q.value ∧ t.nanos = 0) ∧
    (¬(p.value < UInt64.size ∧ q.value < UInt64.size ∧
        3600 * p.value + 60 * q.value < UInt64.size) →
      parse text = .error ⟨.duration, text, excess p.value q.value⟩) := by
  have hread := parse_compound p q hh hm hafter htext
  have hsum : p.value * 3600 + q.value * 60 = 3600 * p.value + 60 * q.value := by ring
  constructor
  · rintro ⟨-, -, hlt⟩
    rw [dif_pos (hsum.trans_lt hlt)] at hread
    exact ⟨_, hread, hsum, rfl⟩
  · intro hrange
    rwa [dif_neg] at hread
    intro hlt
    apply hrange
    exact ⟨by omega, by omega, by omega⟩

/-- An hour and a half with white space and a zero at the start, and hours whose product is out of
range. -/
theorem parse_hourAndHalf :
    (∃ t, parse " 01 H30m " = .ok t ∧ t.seconds = 5400 ∧ t.nanos = 0) ∧
      parse "9999999999999999h1m" = .error ⟨.duration, "9999999999999999h1m", .tooLarge⟩ := by
  have htext : " 01 H30m ".toList = " 01 ".toList ++ ('H' :: ("30".toList ++ ['m']) ++ [' ']) := by
    decide
  have htext' : "9999999999999999h1m".toList =
      "9999999999999999".toList ++ ('h' :: ("1".toList ++ ['m']) ++ []) := by
    decide
  obtain ⟨t, ht, hseconds, hnanos⟩ := (parse_hoursMinutes
    ⟨[' '], "01".toList, [' '], List.all_eq_true.mp rfl, ⟨by decide, rfl⟩, List.all_eq_true.mp rfl⟩
    ⟨[], "30".toList, [], List.all_eq_true.mp rfl, ⟨by decide, rfl⟩, List.all_eq_true.mp rfl⟩
    (.inr rfl) (.inl rfl) (List.all_eq_true.mp rfl) htext).1 (by decide)
  have hlarge := (parse_hoursMinutes
    ⟨[], "9999999999999999".toList, [], List.all_eq_true.mp rfl, ⟨by decide, rfl⟩,
      List.all_eq_true.mp rfl⟩
    ⟨[], "1".toList, [], List.all_eq_true.mp rfl, ⟨by decide, rfl⟩, List.all_eq_true.mp rfl⟩
    (.inl rfl) (.inl rfl) (List.all_eq_true.mp rfl) htext').2 (by decide)
  exact ⟨⟨t, ht, hseconds, hnanos⟩, hlarge⟩

end Timespan

end MediaPhases
