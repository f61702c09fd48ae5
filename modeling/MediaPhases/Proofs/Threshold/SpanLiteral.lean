import MediaPhases.Proofs.Threshold.SizeLiteral
import MediaPhases.Proofs.Threshold.Timespan

/-!
# Duration literals

A duration is written as a plain number, white space and a unit, or as hours and minutes in digits.
The simple form is accepted as it is described.  In the compound form a plus sign may stand before
the digits of either number, although it stands nowhere in the simple form: this is the only way in
which a literal that is accepted departs from the two forms.
-/

namespace MediaPhases

/-- A whole number in digits between white space, which a plus sign may precede. -/
structure SignedNumber extends PaddedNumber where
  hasPlus : Bool

namespace SignedNumber

/-- The digits with their sign. -/
def signed (p : SignedNumber) : List Char :=
  (if p.hasPlus then ['+'] else []) ++ p.digits

/-- The text of the number with its sign and its white space. -/
def signedChars (p : SignedNumber) : List Char :=
  p.before ++ (p.signed ++ p.after)

variable {p : SignedNumber} {c : Char}

theorem mem_signed (hc : c ∈ p.signed) : c = '+' ∨ c.isDigit = true := by
  rw [signed, List.mem_append] at hc
  rcases hc with hc | hc
  · split at hc
    · exact .inl (List.mem_singleton.mp hc)
    · exact absurd hc List.not_mem_nil
  · exact .inr (List.all_eq_true.mp p.isDigits.all_isDigit c hc)

theorem mem_signedChars (hc : c ∈ p.signedChars) :
    c = '+' ∨ c.isDigit = true ∨ Text.isBlank c = true := by
  rw [signedChars, List.mem_append, List.mem_append] at hc
  rcases hc with hc | hc | hc
  · exact .inr (.inr (p.isBlank_before c hc))
  · exact (mem_signed hc).imp_right .inl
  · exact .inr (.inr (p.isBlank_after c hc))

theorem trimChars_signedChars (p : SignedNumber) : Text.trimChars p.signedChars = p.signed := by
  have hblank : ∀ c ∈ p.signed, Text.isBlank c = false := by
    intro c hc
    rcases mem_signed hc with rfl | hdigit
    · decide
    · exact isBlank_of_isAmountChar (isAmountChar_iff.mpr (.inl hdigit))
  apply Text.trimChars_of_blank_append p.isBlank_before p.isBlank_after
  · exact List.append_ne_nil_of_right_ne_nil _ p.isDigits.nonempty
  · intro c hc
    exact hblank c (List.mem_of_mem_head? hc)
  · intro c hc
    exact hblank c (List.mem_of_getLast? hc)

/-- Without a plus sign the number is written as one between white space. -/
theorem signedChars_eq_chars (hplus : '+' ∉ p.signedChars) : p.signedChars = p.chars := by
  by_cases hsign : p.hasPlus
  · exfalso
    apply hplus
    simp [signedChars, signed, hsign]
  · simp [signedChars, signed, hsign, PaddedNumber.chars]

end SignedNumber

namespace Timespan

open ByteSize (IsMagnitude)

variable {t : Timespan} {text : String} {cs hours minutes number unit gap : List Char} {k n : ℕ}

/-! ## The two forms -/

/-- The characters of a literal that decide about it. -/
def lowered (text : String) : List Char :=
  Text.lowerChars (Text.trimChars text.toList)

/-- A plain number, white space, and the letter of a unit. -/
def IsSimpleLiteral (cs : List Char) : Prop :=
  ∃ number gap, ∃ unit ∈ ['s', 'm', 'h'], cs = number ++ (gap ++ [unit]) ∧
    IsPlainNumber number ∧ ∀ c ∈ gap, Text.isBlank c = true

/-- Hours and minutes with their letters. -/
def compoundChars (hours minutes : List Char) : List Char :=
  hours ++ 'h' :: (minutes ++ ['m'])

/-- One of the two forms in which durations are written. -/
def IsLiteral (cs : List Char) : Prop :=
  IsSimpleLiteral cs ∨ ∃ p q : PaddedNumber, cs = compoundChars p.chars q.chars

/-- The compound form in which plus signs may stand before the digits, with the duration that it
states. -/
def StatesCompound (t : Timespan) (cs : List Char) : Prop :=
  ∃ p q : SignedNumber, cs = compoundChars p.signedChars q.signedChars ∧ t.nanos = 0 ∧
    t.seconds = p.value * 3600 + q.value * 60

theorem mem_unitLetters_iff {letter : Char} :
    letter ∈ ['s', 'm', 'h'] ↔ ∃ k, unitSeconds? [letter] = some k := by
  constructor
  · intro hletter
    simp only [List.mem_cons, List.not_mem_nil, or_false] at hletter
    rcases hletter with rfl | rfl | rfl
    · exact ⟨1, rfl⟩
    · exact ⟨60, rfl⟩
    · exact ⟨3600, rfl⟩
  · rintro ⟨k, hk⟩
    have hcases := unitSeconds?_cases hk
    simp only [List.cons.injEq, and_true] at hcases
    rcases hcases with ⟨rfl, -⟩ | ⟨rfl, -⟩ | ⟨rfl, -⟩
    all_goals decide

/-- A plus sign has no place in either form. -/
theorem notMem_plus_of_isLiteral (h : IsLiteral cs) : '+' ∉ cs := by
  have hpadded : ∀ p : PaddedNumber, '+' ∉ p.chars := by
    intro p hmem
    rw [PaddedNumber.chars, List.mem_append, List.mem_append] at hmem
    rcases hmem with hmem | hmem | hmem
    · exact absurd (p.isBlank_before '+' hmem) (by decide)
    · exact absurd (List.all_eq_true.mp p.isDigits.all_isDigit '+' hmem) (by decide)
    · exact absurd (p.isBlank_after '+' hmem) (by decide)
  intro hplus
  rcases h with ⟨number, gap, unit, hunit, rfl, hnumber, hgap⟩ | ⟨p, q, rfl⟩
  · rw [List.mem_append, List.mem_append, List.mem_singleton] at hplus
    rcases hplus with hplus | hplus | rfl
    · exact absurd (hnumber.isDigit_or_point '+' hplus) (by decide)
    · exact absurd (hgap '+' hplus) (by decide)
    · exact absurd hunit (by decide)
  · rw [compoundChars, List.mem_append, List.mem_cons, List.mem_append,
      List.mem_singleton] at hplus
    rcases hplus with hplus | hplus | hplus | hplus
    · exact hpadded p hplus
    · exact absurd hplus (by decide)
    · exact hpadded q hplus
    · exact absurd hplus (by decide)

theorem StatesCompound.isLiteral (h : t.StatesCompound cs) (hplus : '+' ∉ cs) :
    IsLiteral cs := by
  obtain ⟨p, q, rfl, -, -⟩ := h
  rw [compoundChars, List.mem_append, List.mem_cons, List.mem_append] at hplus
  push Not at hplus
  refine .inr ⟨p.toPaddedNumber, q.toPaddedNumber, ?_⟩
  rw [SignedNumber.signedChars_eq_chars hplus.1, SignedNumber.signedChars_eq_chars hplus.2.2.1]

/-! ## The compound form -/

theorem filter_natOfDigits?_eq_some_iff {digits : List Char} :
    (natOfDigits? digits).filter (· < UInt64.size) = some n ↔
      IsDigits digits ∧ digitsValue digits = n ∧ n < UInt64.size := by
  rw [Option.filter_eq_some_iff, natOfDigits?]
  constructor
  · rintro ⟨hsome, hlt⟩
    split at hsome
    · rename_i hdigits
      exact ⟨⟨hdigits.1, hdigits.2⟩, Option.some.inj hsome, of_decide_eq_true hlt⟩
    · cases hsome
  · rintro ⟨hdigits, hvalue, hlt⟩
    rw [if_pos ⟨hdigits.nonempty, hdigits.all_isDigit⟩, hvalue]
    exact ⟨rfl, decide_eq_true hlt⟩

theorem not_isDigits_plus (rest : List Char) : ¬IsDigits ('+' :: rest) := by
  intro h
  exact absurd (List.all_eq_true.mp h.all_isDigit '+' List.mem_cons_self) (by decide)

/-- A whole number is read from digits that a plus sign may precede. -/
theorem wholeNumber?_eq_some_iff : wholeNumber? cs = some n ↔
    ∃ digits, (cs = digits ∨ cs = '+' :: digits) ∧ IsDigits digits ∧ digitsValue digits = n ∧
      n < UInt64.size := by
  unfold wholeNumber?
  split
  · rename_i rest
    rw [filter_natOfDigits?_eq_some_iff]
    constructor
    · intro h
      exact ⟨rest, .inr rfl, h⟩
    · rintro ⟨digits, rfl | heq, h⟩
      · exact absurd h.1 (not_isDigits_plus rest)
      · rwa [List.tail_eq_of_cons_eq heq]
  · rename_i hnone
    rw [filter_natOfDigits?_eq_some_iff]
    constructor
    · intro h
      exact ⟨cs, .inl rfl, h⟩
    · rintro ⟨digits, rfl | rfl, h⟩
      · exact h
      · exact absurd rfl (hnone digits)

theorem wholeNumber?_trimChars_eq_some_iff : wholeNumber? (Text.trimChars cs) = some n ↔
    ∃ p : SignedNumber, cs = p.signedChars ∧ p.value = n ∧ n < UInt64.size := by
  rw [wholeNumber?_eq_some_iff]
  constructor
  · rintro ⟨digits, hsign, hdigits, hvalue, hlt⟩
    obtain ⟨before, after, hbefore, hafter, hcs⟩ := Text.exists_eq_trimChars cs
    rcases hsign with hsign | hsign
    · refine ⟨⟨⟨before, digits, after, hbefore, hdigits, hafter⟩, false⟩, ?_, hvalue, hlt⟩
      rw [hsign] at hcs
      exact hcs
    · refine ⟨⟨⟨before, digits, after, hbefore, hdigits, hafter⟩, true⟩, ?_, hvalue, hlt⟩
      rw [hsign] at hcs
      exact hcs
  · rintro ⟨p, rfl, hvalue, hlt⟩
    refine ⟨p.digits, ?_, p.isDigits, hvalue, hlt⟩
    rw [p.trimChars_signedChars, SignedNumber.signed]
    by_cases hsign : p.hasPlus
    · simp [hsign]
    · simp [hsign]

theorem ofCompound_eq_ok_iff : ofCompound hours minutes = .ok t ↔
    ∃ p q : SignedNumber, hours = p.signedChars ∧ minutes = q.signedChars ∧ t.nanos = 0 ∧
      t.seconds = p.value * 3600 + q.value * 60 := by
  constructor
  · intro h
    simp only [ofCompound] at h
    split at h
    · cases h
    · cases h
    · rename_i hhours hminutes
      obtain ⟨p, hp, rfl, -⟩ := wholeNumber?_trimChars_eq_some_iff.mp hhours
      obtain ⟨q, hq, rfl, -⟩ := wholeNumber?_trimChars_eq_some_iff.mp hminutes
      refine ⟨p, q, hp, hq, ?_⟩
      split at h
      · rename_i hsome
        cases h
        exact ⟨rfl, (compoundSeconds?_eq_some_iff.mp hsome).symm⟩
      · cases h
  · rintro ⟨p, q, rfl, rfl, hnanos, hseconds⟩
    have hlt := t.seconds_lt
    have hhours : wholeNumber? (Text.trimChars p.signedChars) = some p.value :=
      wholeNumber?_trimChars_eq_some_iff.mpr ⟨p, rfl, rfl, by omega⟩
    have hminutes : wholeNumber? (Text.trimChars q.signedChars) = some q.value :=
      wholeNumber?_trimChars_eq_some_iff.mpr ⟨q, rfl, rfl, by omega⟩
    have hsum : compoundSeconds? p.value q.value = some ⟨t.seconds, hlt⟩ :=
      compoundSeconds?_eq_some_iff.mpr hseconds.symm
    simp only [ofCompound, hhours, hminutes, hsum]
    exact congrArg _ (Timespan.ext rfl hnanos.symm)

/-- The compound form is taken apart at its first `h` and its final `m`. -/
theorem compoundParts?_eq_some_iff : compoundParts? cs = some (hours, minutes) ↔
    'h' ∉ hours ∧ cs = compoundChars hours minutes := by
  constructor
  · intro h
    unfold compoundParts? at h
    split at h
    · rename_i rest hrest
      split at h
      · rename_i hlast
        cases h
        constructor
        · intro hmem
          exact absurd (List.all_eq_true.mp List.all_takeWhile 'h' hmem) (by decide)
        · have hminutes : rest.dropLast ++ ['m'] = rest := by
            exact List.dropLast_append_getLast? 'm' hlast
          rw [compoundChars, hminutes, ← hrest, List.takeWhile_append_dropWhile]
      · cases h
    · cases h
  · rintro ⟨hhours, rfl⟩
    have hall : hours.all (fun c => decide (c ≠ 'h')) = true := by
      rw [List.all_eq_true]
      intro c hc
      rw [decide_eq_true_eq]
      rintro rfl
      exact hhours hc
    have hstop : ∀ c ∈ ('h' :: (minutes ++ ['m'])).head?, decide (c ≠ 'h') = false := by
      simp
    obtain ⟨htake, hdrop⟩ := takeWhile_append_of_all hall hstop
    rw [compoundChars, compoundParts?, hdrop, htake]
    simp

theorem h_notMem_signedChars (p : SignedNumber) : 'h' ∉ p.signedChars := by
  intro hmem
  rcases SignedNumber.mem_signedChars hmem with h | h | h
  all_goals exact absurd h (by decide)

theorem parse_eq_ok_iff : parse text = .ok t ↔ parseChars (lowered text) = .ok t := by
  rw [parse, mapError_eq_ok_iff, lowered]

theorem StatesCompound.parse_eq (h : t.StatesCompound (lowered text)) : parse text = .ok t := by
  obtain ⟨p, q, hchars, hnanos, hseconds⟩ := h
  have hparts : compoundParts? (lowered text) = some (p.signedChars, q.signedChars) :=
    compoundParts?_eq_some_iff.mpr ⟨h_notMem_signedChars p, hchars⟩
  rw [parse_eq_ok_iff, parseChars, hparts]
  exact ofCompound_eq_ok_iff.mpr ⟨p, q, rfl, rfl, hnanos, hseconds⟩

/-! ## The simple form -/

/-- The simple form has no minutes behind its hours. -/
theorem compoundParts?_of_isSimpleLiteral (h : IsSimpleLiteral cs) : compoundParts? cs = none := by
  obtain ⟨number, gap, unit, -, rfl, hnumber, hgap⟩ := h
  have hne : 'h' ∉ number ++ gap := by
    intro hmem
    rw [List.mem_append] at hmem
    rcases hmem with hmem | hmem
    · exact absurd (hnumber.isDigit_or_point 'h' hmem) (by decide)
    · exact absurd (hgap 'h' hmem) (by decide)
  rw [Option.eq_none_iff_forall_ne_some]
  rintro ⟨hours, minutes⟩ hparts
  obtain ⟨-, hchars⟩ := compoundParts?_eq_some_iff.mp hparts
  have hsplit : number ++ gap ++ [unit] = hours ++ 'h' :: minutes ++ ['m'] := by
    rw [List.append_assoc, hchars, compoundChars, List.append_assoc, List.cons_append]
  -- Behind its number and white space a literal of this form has a single letter.
  apply hne
  rw [(List.append_inj' hsplit rfl).1]
  exact List.mem_append_right _ List.mem_cons_self

theorem ofProduct_error {x : Magnitude} {reason : ThresholdReason}
    (h : ofProduct x = .error reason) : reason = .tooLarge := by
  cases x with
  | infinite =>
      cases h
      rfl
  | finite m e =>
      simp only [ofProduct] at h
      split at h
      · cases h
      · cases h
        rfl

/-- The simple form is refused for its magnitude only. -/
theorem isMagnitude_of_isSimpleLiteral (h : IsSimpleLiteral cs) {reason : ThresholdReason}
    (hrefused : parseChars cs = .error reason) : IsMagnitude reason := by
  rw [parseChars, compoundParts?_of_isSimpleLiteral h] at hrefused
  obtain ⟨number, gap, letter, hletter, rfl, hnumber, hgap⟩ := h
  obtain ⟨k, hunit⟩ := mem_unitLetters_iff.mp hletter
  simp only [ofAmount, splitAmount_append (all_isAmountChar_of_isPlainNumber hnumber) hgap
    (isUnit_of_unitSeconds? hunit), hunit] at hrefused
  obtain ⟨m, e, hamount⟩ | hamount := amountOf_cases hnumber
  · rw [hamount] at hrefused
    exact .inl (ofProduct_error hrefused)
  · rw [hamount] at hrefused
    cases hrefused
    exact .inr rfl

theorem isSimpleLiteral_of_ofAmount (hlast : ∀ c ∈ cs.getLast?, Text.isBlank c = false)
    (h : ofAmount cs = .ok t) : IsSimpleLiteral cs := by
  obtain ⟨number, unit, hsplit⟩ : ∃ number unit, splitAmount cs = (number, unit) :=
    ⟨_, _, rfl⟩
  simp only [ofAmount, hsplit] at h
  split at h
  · cases h
  · rename_i k hunit
    have hnumber : IsPlainNumber number := by
      by_contra hnumber
      rw [amountOf_of_not_isPlainNumber hnumber] at h
      cases h
    obtain ⟨gap, hgap, rfl⟩ :=
      exists_splitAmount_eq hlast hsplit (isUnit_of_unitSeconds? hunit).nonempty
    obtain ⟨letter, rfl⟩ : ∃ letter, unit = [letter] := by
      obtain ⟨rfl, -⟩ | ⟨rfl, -⟩ | ⟨rfl, -⟩ := unitSeconds?_cases hunit
      all_goals exact ⟨_, rfl⟩
    exact ⟨number, gap, letter, mem_unitLetters_iff.mpr ⟨k, hunit⟩, rfl, hnumber, hgap⟩

/-! ## What is accepted -/

theorem isBlank_of_getLast?_lowered {c : Char} (hc : c ∈ (lowered text).getLast?) :
    Text.isBlank c = false :=
  Text.isBlank_of_getLast?_lowerAfter (fun _ => Text.isBlank_of_getLast?_trimEnd) c hc

/-- A literal that is accepted has the simple form, or the compound form with or without plus
signs. -/
theorem cases_of_parse (h : parse text = .ok t) :
    IsSimpleLiteral (lowered text) ∨ t.StatesCompound (lowered text) := by
  rw [parse_eq_ok_iff, parseChars] at h
  split at h
  · rename_i hours minutes hparts
    obtain ⟨-, hchars⟩ := compoundParts?_eq_some_iff.mp hparts
    obtain ⟨p, q, rfl, rfl, hstates⟩ := ofCompound_eq_ok_iff.mp h
    exact .inr ⟨p, q, hchars, hstates⟩
  · exact .inl (isSimpleLiteral_of_ofAmount (fun _ => isBlank_of_getLast?_lowered) h)

/-- A literal that is accepted has one of the two documented forms, unless it is compound and has a
plus sign before its hours or its minutes.  Such signs are passed over: the compound form with them
is accepted for the sum of its hours and minutes like the one without them.  The simple form is
refused for its magnitude only. -/
theorem parse_spanLiteral (text : String) :
    (∀ t, parse text = .ok t →
      IsLiteral (lowered text) ∨ '+' ∈ lowered text ∧ t.StatesCompound (lowered text)) ∧
    (∀ t : Timespan, t.StatesCompound (lowered text) → parse text = .ok t) ∧
    (IsSimpleLiteral (lowered text) → (∃ t, parse text = .ok t) ∨
      ∃ reason, IsMagnitude reason ∧ parse text = .error ⟨.duration, text, reason⟩) := by
  refine ⟨?_, ?_, ?_⟩
  · intro t h
    rcases cases_of_parse h with hsimple | hcompound
    · exact .inl (.inl hsimple)
    · by_cases hplus : '+' ∈ lowered text
      · exact .inr ⟨hplus, hcompound⟩
      · exact .inl (hcompound.isLiteral hplus)
  · intro t h
    exact h.parse_eq
  · intro hsimple
    cases hchars : parseChars (lowered text) with
    | ok t => exact .inl ⟨t, parse_eq_ok_iff.mpr hchars⟩
    | error reason =>
        refine .inr ⟨reason, isMagnitude_of_isSimpleLiteral hsimple hchars, ?_⟩
        rw [parse, ← lowered, hchars]
        rfl

/-- An hour and a half with a plus sign and white space, and minutes in capitals. -/
theorem parse_signedHour :
    parse " +1 H30m" = .ok ⟨5400, 0, by decide, by decide⟩ ∧ IsLiteral (lowered "90 M") := by
  constructor
  · apply (parse_spanLiteral " +1 H30m").2.1
    refine ⟨⟨⟨[], "1".toList, [' '], by simp, ⟨by decide, rfl⟩, List.all_eq_true.mp rfl⟩, true⟩,
      ⟨⟨[], "30".toList, [], by simp, ⟨by decide, rfl⟩, by simp⟩, false⟩, ?_, rfl, ?_⟩
    · decide +kernel
    · decide
  · have hread : parse "90 M" = .ok ⟨5400, 0, by decide, by decide⟩ := by decide +kernel
    exact ((parse_spanLiteral "90 M").1 _ hread).resolve_right fun h =>
      absurd h.1 (by decide +kernel)

/-- Hours with a plus sign are accepted, which is neither of the two forms; minutes with one are
refused. -/
theorem signedHour_not_isLiteral :
    parse "+1h30m" = .ok ⟨5400, 0, by decide, by decide⟩ ∧ ¬IsLiteral (lowered "+1h30m") ∧
      parse "+90m" = .error ⟨.duration, "+90m", .durationUnit⟩ := by
  refine ⟨by decide +kernel, ?_, by decide +kernel⟩
  intro h
  exact notMem_plus_of_isLiteral h (by decide +kernel)

end Timespan

end MediaPhases
