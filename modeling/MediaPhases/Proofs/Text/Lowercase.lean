import MediaPhases.Proofs.Text.AsciiCase
import MediaPhases.Proofs.Text.Blank
import MediaPhases.Proofs.Text.CaseTable

/-!
# Texts in lower case

The lower-case form of a text has no letter left that has one itself, so a second pass changes
nothing.  No letter becomes white space: a text without white space at its ends keeps such ends,
and a text that was trimmed and brought to lower case stays as it is when this is done again.
-/

namespace MediaPhases.Text

variable {cs : List Char}

/-- A character that its lower-case form leaves as it is, wherever it stands. -/
def IsLower (c : Char) : Prop :=
  lowerCodePoint? c.toNat = none ∧ c ≠ 'İ'

instance (c : Char) : Decidable (IsLower c) :=
  inferInstanceAs (Decidable (_ ∧ _))

/-- A character whose lower-case form is one letter, whatever stands around it. -/
def HasOwnForm (c : Char) : Prop :=
  c ≠ 'Σ' ∧ c ≠ 'İ'

instance (c : Char) : Decidable (HasOwnForm c) :=
  inferInstanceAs (Decidable (_ ∧ _))

theorem lowerChars_eq_map (h : ∀ c ∈ cs, HasOwnForm c) : lowerChars cs = cs.map lowerChar := by
  have hafter : ∀ before, lowerAfter before cs = cs.map lowerChar := by
    induction cs with
    | nil =>
        intro before
        rfl
    | cons c cs ih =>
        intro before
        have hc : HasOwnForm c := h c List.mem_cons_self
        have hrest := ih (fun d hd => h d (List.mem_cons_of_mem c hd)) (c :: before)
        rw [lowerAfter, lowerBetween, if_neg hc.1, if_neg hc.2, hrest]
        rfl
  exact hafter []

theorem IsLower.hasOwnForm {c : Char} (h : IsLower c) : HasOwnForm c := by
  refine ⟨?_, h.2⟩
  rintro rfl
  revert h
  decide

theorem lowerChar_of_isLower {c : Char} (h : IsLower c) : lowerChar c = c := by
  rw [lowerChar, h.1]

theorem map_lowerChar_of_isLower (h : ∀ c ∈ cs, IsLower c) : cs.map lowerChar = cs := by
  have hsame : ∀ c ∈ cs, lowerChar c = id c := fun c hc => lowerChar_of_isLower (h c hc)
  rw [List.map_congr_left hsame, List.map_id]

theorem lowerChars_of_isLower (h : ∀ c ∈ cs, IsLower c) : lowerChars cs = cs := by
  have hown : ∀ c ∈ cs, HasOwnForm c := fun c hc => (h c hc).hasOwnForm
  rw [lowerChars_eq_map hown, map_lowerChar_of_isLower h]

theorem isLower_of_isBlank {c : Char} (h : isBlank c = true) : IsLower c := by
  refine ⟨lowerCodePoint?_of_isBlank h, ?_⟩
  rintro rfl
  revert h
  decide

/-! ## ASCII -/

theorem first_of_mem_caseRuns :
    ∀ r ∈ caseRuns, r.first = 65 ∧ r.last = 90 ∨ 128 ≤ r.first := by
  decide +kernel

/-- No run of letters with a lower-case form lies below the capitals, nor between them and the end
of ASCII. -/
theorem lowerCodePoint?_ascii {n : ℕ} (hlt : n < 128) (hcapital : n < 65 ∨ 90 < n) :
    lowerCodePoint? n = none := by
  refine List.findSome?_eq_none_iff.mpr fun r hr => ?_
  have hrun := first_of_mem_caseRuns r hr
  rw [CaseRun.lower?, if_neg]
  omega

/-- An ASCII character that is no capital. -/
def IsAsciiLower (c : Char) : Prop :=
  c.toNat < 128 ∧ (c.toNat < 65 ∨ 90 < c.toNat)

instance (c : Char) : Decidable (IsAsciiLower c) :=
  inferInstanceAs (Decidable (_ ∧ _))

theorem IsAsciiLower.isLower {c : Char} (h : IsAsciiLower c) : IsLower c := by
  refine ⟨lowerCodePoint?_ascii h.1 h.2, ?_⟩
  rintro rfl
  revert h
  decide

theorem lowerChars_of_isAsciiLower (h : ∀ c ∈ cs, IsAsciiLower c) : lowerChars cs = cs :=
  lowerChars_of_isLower fun c hc => (h c hc).isLower

/-- The capitals are the first run of letters with a lower-case form. -/
theorem lowerCodePoint?_capital {n : ℕ} (hfirst : 65 ≤ n) (hlast : n ≤ 90) :
    lowerCodePoint? n = some (n + 32) := by
  have hruns : caseRuns = ⟨65, 90, 1, 32⟩ :: caseRuns.tail := rfl
  have hlower : CaseRun.lower? ⟨65, 90, 1, 32⟩ n = some (n + 32) := by
    rw [CaseRun.lower?, if_pos ⟨hfirst, hlast, Nat.mod_one _⟩]
    exact congrArg some (Int.toNat_natCast (n + 32))
  rw [lowerCodePoint?, hruns, List.findSome?_cons, hlower]

theorem lowerChar_ascii {c : Char} (h : c.toNat < 128) : lowerChar c = c.toLower := by
  by_cases hcapital : 65 ≤ c.toNat ∧ c.toNat ≤ 90
  · have hnat : c.toLower.toNat = c.toNat + 32 := by rw [toNat_toLower, if_pos hcapital]
    rw [lowerChar, lowerCodePoint?_capital hcapital.1 hcapital.2, ← hnat]
    exact Char.ofNat_toNat c.toLower
  · have hlower : IsAsciiLower c := ⟨h, by omega⟩
    rw [lowerChar_of_isLower hlower.isLower, ← Char.toNat_inj, toNat_toLower, if_neg hcapital]

/-- On ASCII texts the two ways to lower case agree. -/
theorem lowercase_ascii {s : String} (h : ∀ c ∈ s.toList, c.toNat < 128) :
    lowercase s = asciiLowercase s := by
  have hown : ∀ c ∈ s.toList, HasOwnForm c := by
    intro c hc
    have hlt := h c hc
    constructor
    · rintro rfl
      revert hlt
      decide
    · rintro rfl
      revert hlt
      decide
  rw [lowercase, lowerChars_eq_map hown, List.map_congr_left fun c hc => lowerChar_ascii (h c hc)]
  rfl

/-! ## The form of one character -/

theorem isLower_of_lowerCodePoint? {n k : ℕ} (h : lowerCodePoint? n = some k) :
    IsLower (Char.ofNat k) := by
  have hchar := toNat_ofNat_of_lowerCodePoint? h
  refine ⟨?_, ?_⟩
  · rw [hchar]
    exact lowerCodePoint?_idem h
  · intro hdotted
    have hrange := notMem_of_lowerCodePoint? h (0x130, 0x130) (by decide)
    rw [← hchar, hdotted] at hrange
    exact hrange (by decide)

theorem isBlank_of_lowerCodePoint? {n k : ℕ} (h : lowerCodePoint? n = some k) :
    isBlank (Char.ofNat k) = false := by
  rw [← Bool.not_eq_true]
  intro hblank
  obtain ⟨range, hrange, hmem⟩ := exists_blankRange hblank
  rw [toNat_ofNat_of_lowerCodePoint? h] at hmem
  have hletterless : range ∈ letterlessRanges :=
    List.mem_cons_of_mem _ (List.mem_cons_of_mem _ hrange)
  exact notMem_of_lowerCodePoint? h range hletterless hmem

/-- What becomes of one character: letters in lower case, and white space only where there was
some. -/
theorem of_mem_lowerBetween {before after : List Char} {c d : Char}
    (h : d ∈ lowerBetween before c after) :
    IsLower d ∧ (isBlank c = false → isBlank d = false) := by
  rw [lowerBetween] at h
  by_cases hsigma : c = 'Σ'
  · have hfinal : IsLower 'ς' ∧ isBlank 'ς' = false := by decide
    have hmedial : IsLower 'σ' ∧ isBlank 'σ' = false := by decide
    rw [if_pos hsigma, List.mem_singleton] at h
    subst h
    split
    · exact ⟨hfinal.1, fun _ => hfinal.2⟩
    · exact ⟨hmedial.1, fun _ => hmedial.2⟩
  rw [if_neg hsigma] at h
  by_cases hdotted : c = 'İ'
  · have hletter : IsLower 'i' ∧ isBlank 'i' = false := by decide
    have hdot : IsLower (Char.ofNat 0x307) ∧ isBlank (Char.ofNat 0x307) = false := by decide
    rw [if_pos hdotted, List.mem_pair] at h
    rcases h with rfl | rfl
    · exact ⟨hletter.1, fun _ => hletter.2⟩
    · exact ⟨hdot.1, fun _ => hdot.2⟩
  rw [if_neg hdotted, List.mem_singleton, lowerChar] at h
  subst h
  split
  · rename_i k hlower
    exact ⟨isLower_of_lowerCodePoint? hlower, fun _ => isBlank_of_lowerCodePoint? hlower⟩
  · rename_i hnone
    exact ⟨⟨hnone, hdotted⟩, id⟩

theorem lowerBetween_ne_nil (before after : List Char) (c : Char) :
    lowerBetween before c after ≠ [] := by
  rw [lowerBetween]
  split
  · exact List.cons_ne_nil _ _
  · split <;> exact List.cons_ne_nil _ _

/-! ## The form of a text -/

theorem isLower_of_mem_lowerAfter {d : Char} {before : List Char} (h : d ∈ lowerAfter before cs) :
    IsLower d := by
  induction cs generalizing before with
  | nil => cases h
  | cons c cs ih =>
      rw [lowerAfter, List.mem_append] at h
      rcases h with h | h
      · exact (of_mem_lowerBetween h).1
      · exact ih h

theorem lowerChars_lowerChars (cs : List Char) : lowerChars (lowerChars cs) = lowerChars cs :=
  lowerChars_of_isLower fun _ => isLower_of_mem_lowerAfter

/-- What a text begins with comes from its first character. -/
theorem isBlank_of_head?_lowerChars (h : ∀ c ∈ cs.head?, isBlank c = false) :
    ∀ d ∈ (lowerChars cs).head?, isBlank d = false := by
  intro d hd
  cases cs with
  | nil => cases hd
  | cons c cs =>
      rw [lowerChars, lowerAfter, List.head?_append_of_ne_nil _ (lowerBetween_ne_nil _ _ _)] at hd
      exact (of_mem_lowerBetween (List.mem_of_mem_head? hd)).2 (h c rfl)

/-- What a text ends with comes from its last character. -/
theorem isBlank_of_getLast?_lowerAfter {before : List Char}
    (h : ∀ c ∈ cs.getLast?, isBlank c = false) :
    ∀ d ∈ (lowerAfter before cs).getLast?, isBlank d = false := by
  induction cs generalizing before with
  | nil =>
      intro d hd
      cases hd
  | cons c cs ih =>
      intro d hd
      rw [lowerAfter] at hd
      cases cs with
      | nil =>
          rw [lowerAfter, List.append_nil] at hd
          exact (of_mem_lowerBetween (List.mem_of_mem_getLast? hd)).2 (h c rfl)
      | cons c' cs =>
          -- There is a last character after `c`, and its form is not empty.
          have hne : lowerAfter (c :: before) (c' :: cs) ≠ [] := by
            rw [lowerAfter]
            exact List.append_ne_nil_of_left_ne_nil (lowerBetween_ne_nil _ _ _) _
          rw [List.getLast?_append_of_ne_nil _ hne] at hd
          rw [List.getLast?_cons_cons] at h
          exact ih h d hd

theorem trimChars_lowerChars_trimChars (cs : List Char) :
    trimChars (lowerChars (trimChars cs)) = lowerChars (trimChars cs) :=
  trimChars_of_ends
    (isBlank_of_head?_lowerChars fun _ => isBlank_of_head?_trimChars)
    (isBlank_of_getLast?_lowerAfter fun _ => isBlank_of_getLast?_trimEnd)

/-- A text that was trimmed and brought to lower case is left as it is by both. -/
theorem lowerChars_trimChars_idem (cs : List Char) :
    lowerChars (trimChars (lowerChars (trimChars cs))) = lowerChars (trimChars cs) := by
  rw [trimChars_lowerChars_trimChars, lowerChars_lowerChars]

theorem lowerChars_ne_nil (h : cs ≠ []) : lowerChars cs ≠ [] := by
  cases cs with
  | nil => exact absurd rfl h
  | cons c cs =>
      rw [lowerChars, lowerAfter]
      exact List.append_ne_nil_of_left_ne_nil (lowerBetween_ne_nil _ _ _) _

end MediaPhases.Text
