import MediaPhases.Text.Blank
import MediaPhases.Text.Lowercase
import Mathlib.Data.Nat.ModEq

/-!
# Letters and their lower-case forms

The lower-case forms of a run of letters are as far apart as the letters.  So two runs are
compared by their ends and steps, not letter by letter, to see that no lower-case form is a letter
with a form of its own.  The forms also keep away from white space, from the capital I with a dot
and from the code points that are no characters.
-/

namespace MediaPhases.Text

namespace CaseRun

variable {r s : CaseRun} {n k : ℕ}

/-- The lower-case form of the first letter of the run. -/
def lowerFirst (r : CaseRun) : ℕ :=
  ((r.first : ℤ) + r.shift).toNat

/-- All lower-case forms of the run lie before a range, or all lie after it. -/
def misses (r : CaseRun) (range : ℕ × ℕ) : Bool :=
  (r.lowerFirst + (r.last - r.first)).blt range.1 || range.2.blt r.lowerFirst

/-- No lower-case form of the run is a letter of the other one: they lie apart, or the forms stand
between its letters. -/
def avoids (r s : CaseRun) : Bool :=
  r.misses (s.first, s.last) ||
    ((r.first == r.last || r.step % s.step == 0) && r.lowerFirst % s.step != s.first % s.step)

/-- A lower-case form is as far from the first one as its letter is from the first letter. -/
theorem exists_eq_lowerFirst_add (hpos : 0 ≤ (r.first : ℤ) + r.shift) (h : r.lower? n = some k) :
    ∃ d ≤ r.last - r.first, d % r.step = 0 ∧ k = r.lowerFirst + d := by
  rw [lower?] at h
  split at h
  · rename_i hrun
    obtain ⟨hfirst, hlast, hstep⟩ := hrun
    cases h
    refine ⟨n - r.first, by omega, hstep, ?_⟩
    rw [lowerFirst]
    omega
  · cases h

theorem notMem_of_misses (hpos : 0 ≤ (r.first : ℤ) + r.shift) {range : ℕ × ℕ}
    (hmisses : r.misses range = true) (h : r.lower? n = some k) :
    ¬(range.1 ≤ k ∧ k ≤ range.2) := by
  obtain ⟨d, hd, -, rfl⟩ := exists_eq_lowerFirst_add hpos h
  simp only [misses, Bool.or_eq_true, Nat.blt_eq] at hmisses
  omega

theorem lower?_of_avoids (hpos : 0 ≤ (r.first : ℤ) + r.shift) (havoids : r.avoids s = true)
    (h : r.lower? n = some k) : s.lower? k = none := by
  rw [lower?, if_neg]
  rintro ⟨hfirst, hlast, hstep⟩
  simp only [avoids, Bool.or_eq_true, Bool.and_eq_true, beq_iff_eq, bne_iff_ne] at havoids
  rcases havoids with hmisses | ⟨hsteps, hfirsts⟩
  · exact notMem_of_misses hpos hmisses h ⟨hfirst, hlast⟩
  · -- A letter of `s` would bring the first letters in step, which they are not.
    obtain ⟨d, hd, hdstep, rfl⟩ := exists_eq_lowerFirst_add hpos h
    have hdvd : s.step ∣ d := by
      rcases hsteps with hsingle | hsteps
      · have hzero : d = 0 := by omega
        exact hzero ▸ Nat.dvd_zero _
      · exact (Nat.dvd_of_mod_eq_zero hsteps).trans (Nat.dvd_of_mod_eq_zero hdstep)
    have hsame : s.first ≡ r.lowerFirst + d [MOD s.step] :=
      (Nat.modEq_iff_dvd' hfirst).mpr (Nat.dvd_of_mod_eq_zero hstep)
    have hdrop : r.lowerFirst + d ≡ r.lowerFirst [MOD s.step] :=
      (Nat.modEq_zero_iff_dvd.mpr hdvd).add_left r.lowerFirst
    exact hfirsts (hsame.trans hdrop).symm

end CaseRun

/-- The ranges of white space. -/
def blankRanges : List (ℕ × ℕ) := [
  (9, 13), (0x20, 0x20), (0x85, 0x85), (0xA0, 0xA0), (0x1680, 0x1680), (0x2000, 0x200A),
  (0x2028, 0x2029), (0x202F, 0x202F), (0x205F, 0x205F), (0x3000, 0x3000)]

theorem exists_blankRange {c : Char} (h : isBlank c = true) :
    ∃ range ∈ blankRanges, range.1 ≤ c.toNat ∧ c.toNat ≤ range.2 := by
  simp only [isBlank, Bool.or_eq_true, Bool.and_eq_true, decide_eq_true_eq, beq_iff_eq] at h
  simp only [blankRanges, List.mem_cons, List.not_mem_nil, or_false, exists_eq_or_imp,
    exists_eq_left]
  omega

theorem all_avoids_caseRuns : (caseRuns.all fun r => caseRuns.all r.avoids) = true := by
  decide +kernel

/-- No lower-case form is a letter with a lower-case form of its own. -/
theorem avoids_of_mem_caseRuns : ∀ r ∈ caseRuns, ∀ s ∈ caseRuns, r.avoids s = true := by
  intro r hr s hs
  exact List.all_eq_true.mp (List.all_eq_true.mp all_avoids_caseRuns r hr) s hs

/-- Ranges without lower-case letters: the capital I with a dot, the code points that are no
characters, and white space. -/
def letterlessRanges : List (ℕ × ℕ) :=
  (0x130, 0x130) :: (0xD800, 0xDFFF) :: blankRanges

theorem bounds_of_mem_caseRuns :
    ∀ r ∈ caseRuns, 0 ≤ (r.first : ℤ) + r.shift ∧
      r.lowerFirst + (r.last - r.first) < 0x110000 ∧
      ∀ range ∈ letterlessRanges, r.misses range = true := by
  decide +kernel

theorem exists_caseRun {n k : ℕ} (h : lowerCodePoint? n = some k) :
    ∃ r ∈ caseRuns, r.lower? n = some k :=
  List.exists_of_findSome?_eq_some h

theorem lowerCodePoint?_idem {n k : ℕ} (h : lowerCodePoint? n = some k) :
    lowerCodePoint? k = none := by
  obtain ⟨r, hr, hlower⟩ := exists_caseRun h
  have hpos := (bounds_of_mem_caseRuns r hr).1
  exact List.findSome?_eq_none_iff.mpr fun s hs =>
    CaseRun.lower?_of_avoids hpos (avoids_of_mem_caseRuns r hr s hs) hlower

/-- A lower-case form lies in none of the ranges that hold no letters. -/
theorem notMem_of_lowerCodePoint? {n k : ℕ} (h : lowerCodePoint? n = some k) :
    ∀ range ∈ letterlessRanges, ¬(range.1 ≤ k ∧ k ≤ range.2) := by
  obtain ⟨r, hr, hlower⟩ := exists_caseRun h
  obtain ⟨hpos, -, hmisses⟩ := bounds_of_mem_caseRuns r hr
  exact fun range hrange => CaseRun.notMem_of_misses hpos (hmisses range hrange) hlower

/-- Lower-case forms are characters. -/
theorem toNat_ofNat_of_lowerCodePoint? {n k : ℕ} (h : lowerCodePoint? n = some k) :
    (Char.ofNat k).toNat = k := by
  have hsurrogate := notMem_of_lowerCodePoint? h (0xD800, 0xDFFF) (by decide)
  obtain ⟨r, hr, hlower⟩ := exists_caseRun h
  obtain ⟨hpos, hlarge, -⟩ := bounds_of_mem_caseRuns r hr
  obtain ⟨d, hd, -, rfl⟩ := CaseRun.exists_eq_lowerFirst_add hpos hlower
  have hvalid : (r.lowerFirst + d).isValidChar := by
    simp only [Nat.isValidChar]
    omega
  rw [Char.ofNat, dif_pos hvalid]
  rfl

theorem blank_apart_of_mem_caseRuns :
    ∀ r ∈ caseRuns, ∀ range ∈ blankRanges, range.2 < r.first ∨ r.last < range.1 := by
  decide +kernel

/-- White space has no lower-case form. -/
theorem lowerCodePoint?_of_isBlank {c : Char} (h : isBlank c = true) :
    lowerCodePoint? c.toNat = none := by
  obtain ⟨range, hrange, hfirst, hlast⟩ := exists_blankRange h
  refine List.findSome?_eq_none_iff.mpr fun r hr => ?_
  have hapart := blank_apart_of_mem_caseRuns r hr range hrange
  rw [CaseRun.lower?, if_neg]
  omega

end MediaPhases.Text
