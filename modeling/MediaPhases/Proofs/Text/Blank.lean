import MediaPhases.Text.Blank
import Mathlib.Data.List.Basic

/-!
# Trimmed texts

A text that neither starts nor ends with white space is left as it is by trimming, and trimming
always leaves such a text.  So a trimmed text is not trimmed any further.
-/

namespace MediaPhases.Text

variable {cs : List Char}

theorem trimStart_of_head (h : ∀ c ∈ cs.head?, isBlank c = false) : trimStart cs = cs := by
  cases cs with
  | nil => rfl
  | cons c cs => exact trimStart_cons_of_not_blank cs (h c rfl)

theorem trimEnd_of_getLast (h : ∀ c ∈ cs.getLast?, isBlank c = false) : trimEnd cs = cs := by
  have hreverse : trimStart cs.reverse = cs.reverse := by
    apply trimStart_of_head
    intro c hc
    rw [List.head?_reverse] at hc
    exact h c hc
  rw [trimEnd, ← trimStart, hreverse, List.reverse_reverse]

/-- Text without white space at its ends is not shortened. -/
theorem trimChars_of_ends
    (hhead : ∀ c ∈ cs.head?, isBlank c = false) (hlast : ∀ c ∈ cs.getLast?, isBlank c = false) :
    trimChars cs = cs := by
  rw [trimChars, trimStart_of_head hhead, trimEnd_of_getLast hlast]

theorem isBlank_of_head?_trimStart {c : Char} (h : c ∈ (trimStart cs).head?) :
    isBlank c = false := by
  have hnot := List.head?_dropWhile_not isBlank cs
  rw [← trimStart, Option.mem_def.mp h] at hnot
  exact hnot

theorem isBlank_of_getLast?_trimEnd {c : Char} (h : c ∈ (trimEnd cs).getLast?) :
    isBlank c = false := by
  rw [trimEnd, List.getLast?_reverse] at h
  exact isBlank_of_head?_trimStart h

/-- Nothing but the end is dropped. -/
theorem trimEnd_isPrefix (cs : List Char) : trimEnd cs <+: cs := by
  have hsuffix : cs.reverse.dropWhile isBlank <:+ cs.reverse := List.dropWhile_suffix _
  have hprefix := List.reverse_prefix.mpr hsuffix
  rwa [List.reverse_reverse] at hprefix

theorem isBlank_of_head?_trimChars {c : Char} (h : c ∈ (trimChars cs).head?) :
    isBlank c = false := by
  obtain ⟨dropped, hdropped⟩ := trimEnd_isPrefix (trimStart cs)
  have hmem : c ∈ (trimStart cs).head? := by
    rw [← hdropped]
    exact List.mem_head?_append_of_mem_head? h
  exact isBlank_of_head?_trimStart hmem

/-! ## White space around a text -/

theorem trimStart_append_of_blank {before : List Char} (h : ∀ c ∈ before, isBlank c = true) :
    trimStart (before ++ cs) = trimStart cs :=
  List.dropWhile_append_of_pos h

theorem trimEnd_append_of_blank {after : List Char} (h : ∀ c ∈ after, isBlank c = true) :
    trimEnd (cs ++ after) = trimEnd cs := by
  have hreverse : ∀ c ∈ after.reverse, isBlank c = true := fun c hc => h c (List.mem_reverse.mp hc)
  rw [trimEnd, List.reverse_append, List.dropWhile_append_of_pos hreverse, trimEnd]

/-- Trimming finds the text between two runs of white space. -/
theorem trimChars_of_blank_append {before after : List Char}
    (hbefore : ∀ c ∈ before, isBlank c = true) (hafter : ∀ c ∈ after, isBlank c = true)
    (hne : cs ≠ []) (hhead : ∀ c ∈ cs.head?, isBlank c = false)
    (hlast : ∀ c ∈ cs.getLast?, isBlank c = false) :
    trimChars (before ++ (cs ++ after)) = cs := by
  have hstart : trimStart (cs ++ after) = cs ++ after := by
    apply trimStart_of_head
    rw [List.head?_append_of_ne_nil _ hne]
    exact hhead
  rw [trimChars, trimStart_append_of_blank hbefore, hstart, trimEnd_append_of_blank hafter,
    trimEnd_of_getLast hlast]

/-- Trimming drops nothing but white space from both ends. -/
theorem exists_eq_trimChars (cs : List Char) :
    ∃ before after, (∀ c ∈ before, isBlank c = true) ∧ (∀ c ∈ after, isBlank c = true) ∧
      cs = before ++ (trimChars cs ++ after) := by
  have hstart : cs.takeWhile isBlank ++ trimStart cs = cs := List.takeWhile_append_dropWhile
  have hend : trimChars cs ++ ((trimStart cs).reverse.takeWhile isBlank).reverse =
      trimStart cs := by
    rw [trimChars, trimEnd, ← List.reverse_append, List.takeWhile_append_dropWhile,
      List.reverse_reverse]
  refine ⟨cs.takeWhile isBlank, ((trimStart cs).reverse.takeWhile isBlank).reverse, ?_, ?_, ?_⟩
  · exact List.all_eq_true.mp List.all_takeWhile
  · intro c hc
    rw [List.mem_reverse] at hc
    exact List.all_eq_true.mp List.all_takeWhile c hc
  · rw [hend, hstart]

/-- Where a text does not end in white space, trimming drops white space from its start only. -/
theorem exists_eq_append_trimChars (hlast : ∀ c ∈ cs.getLast?, isBlank c = false) :
    ∃ before, (∀ c ∈ before, isBlank c = true) ∧ cs = before ++ trimChars cs := by
  obtain ⟨before, after, hbefore, hafter, hcs⟩ := exists_eq_trimChars cs
  have hnil : after = [] := by
    by_contra hne
    have hmem : after.getLast hne ∈ cs.getLast? := by
      rw [hcs, ← List.append_assoc, List.getLast?_append_of_ne_nil _ hne,
        List.getLast?_eq_some_getLast hne]
      rfl
    have hblank := hafter _ (List.getLast_mem hne)
    rw [hlast _ hmem] at hblank
    cases hblank
  rw [hnil, List.append_nil] at hcs
  exact ⟨before, hbefore, hcs⟩

theorem trimChars_trimChars (cs : List Char) : trimChars (trimChars cs) = trimChars cs :=
  trimChars_of_ends (fun _ => isBlank_of_head?_trimChars) (fun _ => isBlank_of_getLast?_trimEnd)

theorem trim_trim (s : String) : trim (trim s) = trim s := by
  rw [trim, trim, String.toList_ofList, trimChars_trimChars]

end MediaPhases.Text
