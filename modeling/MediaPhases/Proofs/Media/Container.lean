import MediaPhases.Media.Container
import MediaPhases.Proofs.Text.Lowercase

/-!
# Short forms of containers

Every short form is its own short form: the ones that a rule gives are, and a name that no rule
knows has been trimmed and lower-cased already.
-/

namespace MediaPhases.Container

variable {a b name : String}

/-- The short forms that the rules give. -/
def shortNames : List String :=
  ["mkv", "mp4", "mov", "avi"]

theorem mem_shortNames_of_rule : ∀ rule ∈ exactNames ++ nameParts, rule.2 ∈ shortNames := by
  decide

/-- A name has a short form by some rule, or is its own. -/
theorem shortForm_cases (name : String) : shortForm name ∈ shortNames ∨ shortForm name = name := by
  rw [shortForm]
  split
  · rename_i hfound
    exact .inl
      (mem_shortNames_of_rule _ (List.mem_append_left _ (List.mem_of_find?_eq_some hfound)))
  · split
    · rename_i hfound
      exact .inl
        (mem_shortNames_of_rule _ (List.mem_append_right _ (List.mem_of_find?_eq_some hfound)))
    · exact .inr rfl

theorem normalize_cases (name : String) : normalize name ∈ shortNames ∨
    normalize name = String.ofList (Text.lowerChars (Text.trimChars name.toList)) :=
  shortForm_cases _

theorem normalize_of_mem_shortNames : ∀ short ∈ shortNames, normalize short = short := by
  decide +kernel

theorem normalize_idem (name : String) : normalize (normalize name) = normalize name := by
  rcases normalize_cases name with h | h
  · exact normalize_of_mem_shortNames _ h
  · rw [h, normalize, String.toList_ofList, Text.lowerChars_trimChars_idem]
    exact h

/-- Nothing can be trimmed from a short form. -/
theorem trim_normalize (name : String) : Text.trim (normalize name) = normalize name := by
  have hshort : ∀ short ∈ shortNames, Text.trim short = short := by decide +kernel
  rcases normalize_cases name with h | h
  · exact hshort _ h
  · rw [h, Text.trim, String.toList_ofList, Text.trimChars_lowerChars_trimChars]

/-- Only a blank name has an empty short form. -/
theorem normalize_ne_empty (h : Text.trim name ≠ "") : normalize name ≠ "" := by
  intro heq
  rcases normalize_cases name with hshort | hsame
  · have hempty : "" ∉ shortNames := by decide
    exact hempty (heq ▸ hshort)
  · have hchars : Text.trimChars name.toList ≠ [] := by
      intro hnil
      rw [Text.trim, hnil] at h
      exact h rfl
    rw [heq] at hsame
    exact Text.lowerChars_ne_nil hchars (String.ofList_eq_empty_iff.mp hsame.symm)

theorem isSame_iff : isSame a b = true ↔ normalize a = normalize b :=
  beq_iff_eq

/-- Denoting the same container format is an equivalence. -/
theorem isSame_equivalence : Equivalence fun a b => isSame a b = true where
  refl _ := isSame_iff.mpr rfl
  symm h := isSame_iff.mpr (isSame_iff.mp h).symm
  trans hab hbc := isSame_iff.mpr ((isSame_iff.mp hab).trans (isSame_iff.mp hbc))

end MediaPhases.Container
