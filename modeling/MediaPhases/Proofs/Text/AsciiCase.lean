import MediaPhases.Text.Lowercase
import Mathlib.Data.List.Basic

/-!
# Letter case in ASCII

A text equals a name in capitals up to letter case exactly where its capitals are the name, and
then it consists of ASCII letters.
-/

namespace MediaPhases.Text

variable {c l : Char} {cs name : List Char}

theorem toNat_toUpper (c : Char) :
    c.toUpper.toNat = if 97 ≤ c.toNat ∧ c.toNat ≤ 122 then c.toNat - 32 else c.toNat := by
  have hlower : 'a'.val ≤ c.val ∧ c.val ≤ 'z'.val ↔ 97 ≤ c.toNat ∧ c.toNat ≤ 122 := by
    rw [UInt32.le_iff_toNat_le, UInt32.le_iff_toNat_le]
    rfl
  delta Char.toUpper
  by_cases h : 97 ≤ c.toNat ∧ c.toNat ≤ 122
  · have hdiff : ('A'.val - 'a'.val).toNat = 4294967264 := by decide
    rw [if_pos h, dif_pos (hlower.mpr h)]
    change (c.val + ('A'.val - 'a'.val)).toNat = c.toNat - 32
    rw [UInt32.toNat_add, hdiff, Char.toNat_val]
    omega
  · rw [if_neg h, dif_neg (mt hlower.mp h)]

theorem toNat_toLower (c : Char) :
    c.toLower.toNat = if 65 ≤ c.toNat ∧ c.toNat ≤ 90 then c.toNat + 32 else c.toNat := by
  have hupper : c.val ≥ 'A'.val ∧ c.val ≤ 'Z'.val ↔ 65 ≤ c.toNat ∧ c.toNat ≤ 90 := by
    rw [ge_iff_le, UInt32.le_iff_toNat_le, UInt32.le_iff_toNat_le]
    rfl
  delta Char.toLower
  by_cases h : 65 ≤ c.toNat ∧ c.toNat ≤ 90
  · have hdiff : ('a'.val - 'A'.val).toNat = 32 := by decide
    rw [if_pos h, dif_pos (hupper.mpr h)]
    change (c.val + ('a'.val - 'A'.val)).toNat = c.toNat + 32
    rw [UInt32.toNat_add, hdiff, Char.toNat_val]
    omega
  · rw [if_neg h, dif_neg (mt hupper.mp h)]

theorem eqIgnoringAsciiCase_iff {s t : String} :
    eqIgnoringAsciiCase s t = true ↔ asciiLowercase s = asciiLowercase t := by
  rw [eqIgnoringAsciiCase, beq_iff_eq, asciiLowercase, asciiLowercase, String.ofList_inj]

/-- An ASCII capital. -/
def IsCapital (c : Char) : Prop :=
  65 ≤ c.toNat ∧ c.toNat ≤ 90

instance (c : Char) : Decidable (IsCapital c) :=
  inferInstanceAs (Decidable (_ ∧ _))

theorem toUpper_eq_iff (hl : IsCapital l) : c.toUpper = l ↔ c.toLower = l.toLower := by
  obtain ⟨hfirst, hlast⟩ := hl
  rw [← Char.toNat_inj, ← Char.toNat_inj, toNat_toUpper, toNat_toLower, toNat_toLower]
  split_ifs <;> omega

theorem letter_of_toUpper_eq (hl : IsCapital l) (h : c.toUpper = l) :
    65 ≤ c.toNat ∧ c.toNat ≤ 122 := by
  obtain ⟨hfirst, hlast⟩ := hl
  rw [← Char.toNat_inj, toNat_toUpper] at h
  split_ifs at h <;> omega

theorem map_toUpper_eq_iff (hname : ∀ l ∈ name, IsCapital l) :
    cs.map Char.toUpper = name ↔ cs.map Char.toLower = name.map Char.toLower := by
  induction name generalizing cs with
  | nil => rw [List.map_nil, List.map_eq_nil_iff, List.map_eq_nil_iff]
  | cons l name ih =>
      cases cs with
      | nil => simp
      | cons c cs =>
          have hrest : cs.map Char.toUpper = name ↔ cs.map Char.toLower = name.map Char.toLower :=
            ih fun d hd => hname d (List.mem_cons_of_mem l hd)
          have hl : IsCapital l := hname l List.mem_cons_self
          rw [List.map_cons, List.map_cons, List.map_cons, List.cons.injEq, List.cons.injEq,
            toUpper_eq_iff hl, hrest]

end MediaPhases.Text
