import MediaPhases.Document.Json.Print
import MediaPhases.Document.Json.Scan
import Mathlib.Data.List.Basic

/-!
# JSON texts read back

What is written for a text is read as that text.  Each character is written so that the reader
takes it up as one: as itself, after a backslash, or as four hexadecimal digits.
-/

namespace MediaPhases.Json

theorem hexValue?_digitChar : ∀ d < 16, hexValue? d.digitChar = some d := by
  decide

/-- The digits of a small number after two zeros stand for that number. -/
theorem hex4?_hexByte {n : Nat} (hn : n < 0x100) :
    hex4? '0' '0' (n / 16 % 16).digitChar (n % 16).digitChar = some n := by
  have hzero : hexValue? '0' = some 0 := by decide
  have hhigh := hexValue?_digitChar (n / 16 % 16) (by omega)
  have hlow := hexValue?_digitChar (n % 16) (by omega)
  rw [hex4?, hzero, hhigh, hlow]
  simp only [Option.pure_def, Option.bind_eq_bind, Option.bind_some, Option.some.injEq]
  omega

/-- A backslash and a letter that stands for a character are read as that character. -/
theorem scanText_shortEscape {c e : Char} (h : shortEscape? c = some e) (rest : List Char)
    (soFar : Option (List Char)) :
    scanText ('\\' :: c :: rest) soFar = scanText rest (soFar.map (e :: ·)) := by
  have hne : c ≠ 'u' := by
    rintro rfl
    cases h
  rw [scanText, h]
  rintro _ _ _ _ _ rfl
  exact absurd rfl hne

/-- Every character is taken up as it was written. -/
theorem scanText_escapeChar (c : Char) (rest soFar : List Char) :
    scanText (escapeChar c ++ rest) (some soFar) = scanText rest (some (c :: soFar)) := by
  rw [escapeChar]
  split_ifs with hquote hbackslash hb hf hn hr ht hcontrol
  · subst hquote
    exact scanText_shortEscape rfl rest (some soFar)
  · subst hbackslash
    exact scanText_shortEscape rfl rest (some soFar)
  · subst hb
    exact scanText_shortEscape rfl rest (some soFar)
  · subst hf
    exact scanText_shortEscape rfl rest (some soFar)
  · subst hn
    exact scanText_shortEscape rfl rest (some soFar)
  · subst hr
    exact scanText_shortEscape rfl rest (some soFar)
  · subst ht
    exact scanText_shortEscape rfl rest (some soFar)
  · have hcode := hex4?_hexByte (n := c.toNat) (by omega)
    have hhigh : isHighSurrogate c.toNat = false := by
      simp only [isHighSurrogate, Bool.and_eq_false_iff, decide_eq_false_iff_not]
      omega
    have hlow : isLowSurrogate c.toNat = false := by
      simp only [isLowSurrogate, Bool.and_eq_false_iff, decide_eq_false_iff_not]
      omega
    simp only [hexByte, List.cons_append, List.nil_append]
    rw [scanText, hcode]
    simp only [hhigh, hlow, Bool.false_eq_true, if_false, Char.ofNat_toNat, Option.map_some]
  · have hplain : ¬(c.toNat < 0x20 ∨ c = '\\') := by tauto
    simp only [List.cons_append, List.nil_append]
    rw [scanText]
    · simp only [if_neg hplain, Option.map_some]
    · exact hquote
    · rintro _ _ _ _ _ rfl
      exact absurd rfl hbackslash
    · rintro _ _ rfl
      exact absurd rfl hbackslash

theorem scanText_flatMap_escapeChar (cs rest soFar : List Char) :
    scanText (cs.flatMap escapeChar ++ '"' :: rest) (some soFar) =
      some (some (String.ofList (soFar.reverse ++ cs)), rest) := by
  induction cs generalizing soFar with
  | nil =>
      rw [List.flatMap_nil, List.nil_append, scanText, List.append_nil]
      rfl
  | cons c cs ih =>
      rw [List.flatMap_cons, List.append_assoc, scanText_escapeChar, ih, List.reverse_cons,
        List.append_assoc]
      rfl

/-- A text between quotes is read up to its closing quote. -/
theorem scanText_quoteText (s : String) (rest : List Char) :
    ∃ cs, quoteText s = '"' :: cs ∧ scanText (cs ++ rest) (some []) = some (some s, rest) := by
  refine ⟨s.toList.flatMap escapeChar ++ ['"'], rfl, ?_⟩
  have hread := scanText_flatMap_escapeChar s.toList rest []
  rw [List.reverse_nil, List.nil_append, String.ofList_toList] at hread
  rw [List.append_assoc]
  exact hread

end MediaPhases.Json
