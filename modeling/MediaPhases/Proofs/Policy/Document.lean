import MediaPhases.Policy.Document

/-!
# Accepted policy documents

A JSON policy document is accepted when its text is a readable value, the value is read as a
policy, and the policy passes the checks that concern the document alone.
-/

namespace MediaPhases.Policy

variable {text : String} {v : Value} {p : Policy}

theorem read_json_eq_ok_iff :
    read .json text = .ok p ↔ ∃ v, Json.read text = some v ∧ reader Json.dialect v = .ok p := by
  rw [read, Json.decodeSound]
  cases Json.read text with
  | none =>
      constructor
      · intro h
        cases h
      · rintro ⟨v, h, -⟩
        cases h
  | some v =>
      constructor
      · intro h
        exact ⟨v, rfl, h⟩
      · rintro ⟨_, h, hread⟩
        cases h
        exact hread

/-- A document is accepted when it can be read and passes the rules that concern it alone. -/
theorem parse_eq_ok_iff {format : DocumentFormat} :
    parse format text = .ok p ↔ read format text = .ok p ∧ p.validate = .ok () := by
  rw [parse]
  constructor
  · intro h
    split at h
    · cases h
    · rename_i hread
      split at h
      · cases h
      · rename_i hvalid
        cases h
        exact ⟨hread, hvalid⟩
  · rintro ⟨hread, hvalid⟩
    rw [hread]
    simp only [hvalid]

/-- A document that is not accepted is at fault as a policy. -/
theorem isPolicyFailure_of_parse {format : DocumentFormat} {failure : Failure}
    (h : parse format text = .error failure) : failure.isPolicyFailure = true := by
  rw [parse] at h
  split at h
  · cases h
    rfl
  · split at h
    · cases h
      rfl
    · cases h

theorem parse_json_eq_ok_iff :
    parse .json text = .ok p ↔
      ∃ v, Json.read text = some v ∧ reader Json.dialect v = .ok p ∧ p.validate = .ok () := by
  simp only [parse_eq_ok_iff, read_json_eq_ok_iff, ← and_assoc, exists_and_right]

theorem parse_json_eq_ok_iff_of_scan (h : Json.scan text = some v) :
    parse .json text = .ok p ↔
      v.isReadable = true ∧ reader Json.dialect v = .ok p ∧ p.validate = .ok () := by
  have hread (w : Value) : Json.read text = some w ↔ v = w ∧ v.isReadable = true := by
    rw [Json.read, h, Option.filter_some]
    split <;> simp [*]
  rw [parse_json_eq_ok_iff]
  constructor
  · rintro ⟨w, hw, hreader⟩
    obtain ⟨rfl, hreadable⟩ := (hread w).mp hw
    exact ⟨hreadable, hreader⟩
  · rintro ⟨hreadable, hreader⟩
    exact ⟨v, (hread v).mpr ⟨rfl, hreadable⟩, hreader⟩

/-- A text that is read as no policy is refused as unreadable. -/
theorem exists_parse_json_eq_error
    (h : ∀ v q, Json.read text = some v → reader Json.dialect v ≠ .ok q) :
    ∃ fault, parse .json text = .error (.policy (.unreadable .json fault)) := by
  cases hread : read .json text with
  | error fault => exact ⟨fault, by rw [parse, hread]⟩
  | ok q =>
      obtain ⟨v, hv, hreader⟩ := read_json_eq_ok_iff.mp hread
      exact absurd hreader (h v q hv)

end MediaPhases.Policy
