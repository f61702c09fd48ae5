import MediaPhases.Policy.Validated
import MediaPhases.Proofs.Graph.Build

/-!
# Sound policies

A policy is checked twice: by the rules that concern the document alone, when it is read, and
again with its dependency graph.  The policies that pass both times are the sound ones, and the
error mode that is fallen back on has no part in it.
-/

namespace MediaPhases

/-- A policy obeys every rule: it has phases, their names may be given, no skip condition is empty,
and the phases fit together. -/
structure Policy.IsSound (p : Policy) : Prop where
  phases_ne_nil : p.phases ≠ []
  names : ∀ name ∈ p.phaseNames, Policy.isPhaseName name = true ∧
    ∀ reserved ∈ Policy.reservedNames, Text.eqIgnoringAsciiCase reserved name = false
  conditions : ∀ phase ∈ p.phases, ∀ c, phase.skipWhen = some c → c.isEmpty = false
  wellFormed : WellFormed p.phases

/-! ## The document alone -/

namespace Policy

variable {p : Policy}

theorem checkName_eq_ok_iff {name : String} :
    checkName name = .ok () ↔ isPhaseName name = true ∧
      ∀ reserved ∈ reservedNames, Text.eqIgnoringAsciiCase reserved name = false := by
  rw [checkName]
  by_cases hname : isPhaseName name = true
  · by_cases hreserved : reservedNames.any (Text.eqIgnoringAsciiCase · name) = true
    · rw [if_neg (by simp [hname]), if_pos hreserved]
      constructor
      · intro h
        cases h
      · rintro ⟨-, hfree⟩
        obtain ⟨reserved, hmem, hsame⟩ := List.any_eq_true.mp hreserved
        rw [hfree reserved hmem] at hsame
        cases hsame
    · rw [if_neg (by simp [hname]), if_neg hreserved]
      rw [Bool.not_eq_true, List.any_eq_false] at hreserved
      exact ⟨fun _ => ⟨hname, fun reserved hmem => by simpa using hreserved reserved hmem⟩,
        fun _ => rfl⟩
  · rw [if_pos (by simpa using hname)]
    constructor
    · intro h
      cases h
    · intro h
      exact absurd h.1 hname

theorem checkNames_eq_ok_iff {seen names : List String} :
    checkNames seen names = .ok () ↔
      (∀ name ∈ names, checkName name = .ok ()) ∧ checkDistinct seen names = .ok () := by
  induction names generalizing seen with
  | nil => simp [checkNames, checkDistinct]
  | cons name rest ih =>
      rw [checkNames, checkDistinct, List.forall_mem_cons]
      cases hname : checkName name with
      | error defect => simp
      | ok _ =>
          cases namesake? seen name with
          | some existing => simp
          | none => simp [ih]

theorem checkSkipConditions_eq_ok_iff {phases : List Phase} :
    checkSkipConditions phases = .ok () ↔
      ∀ phase ∈ phases, ∀ c, phase.skipWhen = some c → c.isEmpty = false := by
  have hnone : (phases.find? fun p => p.skipWhen.any (·.isEmpty)) = none ↔
      ∀ phase ∈ phases, ∀ c, phase.skipWhen = some c → c.isEmpty = false := by
    simp [List.find?_eq_none, Option.any_eq_false]
  rw [← hnone, checkSkipConditions]
  cases phases.find? fun p => p.skipWhen.any (·.isEmpty) with
  | some phase => simp
  | none => simp

theorem validate_eq_ok_iff :
    p.validate = .ok () ↔ p.phases ≠ [] ∧ checkNames [] p.phaseNames = .ok () ∧
      checkSkipConditions p.phases = .ok () := by
  rw [validate]
  by_cases hempty : p.phases = []
  · simp [hempty]
  · cases checkNames [] p.phaseNames with
    | error defect => simp [hempty]
    | ok _ => simp [hempty]

end Policy

/-! ## The dependency graph -/

namespace ValidatedPolicy

variable {p : Policy} {phases : List Phase} {mode fallback : ErrorMode} {checked : ValidatedPolicy}

theorem ofPhases_eq_ok_iff :
    ofPhases phases mode = .ok checked ↔
      phases ≠ [] ∧ Policy.checkSkipConditions phases = .ok () ∧ checked.phases = phases ∧
        checked.errorMode = mode := by
  rw [ofPhases]
  by_cases hempty : phases = []
  · simp [hempty]
  rw [if_neg (by simpa using hempty)]
  cases Policy.checkSkipConditions phases with
  | error defect => simp
  | ok _ =>
      simp only [ne_eq, hempty, not_false_eq_true, true_and]
      split
      · rename_i defect hbuild
        constructor
        · intro h
          cases h
        · rintro ⟨rfl, -⟩
          rw [checked.graph_eq] at hbuild
          cases hbuild
      · rename_i graph hbuild
        constructor
        · intro h
          cases h
          exact ⟨rfl, rfl⟩
        · obtain ⟨phases', graph', mode', hbuild'⟩ := checked
          rintro ⟨rfl, rfl⟩
          rw [hbuild'] at hbuild
          cases hbuild
          rfl

theorem ofPolicy_eq_ok_iff :
    ofPolicy p fallback = .ok checked ↔
      p.validate = .ok () ∧ checked.phases = p.phases ∧
        checked.errorMode = p.onError.getD fallback := by
  rw [ofPolicy]
  cases hvalid : p.validate with
  | error defect => simp
  | ok _ =>
      obtain ⟨hne, -, hconditions⟩ := Policy.validate_eq_ok_iff.mp hvalid
      simp [ofPhases_eq_ok_iff, hne, hconditions]

/-- The policies that pass every check are the sound ones. -/
theorem exists_ofPolicy_eq_ok_iff :
    (∃ checked, ofPolicy p fallback = .ok checked) ↔ p.IsSound := by
  simp only [ofPolicy_eq_ok_iff]
  constructor
  · rintro ⟨checked, hvalid, hphases, -⟩
    obtain ⟨hne, hnames, hconditions⟩ := Policy.validate_eq_ok_iff.mp hvalid
    refine ⟨hne, fun name hname => ?_, Policy.checkSkipConditions_eq_ok_iff.mp hconditions, ?_⟩
    · exact Policy.checkName_eq_ok_iff.mp ((Policy.checkNames_eq_ok_iff.mp hnames).1 name hname)
    · rw [← hphases]
      exact DependencyGraph.wellFormed_of_build checked.graph_eq
  · intro h
    have hdistinct : Policy.checkDistinct [] p.phaseNames = .ok () :=
      DependencyGraph.checkDistinct_names_iff.mpr h.wellFormed.distinct
    have hnames : Policy.checkNames [] p.phaseNames = .ok () :=
      Policy.checkNames_eq_ok_iff.mpr
        ⟨fun name hname => Policy.checkName_eq_ok_iff.mpr (h.names name hname), hdistinct⟩
    have hconditions := Policy.checkSkipConditions_eq_ok_iff.mpr h.conditions
    exact ⟨⟨p.phases, _, p.onError.getD fallback, DependencyGraph.build_of_wellFormed h.wellFormed⟩,
      Policy.validate_eq_ok_iff.mpr ⟨h.phases_ne_nil, hnames, hconditions⟩, rfl, rfl⟩

end ValidatedPolicy

end MediaPhases
