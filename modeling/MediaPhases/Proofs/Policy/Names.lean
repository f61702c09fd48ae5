import MediaPhases.Proofs.Policy.Soundness
import MediaPhases.Proofs.Text.Lowercase

/-!
# The names of phases

A policy passes the rules that concern the document alone when it has phases, their names are
identifiers, none of them is a key of policy documents or the name of another phase in some letter
case, and no skip condition is empty.  Names are checked one by one in declared order, so a defect
of a name is about the first that breaks a rule after the names before it; skip conditions come
last.  The dependency graph checks some of these rules again.  It cannot find them broken: what is wrong
with a policy that has passed lies in its prerequisites and run-if conditions.
-/

namespace MediaPhases

namespace Policy

/-! ## The rules for names -/

/-- An ASCII letter. -/
def IsLetter (c : Char) : Prop :=
  'A' ≤ c ∧ c ≤ 'Z' ∨ 'a' ≤ c ∧ c ≤ 'z'

/-- An ASCII digit. -/
def IsDigit (c : Char) : Prop :=
  '0' ≤ c ∧ c ≤ '9'

/-- The text as a whole matches `[A-Za-z][A-Za-z0-9_-]{0,63}`. -/
def IsIdentifier (name : String) : Prop :=
  ∃ first rest, name.toList = first :: rest ∧ IsLetter first ∧ rest.length ≤ 63 ∧
    ∀ c ∈ rest, IsLetter c ∨ IsDigit c ∨ c = '_' ∨ c = '-'

/-- The text is a key of policy documents in some letter case. -/
def IsReserved (name : String) : Prop :=
  Text.lowercase name ∈ ["config", "schema_version", "phases"]

/-- Names that phases can have together. -/
structure AreAllowed (names : List String) : Prop where
  identifiers : ∀ name ∈ names, IsIdentifier name
  free : ∀ name ∈ names, ¬IsReserved name
  /-- The names are distinct, also in lower case. -/
  distinct : (names.map Text.lowercase).Nodup

/-- What is wrong with a name that follows others. -/
inductive Rejects (before : List String) (name : String) : PolicyDefect → Prop where
  | invalid (h : ¬IsIdentifier name) : Rejects before name (.invalidPhaseName name)
  | reserved (h : IsIdentifier name) (hreserved : IsReserved name) :
      Rejects before name (.reservedPhaseName name)
  | duplicate {existing : String} (h : IsIdentifier name) (hfree : ¬IsReserved name)
      (hexisting : existing ∈ before) (hsame : Text.lowercase existing = Text.lowercase name) :
      Rejects before name (.duplicatePhase name existing)

variable {c : Char} {name : String} {names seen : List String} {defect : PolicyDefect}

theorem isAlpha_iff : c.isAlpha = true ↔ IsLetter c := by
  have hupper : c.isUpper = true ↔ 'A' ≤ c ∧ c ≤ 'Z' := decide_eq_true_iff
  have hlower : c.isLower = true ↔ 'a' ≤ c ∧ c ≤ 'z' := by
    change (decide ('a' ≤ c) && decide (c ≤ 'z')) = true ↔ _
    rw [Bool.and_eq_true, decide_eq_true_iff, decide_eq_true_iff]
  rw [IsLetter, ← hupper, ← hlower]
  exact Bool.or_eq_true_iff

theorem isNameChar_iff :
    isNameChar c = true ↔ IsLetter c ∨ IsDigit c ∨ c = '_' ∨ c = '-' := by
  have hdigit : c.isDigit = true ↔ IsDigit c := by
    simp [Char.isDigit, IsDigit, Char.le_def]
  rw [isNameChar, Char.isAlphanum, Bool.or_eq_true, Bool.or_eq_true, Bool.or_eq_true, beq_iff_eq,
    beq_iff_eq, isAlpha_iff, hdigit, or_assoc, or_assoc, or_comm (a := c = '-')]

theorem isPhaseName_iff : isPhaseName name = true ↔ IsIdentifier name := by
  rw [isPhaseName, IsIdentifier]
  cases name.toList with
  | nil => simp
  | cons first rest =>
      rw [Bool.and_eq_true, Bool.and_eq_true, List.all_eq_true, isAlpha_iff, decide_eq_true_iff]
      simp only [isNameChar_iff]
      constructor
      · rintro ⟨⟨hfirst, hrest⟩, hlength⟩
        exact ⟨first, rest, rfl, hfirst, Nat.le_of_lt_succ hlength, hrest⟩
      · rintro ⟨first', rest', heq, hfirst, hlength, hrest⟩
        cases heq
        exact ⟨⟨hfirst, hrest⟩, Nat.lt_succ_of_le hlength⟩

theorem ascii_of_isLetter (h : IsLetter c) : c.toNat < 128 := by
  rcases h with ⟨-, hlast⟩ | ⟨-, hlast⟩
  · exact Nat.lt_of_le_of_lt (UInt32.le_iff_toNat_le.mp hlast) (by decide)
  · exact Nat.lt_of_le_of_lt (UInt32.le_iff_toNat_le.mp hlast) (by decide)

theorem IsIdentifier.ascii (h : IsIdentifier name) : ∀ c ∈ name.toList, c.toNat < 128 := by
  obtain ⟨first, rest, hname, hfirst, -, hrest⟩ := h
  intro c hc
  rw [hname] at hc
  rcases List.mem_cons.mp hc with rfl | hc
  · exact ascii_of_isLetter hfirst
  · rcases hrest c hc with hletter | hdigit | rfl | rfl
    · exact ascii_of_isLetter hletter
    · exact Nat.lt_of_le_of_lt (UInt32.le_iff_toNat_le.mp hdigit.2) (by decide)
    · decide
    · decide

/-- For identifiers the letter case of ASCII is all that there is. -/
theorem any_reservedNames_iff (h : IsIdentifier name) :
    reservedNames.any (Text.eqIgnoringAsciiCase · name) = true ↔ IsReserved name := by
  have hlower : ∀ key ∈ reservedNames, Text.asciiLowercase key = key := by decide
  have hsame : ∀ key ∈ reservedNames,
      Text.eqIgnoringAsciiCase key name = true ↔ key = Text.lowercase name := by
    intro key hkey
    rw [Text.eqIgnoringAsciiCase_iff, hlower key hkey, Text.lowercase_ascii h.ascii]
  rw [List.any_eq_true, IsReserved]
  constructor
  · rintro ⟨key, hkey, heq⟩
    rw [← (hsame key hkey).mp heq]
    exact hkey
  · intro hmem
    exact ⟨_, hmem, (hsame _ hmem).mpr rfl⟩

theorem checkName_eq_error_iff :
    checkName name = .error defect ↔
      ¬IsIdentifier name ∧ defect = .invalidPhaseName name ∨
        IsIdentifier name ∧ IsReserved name ∧ defect = .reservedPhaseName name := by
  rw [checkName]
  by_cases hname : IsIdentifier name
  · rw [if_neg (by simpa using isPhaseName_iff.mpr hname)]
    by_cases hreserved : IsReserved name
    · rw [if_pos ((any_reservedNames_iff hname).mpr hreserved)]
      simp [hname, hreserved, eq_comm]
    · rw [if_neg (mt (any_reservedNames_iff hname).mp hreserved)]
      simp [hname, hreserved]
  · rw [if_pos (by simpa using mt isPhaseName_iff.mp hname)]
    simp [hname, eq_comm]

theorem checkName_passes_iff : checkName name = .ok () ↔ IsIdentifier name ∧ ¬IsReserved name := by
  rw [checkName_eq_ok_iff, isPhaseName_iff]
  refine and_congr_right fun hname => ?_
  rw [← any_reservedNames_iff hname, Bool.not_eq_true, List.any_eq_false]
  simp only [Bool.not_eq_true]

/-! ## Names in declared order -/

theorem checkNames_passes_iff : checkNames [] names = .ok () ↔ AreAllowed names := by
  simp only [checkNames_eq_ok_iff, checkName_passes_iff, checkDistinct_eq_ok_iff]
  constructor
  · rintro ⟨hnames, hdistinct, -⟩
    exact ⟨fun name hname => (hnames name hname).1, fun name hname => (hnames name hname).2,
      hdistinct⟩
  · rintro ⟨hidentifiers, hfree, hdistinct⟩
    exact ⟨fun name hname => ⟨hidentifiers name hname, hfree name hname⟩, hdistinct, by simp⟩

/-- A defect of the names is about the first that is rejected after those before it. -/
theorem rejects_of_checkNames (h : checkNames seen names = .error defect) :
    ∃ before name after, names = before ++ name :: after ∧ checkNames seen before = .ok () ∧
      Rejects (seen ++ before) name defect := by
  induction names generalizing seen with
  | nil => cases h
  | cons first rest ih =>
      rw [checkNames] at h
      rcases hfirst : checkName first with fault | ⟨⟩
      · rw [hfirst] at h
        cases h
        refine ⟨[], first, rest, rfl, rfl, ?_⟩
        rcases checkName_eq_error_iff.mp hfirst with ⟨hname, rfl⟩ | ⟨hname, hreserved, rfl⟩
        · exact .invalid hname
        · exact .reserved hname hreserved
      · obtain ⟨hname, hfree⟩ := checkName_passes_iff.mp hfirst
        cases hfound : namesake? seen first with
        | some existing =>
            rw [hfirst, hfound] at h
            cases h
            have hseen : existing ∈ seen := List.mem_of_find?_eq_some hfound
            have hsame : Text.lowercase existing = Text.lowercase first := by
              simpa using List.find?_some hfound
            exact ⟨[], first, rest, rfl, rfl,
              .duplicate hname hfree (List.mem_append_left _ hseen) hsame⟩
        | none =>
            rw [hfirst, hfound] at h
            obtain ⟨before, name, after, rfl, hbefore, hrejects⟩ := ih h
            refine ⟨first :: before, name, after, rfl, ?_, ?_⟩
            · rw [checkNames, hfirst, hfound]
              exact hbefore
            · rw [List.append_assoc] at hrejects
              exact hrejects

example : checkNames [] ["cut", "Mix", "mix", "2nd"] = .error (.duplicatePhase "mix" "Mix") := by
  decide

/-! ## The document -/

variable {p : Policy} {phases : List Phase}

/-- No skip condition of the phases is empty. -/
def HaveConditions (phases : List Phase) : Prop :=
  ∀ phase ∈ phases, ∀ c, phase.skipWhen = some c → c.predicates ≠ []

theorem checkSkipConditions_passes_iff :
    checkSkipConditions phases = .ok () ↔ HaveConditions phases := by
  simp only [checkSkipConditions_eq_ok_iff, HaveConditions, SkipCondition.isEmpty,
    List.isEmpty_eq_false_iff]

/-- An empty condition that is reported is the first. -/
theorem of_checkSkipConditions (h : checkSkipConditions phases = .error defect) :
    ∃ before phase after, phases = before ++ phase :: after ∧ HaveConditions before ∧
      (∃ c, phase.skipWhen = some c ∧ c.predicates = []) ∧
      defect = .emptySkipCondition phase.name := by
  rw [checkSkipConditions] at h
  split at h
  · rename_i phase hfound
    cases h
    obtain ⟨hempty, before, after, rfl, hbefore⟩ := List.find?_eq_some_iff_append.mp hfound
    refine ⟨before, phase, after, rfl, ?_, ?_, rfl⟩
    · intro other hother c hc
      have hfull := hbefore other hother
      simpa [hc, SkipCondition.isEmpty] using hfull
    · obtain ⟨c, hc, hnone⟩ := (Option.any_eq_true _ _).mp hempty
      exact ⟨c, hc, List.isEmpty_iff.mp hnone⟩
  · cases h

theorem validate_passes_iff :
    p.validate = .ok () ↔
      p.phases ≠ [] ∧ AreAllowed p.phaseNames ∧ HaveConditions p.phases := by
  rw [validate_eq_ok_iff, checkNames_passes_iff, checkSkipConditions_passes_iff]

/-- The defect that is found in a document. -/
theorem of_validate (h : p.validate = .error defect) :
    p.phases = [] ∧ defect = .emptyPolicy ∨
      (∃ before name after, p.phaseNames = before ++ name :: after ∧ AreAllowed before ∧
        Rejects before name defect) ∨
      AreAllowed p.phaseNames ∧
        ∃ before phase after, p.phases = before ++ phase :: after ∧ HaveConditions before ∧
          (∃ c, phase.skipWhen = some c ∧ c.predicates = []) ∧
          defect = .emptySkipCondition phase.name := by
  rw [validate] at h
  by_cases hempty : p.phases = []
  · rw [if_pos (List.isEmpty_iff.mpr hempty)] at h
    cases h
    exact .inl ⟨hempty, rfl⟩
  · rw [if_neg (mt List.isEmpty_iff.mp hempty)] at h
    rcases hnames : checkNames [] p.phaseNames with fault | ⟨⟩
    · rw [hnames] at h
      cases h
      obtain ⟨before, name, after, hsplit, hbefore, hrejects⟩ := rejects_of_checkNames hnames
      exact .inr (.inl ⟨before, name, after, hsplit, checkNames_passes_iff.mp hbefore, hrejects⟩)
    · rw [hnames] at h
      exact .inr (.inr ⟨checkNames_passes_iff.mp hnames, of_checkSkipConditions h⟩)

end Policy

/-! ## The dependency graph -/

/-- Defects that the prerequisites and run-if conditions of phases can have. -/
inductive PolicyDefect.IsOfGraph : PolicyDefect → Prop where
  | unknownDependency (phase dependency : String) : IsOfGraph (.unknownDependency phase dependency)
  | selfDependency (phase : String) : IsOfGraph (.selfDependency phase)
  | cycle (path : List String) : IsOfGraph (.cycle path)
  | unknownRunIfReference (phase reference : String) :
      IsOfGraph (.unknownRunIfReference phase reference)
  | forwardRunIfReference (phase reference : String) :
      IsOfGraph (.forwardRunIfReference phase reference)

namespace DependencyGraph

variable {phases : List Phase} {defect : PolicyDefect}

/-- Where the names are distinct, what is wrong is of the graph. -/
theorem isOfGraph_of_build (hnames : (phases.map fun p => Text.lowercase p.name).Nodup)
    (h : build phases = .error defect) : defect.IsOfGraph := by
  have hdistinct := checkDistinct_names_iff.mpr hnames
  rw [build_eq_error_iff, hdistinct, firstDefect?_eq_some_iff] at h
  rcases h with herror | ⟨-, hreference | ⟨-, hcycle | ⟨-, hrunIf⟩⟩⟩
  · cases herror
  · obtain ⟨p, -, d, -, ⟨rfl, -⟩ | ⟨rfl, -⟩⟩ := of_firstBadReference? hreference
    · exact .selfDependency p.name
    · exact .unknownDependency p.name d
  · obtain ⟨path, rfl, -⟩ := of_firstCycle? (nodup_names_of_distinct hnames) hcycle
    exact .cycle path
  · obtain ⟨-, p, -, c, -, -, ⟨rfl, -⟩ | ⟨rfl, -⟩⟩ :=
      of_firstBadRunIf? (nodup_names_of_distinct hnames) hrunIf
    · exact .unknownRunIfReference p.name c.reference
    · exact .forwardRunIfReference p.name c.reference

end DependencyGraph

namespace ValidatedPolicy

variable {p : Policy} {phases : List Phase} {mode fallback : ErrorMode} {defect : PolicyDefect}

theorem ofPhases_eq_error_iff
    (hne : phases ≠ []) (hconditions : Policy.checkSkipConditions phases = .ok ()) :
    ofPhases phases mode = .error defect ↔ DependencyGraph.build phases = .error defect := by
  rw [ofPhases, if_neg (mt List.isEmpty_iff.mp hne), hconditions]
  dsimp only
  split
  · rename_i fault hbuild
    simp [hbuild]
  · rename_i graph hbuild
    simp [hbuild]

/-- What is wrong with a policy that has passed the rules for documents is found in its graph. -/
theorem ofPolicy_eq_error_iff (hvalid : p.validate = .ok ()) :
    ofPolicy p fallback = .error defect ↔ DependencyGraph.build p.phases = .error defect := by
  obtain ⟨hne, -, hconditions⟩ := Policy.validate_eq_ok_iff.mp hvalid
  rw [ofPolicy, hvalid]
  exact ofPhases_eq_error_iff hne hconditions

end ValidatedPolicy

/-- A document passes exactly when it has phases, their names are allowed and no condition is empty.
Otherwise the first name that is rejected is reported, and conditions only when no name is.  A
document that has passed can still have a defect of the graph, and no other. -/
theorem Policy.validate_reports_first (p : Policy) :
    (p.validate = .ok () ↔
        p.phases ≠ [] ∧ AreAllowed p.phaseNames ∧ HaveConditions p.phases) ∧
      (∀ defect, p.validate = .error defect →
        p.phases = [] ∧ defect = .emptyPolicy ∨
          (∃ before name after, p.phaseNames = before ++ name :: after ∧ AreAllowed before ∧
            Rejects before name defect) ∨
          AreAllowed p.phaseNames ∧
            ∃ before phase after, p.phases = before ++ phase :: after ∧ HaveConditions before ∧
              (∃ c, phase.skipWhen = some c ∧ c.predicates = []) ∧
              defect = .emptySkipCondition phase.name) ∧
      (p.validate = .ok () → ∀ fallback defect,
        ValidatedPolicy.ofPolicy p fallback = .error defect →
          defect.IsOfGraph ∧ DependencyGraph.build p.phases = .error defect) := by
  refine ⟨validate_passes_iff, fun defect => of_validate, ?_⟩
  intro hvalid fallback defect h
  have hbuild := (ValidatedPolicy.ofPolicy_eq_error_iff hvalid).mp h
  obtain ⟨-, hallowed, -⟩ := validate_passes_iff.mp hvalid
  have hdistinct := hallowed.distinct
  rw [phaseNames, List.map_map] at hdistinct
  exact ⟨DependencyGraph.isOfGraph_of_build hdistinct hbuild, hbuild⟩

end MediaPhases
