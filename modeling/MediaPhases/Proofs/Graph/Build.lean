import MediaPhases.Proofs.Graph.Stages

/-!
# Which lists of phases have a graph

A dependency graph is built exactly when the names of the phases are distinct up to letter case,
every prerequisite is the name of another phase, the prerequisites form no cycle and every run-if
condition names a phase declared earlier.  A cycle that is reported instead is a simple cycle of
prerequisites: it names nothing that merely leads into it.
-/

namespace MediaPhases

open Relation (TransGen)

/-- The rules for the names, prerequisites and run-if conditions of a list of phases. -/
structure WellFormed (phases : List Phase) : Prop where
  /-- The names are distinct, also in lower case. -/
  distinct : (phases.map fun p => Text.lowercase p.name).Nodup
  /-- Every prerequisite of a phase is exactly the name of another phase. -/
  references : ∀ before p after, phases = before ++ p :: after →
    ∀ d ∈ p.dependsOn, d ∈ (before ++ after).map (·.name)
  /-- No phase requires itself, directly or through other phases. -/
  acyclic : Acyclic (Requires phases)
  /-- Every run-if condition names exactly a phase that is declared before its own. -/
  backward : ∀ before p after c, phases = before ++ p :: after → p.runIf = some c →
    c.reference ∈ before.map (·.name)

namespace DependencyGraph

theorem checkDistinct_names_iff {phases : List Phase} :
    Policy.checkDistinct [] (phases.map (·.name)) = .ok () ↔
      (phases.map fun p => Text.lowercase p.name).Nodup := by
  rw [Policy.checkDistinct_eq_ok_iff, List.map_map]
  simp [Function.comp_def]

theorem nodup_names_of_distinct
    {phases : List Phase} (h : (phases.map fun p => Text.lowercase p.name).Nodup) :
    (phases.map (·.name)).Nodup := by
  apply List.Nodup.of_map Text.lowercase
  rw [List.map_map]
  exact h

/-- A graph is built when the names are distinct and there is no other defect. -/
theorem build_eq_ok_iff {phases : List Phase} {g : DependencyGraph} :
    build phases = .ok g ↔
      Policy.checkDistinct [] (phases.map (·.name)) = .ok () ∧
        firstDefect? phases = none ∧ ofPhases phases = g := by
  rw [build_eq]
  cases Policy.checkDistinct [] (phases.map (·.name)) with
  | error defect => simp
  | ok _ =>
      cases firstDefect? phases with
      | some defect => simp
      | none => simp

/-- Other defects are reported only when the names are distinct. -/
theorem build_eq_error_iff {phases : List Phase} {defect : PolicyDefect} :
    build phases = .error defect ↔
      Policy.checkDistinct [] (phases.map (·.name)) = .error defect ∨
        Policy.checkDistinct [] (phases.map (·.name)) = .ok () ∧
          firstDefect? phases = some defect := by
  rw [build_eq]
  cases Policy.checkDistinct [] (phases.map (·.name)) with
  | error defect => simp
  | ok _ =>
      cases firstDefect? phases with
      | some defect => simp
      | none => simp

theorem firstDefect?_eq_none_iff {phases : List Phase} :
    firstDefect? phases = none ↔
      firstBadReference? phases = none ∧ (ofPhases phases).firstCycle? = none ∧
        firstBadRunIf? phases = none := by
  rw [firstDefect?, Option.or_eq_none_iff, Option.or_eq_none_iff]

/-- A stage reports a defect only when the stages before it have passed. -/
theorem firstDefect?_eq_some_iff {phases : List Phase} {defect : PolicyDefect} :
    firstDefect? phases = some defect ↔
      firstBadReference? phases = some defect ∨
        firstBadReference? phases = none ∧
          ((ofPhases phases).firstCycle? = some defect ∨
            (ofPhases phases).firstCycle? = none ∧
              firstBadRunIf? phases = some defect) := by
  rw [firstDefect?, Option.or_eq_some_iff, Option.or_eq_some_iff]

/-! ## Lists of phases that pass -/

/-- In a list of phases with distinct names, another phase is one with another name. -/
theorem references_iff
    {phases : List Phase} (hnames : (phases.map (·.name)).Nodup) :
    (∀ p ∈ phases, ∀ d ∈ p.dependsOn, d ≠ p.name ∧ d ∈ phases.map (·.name)) ↔
      ∀ before p after, phases = before ++ p :: after →
        ∀ d ∈ p.dependsOn, d ∈ (before ++ after).map (·.name) := by
  constructor
  · rintro h before p after rfl d hd
    obtain ⟨hne, hmem⟩ := h p (by simp) d hd
    simpa [hne] using hmem
  · intro h p hp d hd
    obtain ⟨before, after, rfl⟩ := List.append_of_mem hp
    have hmem := h before p after rfl d hd
    have hothers : (before ++ after).Sublist (before ++ p :: after) :=
      (List.sublist_cons_self p after).append_left before
    refine ⟨?_, (hothers.map (·.name)).subset hmem⟩
    rintro rfl
    have hperm : (before ++ p :: after).Perm (p :: (before ++ after)) := List.perm_middle
    rw [(hperm.map (·.name)).nodup_iff, List.map_cons, List.nodup_cons] at hnames
    exact hnames.1 hmem

/-- A list of phases that obeys the rules passes every stage. -/
theorem build_of_wellFormed
    {phases : List Phase} (h : WellFormed phases) : build phases = .ok (ofPhases phases) := by
  have hnames := nodup_names_of_distinct h.distinct
  have hreferences := (references_iff hnames).mpr h.references
  rw [build_eq_ok_iff, firstDefect?_eq_none_iff, checkDistinct_names_iff,
    firstBadReference?_eq_none_iff, firstBadRunIf?_eq_none_iff hnames,
    firstCycle?_eq_none_iff hnames fun p hp d hd => (hreferences p hp d hd).2]
  exact ⟨h.distinct, ⟨hreferences, h.acyclic, h.backward⟩, rfl⟩

/-- A list of phases that passes every stage obeys the rules. -/
theorem wellFormed_of_build
    {phases : List Phase} {g : DependencyGraph} (h : build phases = .ok g) :
    WellFormed phases := by
  rw [build_eq_ok_iff, firstDefect?_eq_none_iff, checkDistinct_names_iff,
    firstBadReference?_eq_none_iff] at h
  obtain ⟨hdistinct, ⟨hreferences, hcycle, hbackward⟩, -⟩ := h
  have hnames := nodup_names_of_distinct hdistinct
  exact {
    distinct := hdistinct
    references := (references_iff hnames).mp hreferences
    acyclic := (firstCycle?_eq_none_iff hnames fun p hp d hd => (hreferences p hp d hd).2).mp hcycle
    backward := (firstBadRunIf?_eq_none_iff hnames).mp hbackward }

/-- A dependency graph is built exactly for the lists of phases that obey the rules. -/
theorem exists_build_eq_ok_iff {phases : List Phase} :
    (∃ g, build phases = .ok g) ↔ WellFormed phases := by
  constructor
  · rintro ⟨g, hg⟩
    exact wellFormed_of_build hg
  · intro h
    exact ⟨_, build_of_wellFormed h⟩

/-! ## Reported cycles -/

/-- A reported cycle was found by the search, in a list of phases that passes the stages before
it. -/
theorem of_build_eq_cycle
    {phases : List Phase} {path : List String} (h : build phases = .error (.cycle path)) :
    (phases.map (·.name)).Nodup ∧ firstBadReference? phases = none ∧
      (ofPhases phases).firstCycle? = some (.cycle path) := by
  rcases build_eq_error_iff.mp h with hnames | ⟨hnames, hdefect⟩
  · obtain ⟨_, _, _, -, _, -, -, heq⟩ := Policy.of_checkDistinct hnames
    cases heq
  · have hnodup := nodup_names_of_distinct (checkDistinct_names_iff.mp hnames)
    rcases firstDefect?_eq_some_iff.mp hdefect with hreference | ⟨hreference, hcycle | ⟨-, hrunIf⟩⟩
    · obtain ⟨p, -, d, -, ⟨heq, -⟩ | ⟨heq, -⟩⟩ := of_firstBadReference? hreference
      · cases heq
      · cases heq
    · exact ⟨hnodup, hreference, hcycle⟩
    · obtain ⟨before, p, after, c, -, -, ⟨heq, -⟩ | ⟨heq, -⟩⟩ := of_firstBadRunIf? hnodup hrunIf
      · cases heq
      · cases heq

/-- A reported cycle is a simple cycle of prerequisites of at least two phases.  Every phase that
it names leads to every other, so none of them lies on a tail that leads into the cycle. -/
theorem isSimpleCycle_of_build
    {phases : List Phase} {path : List String} (h : build phases = .error (.cycle path)) :
    IsSimpleCycle (Requires phases) path ∧ 3 ≤ path.length ∧
      (∀ a ∈ path, a ∈ phases.map (·.name)) ∧
      ∀ a ∈ path, ∀ b ∈ path, TransGen (Requires phases) a b := by
  obtain ⟨hnames, hreference, hfound⟩ := of_build_eq_cycle h
  rw [firstBadReference?_eq_none_iff] at hreference
  obtain ⟨path', heq, hcycle⟩ := of_firstCycle? hnames hfound
  cases heq
  have hself : ∀ a, ¬Requires phases a a := by
    rintro a ⟨p, hp, rfl, hd⟩
    exact (hreference p hp p.name hd).1 rfl
  have hleads : ∀ a ∈ path, ∀ b ∈ path, TransGen (Requires phases) a b :=
    fun a ha b hb => hcycle.transGen ha hb
  refine ⟨hcycle, hcycle.three_le_length hself, ?_, hleads⟩
  intro a ha
  obtain ⟨b, ⟨p, hp, hname, -⟩, -⟩ := TransGen.head'_iff.mp (hleads a ha a ha)
  rw [← hname]
  exact List.mem_map_of_mem hp

/-- Three phases in a circle, and one that requires the first of them. -/
def circleWithTail : List Phase := [
  { name := "entry", dependsOn := ["x"] }, { name := "x", dependsOn := ["y"] },
  { name := "y", dependsOn := ["z"] }, { name := "z", dependsOn := ["x"] }]

theorem isSimpleCycle_circleWithTail :
    build circleWithTail = .error (.cycle ["x", "y", "z", "x"]) ∧
      IsSimpleCycle (Requires circleWithTail) ["x", "y", "z", "x"] := by
  have hbuild : build circleWithTail = .error (.cycle ["x", "y", "z", "x"]) := by cbv
  exact ⟨hbuild, (isSimpleCycle_of_build hbuild).1⟩

end DependencyGraph

end MediaPhases
