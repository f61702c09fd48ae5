import MediaPhases.Proofs.Graph.Build

/-!
# Reported defects

When no graph can be built from a list of phases, the defect that is reported can be seen in the
list: the names and references that it tells of are there and break the rule in question.  The
rules are checked one after the other, so a list with several defects gets the one that breaks the
first rule: equal names come before bad prerequisites, these before cycles, and cycles before bad
run-if conditions.
-/

namespace MediaPhases

/-- No two phases have names that are equal up to letter case. -/
def HaveDistinctNames (phases : List Phase) : Prop :=
  (phases.map fun p => Text.lowercase p.name).Nodup

/-- Every prerequisite of a phase is the name of a phase, and not its own. -/
def HaveKnownPrerequisites (phases : List Phase) : Prop :=
  ∀ p ∈ phases, ∀ d ∈ p.dependsOn, d ≠ p.name ∧ d ∈ phases.map (·.name)

namespace PolicyDefect

/-- A defect can be seen in a list of phases. -/
def IsIn (phases : List Phase) : PolicyDefect → Prop
  | .duplicatePhase name existing =>
      ∃ before earlier between later after,
        phases = before ++ earlier :: between ++ later :: after ∧
          earlier.name = existing ∧ later.name = name ∧
          Text.lowercase existing = Text.lowercase name
  | .selfDependency phase => Requires phases phase phase
  | .unknownDependency phase d => Requires phases phase d ∧ d ∉ phases.map (·.name)
  | .cycle path => IsSimpleCycle (Requires phases) path
  | .unknownRunIfReference phase reference =>
      ∃ p ∈ phases, p.name = phase ∧ (∃ c, p.runIf = some c ∧ c.reference = reference) ∧
        reference ∉ phases.map (·.name)
  | .forwardRunIfReference phase reference =>
      ∃ before p after, phases = before ++ p :: after ∧ p.name = phase ∧
        (∃ c, p.runIf = some c ∧ c.reference = reference) ∧
        reference ∉ before.map (·.name) ∧ reference ∈ (p :: after).map (·.name)
  | _ => False

/-- The rules that a list of phases has obeyed before a defect is looked for in it. -/
def ComesAfter (phases : List Phase) : PolicyDefect → Prop
  | .selfDependency _ | .unknownDependency _ _ => HaveDistinctNames phases
  | .cycle _ => HaveDistinctNames phases ∧ HaveKnownPrerequisites phases
  | .unknownRunIfReference _ _ | .forwardRunIfReference _ _ =>
      HaveDistinctNames phases ∧ HaveKnownPrerequisites phases ∧ Acyclic (Requires phases)
  | _ => True

end PolicyDefect

namespace DependencyGraph

variable {phases : List Phase} {defect : PolicyDefect}

/-! ## The defects of each stage -/

theorem isIn_of_checkDistinct
    (h : Policy.checkDistinct [] (phases.map (·.name)) = .error defect) :
    defect.IsIn phases ∧ defect.ComesAfter phases := by
  obtain ⟨before, name, after, hsplit, existing, hexisting, hsame, rfl⟩ :=
    Policy.of_checkDistinct h
  obtain ⟨front, back, rfl, rfl, hback⟩ := List.map_eq_append_iff.mp hsplit
  obtain ⟨later, rest, rfl, rfl, rfl⟩ := List.map_eq_cons_iff.mp hback
  obtain ⟨earlier, hearlier, rfl⟩ := List.mem_map.mp hexisting
  obtain ⟨start, between, rfl⟩ := List.append_of_mem hearlier
  exact ⟨⟨start, earlier, between, later, rest, rfl, rfl, rfl, hsame⟩, trivial⟩

theorem isIn_of_firstBadReference?
    (hnames : HaveDistinctNames phases) (h : firstBadReference? phases = some defect) :
    defect.IsIn phases ∧ defect.ComesAfter phases := by
  obtain ⟨p, hp, d, hd, ⟨rfl, rfl⟩ | ⟨rfl, hunknown⟩⟩ := of_firstBadReference? h
  · exact ⟨⟨p, hp, rfl, hd⟩, hnames⟩
  · exact ⟨⟨⟨p, hp, rfl, hd⟩, hunknown⟩, hnames⟩

theorem isIn_of_firstCycle?
    (hnames : HaveDistinctNames phases) (hreferences : HaveKnownPrerequisites phases)
    (h : (ofPhases phases).firstCycle? = some defect) :
    defect.IsIn phases ∧ defect.ComesAfter phases := by
  obtain ⟨path, rfl, hcycle⟩ := of_firstCycle? (nodup_names_of_distinct hnames) h
  exact ⟨hcycle, hnames, hreferences⟩

theorem isIn_of_firstBadRunIf?
    (hnames : HaveDistinctNames phases) (hreferences : HaveKnownPrerequisites phases)
    (hacyclic : Acyclic (Requires phases))
    (h : firstBadRunIf? phases = some defect) :
    defect.IsIn phases ∧ defect.ComesAfter phases := by
  obtain ⟨before, p, after, c, hsplit, hc, ⟨rfl, hunknown⟩ | ⟨rfl, hknown, hbefore⟩⟩ :=
    of_firstBadRunIf? (nodup_names_of_distinct hnames) h
  · have hp : p ∈ phases := by
      rw [hsplit]
      exact List.mem_append_cons_self
    exact ⟨⟨p, hp, rfl, ⟨c, hc, rfl⟩, hunknown⟩, hnames, hreferences, hacyclic⟩
  · -- What is known and not declared before stands here or behind.
    have hlater : c.reference ∈ (p :: after).map (·.name) := by
      rw [hsplit, List.map_append] at hknown
      exact (List.mem_append.mp hknown).resolve_left hbefore
    exact ⟨⟨before, p, after, hsplit, rfl, ⟨c, hc, rfl⟩, hbefore, hlater⟩,
      hnames, hreferences, hacyclic⟩

/-- The defect that is reported can be seen in the list of phases, and the list obeys every rule
that is checked before it. -/
theorem isIn_of_build (h : build phases = .error defect) :
    defect.IsIn phases ∧ defect.ComesAfter phases := by
  rcases build_eq_error_iff.mp h with hduplicate | ⟨hdistinct, hdefect⟩
  · exact isIn_of_checkDistinct hduplicate
  have hnames : HaveDistinctNames phases := checkDistinct_names_iff.mp hdistinct
  rcases firstDefect?_eq_some_iff.mp hdefect with hreference | ⟨hreference, hrest⟩
  · exact isIn_of_firstBadReference? hnames hreference
  have hreferences : HaveKnownPrerequisites phases := firstBadReference?_eq_none_iff.mp hreference
  rcases hrest with hcycle | ⟨hcycle, hrunIf⟩
  · exact isIn_of_firstCycle? hnames hreferences hcycle
  have hacyclic : Acyclic (Requires phases) :=
    (firstCycle?_eq_none_iff (nodup_names_of_distinct hnames)
      fun p hp d hd => (hreferences p hp d hd).2).mp hcycle
  exact isIn_of_firstBadRunIf? hnames hreferences hacyclic hrunIf

/-- Two phases that require each other, of which the second has a bad run-if condition. -/
def couple : List Phase := [
  { name := "mix", dependsOn := ["tag"] },
  { name := "tag", dependsOn := ["mix"], runIf := some ⟨.completed, "tag"⟩ }]

/-- The two of them after a phase that requires itself, and before one whose name differs from
another one only in letter case. -/
def manifold : List Phase :=
  { name := "cut", dependsOn := ["cut", "trim"] } :: couple ++ [{ name := "Mix" }]

/-- Of all these defects the names are reported, and of the two phases alone the circle. -/
theorem isIn_manifold :
    build manifold = .error (.duplicatePhase "Mix" "mix") ∧
      (PolicyDefect.duplicatePhase "Mix" "mix").IsIn manifold ∧
      build couple = .error (.cycle ["mix", "tag", "mix"]) ∧ HaveKnownPrerequisites couple := by
  have hnames : build manifold = .error (.duplicatePhase "Mix" "mix") := by decide +kernel
  have hcircle : build couple = .error (.cycle ["mix", "tag", "mix"]) := by cbv
  exact ⟨hnames, (isIn_of_build hnames).1, hcircle, (isIn_of_build hcircle).2.2⟩

end DependencyGraph

end MediaPhases
