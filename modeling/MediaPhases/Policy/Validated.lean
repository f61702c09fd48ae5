import MediaPhases.Graph.Basic

/-!
# Validated policies

A policy that has passed every check: it has phases, no skip condition is empty, and its
dependency graph could be built.
-/

namespace MediaPhases

/-- Phases with their dependency graph and an error mode for those that have none. -/
structure ValidatedPolicy where
  phases : List Phase
  graph : DependencyGraph
  /-- The error mode of phases that have none of their own. -/
  errorMode : ErrorMode
  graph_eq : DependencyGraph.build phases = .ok graph

namespace ValidatedPolicy

/-- Checks a list of phases. -/
def ofPhases (phases : List Phase) (errorMode : ErrorMode) :
    Except PolicyDefect ValidatedPolicy :=
  if phases.isEmpty then .error .emptyPolicy
  else
    match Policy.checkSkipConditions phases with
    | .error defect => .error defect
    | .ok () =>
      match h : DependencyGraph.build phases with
      | .error defect => .error defect
      | .ok graph => .ok ⟨phases, graph, errorMode, h⟩

/-- Checks a policy.  The fallback is the error mode of a policy that states none. -/
def ofPolicy (p : Policy) (fallback : ErrorMode) : Except PolicyDefect ValidatedPolicy :=
  match p.validate with
  | .error defect => .error defect
  | .ok () => ofPhases p.phases (p.onError.getD fallback)

/-- The phase of a name. -/
def phase? (p : ValidatedPolicy) (name : String) : Option Phase :=
  p.phases.find? (·.name == name)

/-- The error mode under which a phase runs. -/
def errorModeOf (p : ValidatedPolicy) (phase : Phase) : ErrorMode :=
  phase.errorMode p.errorMode

end ValidatedPolicy

end MediaPhases
