import MediaPhases.Threshold.Amount

/-!
# Policy defects

What makes a policy unusable.  A defect is found once, before any file is touched, and names the
phases that are at fault.
-/

namespace MediaPhases

/-- A defect of a policy. -/
inductive PolicyDefect where
  /-- A prerequisite is no phase of the policy. -/
  | unknownDependency (phase dependency : String)
  /-- A phase is its own prerequisite. -/
  | selfDependency (phase : String)
  /-- Prerequisites form a cycle, which starts and ends with the same phase. -/
  | cycle (path : List String)
  /-- A skip condition names no predicate. -/
  | emptySkipCondition (phase : String)
  /-- A run-if condition names no phase of the policy. -/
  | unknownRunIfReference (phase reference : String)
  /-- A run-if condition names a phase that is not declared earlier. -/
  | forwardRunIfReference (phase reference : String)
  /-- Two phases have one name, letter case aside. -/
  | duplicatePhase (name existing : String)
  | invalidPhaseName (name : String)
  /-- The name of a phase is a key of policy documents. -/
  | reservedPhaseName (name : String)
  /-- A policy has no phases. -/
  | emptyPolicy
  | invalidThreshold (fault : ThresholdFault)
deriving DecidableEq, Repr

/-- The wording of a defect. -/
def PolicyDefect.message : PolicyDefect → String
  | .unknownDependency phase dependency =>
    s!"unknown dependency: phase '{phase}' depends on unknown phase '{dependency}'"
  | .selfDependency phase => s!"self-dependency: phase '{phase}' depends on itself"
  | .cycle path => "circular dependency: " ++ " → ".intercalate path
  | .emptySkipCondition phase =>
    s!"phase '{phase}': skip_when must specify at least one condition"
  | .unknownRunIfReference phase reference =>
    s!"phase '{phase}' run_if references unknown phase '{reference}'"
  | .forwardRunIfReference phase reference =>
    s!"forward reference: phase '{phase}' run_if references '{reference}', " ++
      "which does not appear earlier in the policy"
  | .duplicatePhase name existing =>
    s!"duplicate phase name '{name}' (collides with '{existing}')"
  | .invalidPhaseName name =>
    s!"invalid phase name '{name}': must start with a letter and contain only " ++
      "letters, digits, '-' or '_' (at most 64 characters)"
  | .reservedPhaseName name => s!"phase name '{name}' is reserved"
  | .emptyPolicy => "policy must define at least one phase"
  | .invalidThreshold fault => fault.message

end MediaPhases
