import MediaPhases.Condition.RunIf
import MediaPhases.Condition.SkipDocument
import MediaPhases.Policy.ErrorMode
import MediaPhases.Policy.Operations

/-!
# Phases

One named step of a policy: when it is skipped, what it needs, what happens when it fails, and
the work that it hands to an executor.
-/

namespace MediaPhases

/-- A phase of a policy. -/
structure Phase where
  name : String
  skipWhen : Option SkipCondition := none
  /-- The phases that must have completed before this one runs, as they were written. -/
  dependsOn : List String := []
  runIf : Option RunIf := none
  /-- The error mode, where it is not that of the policy. -/
  onError : Option ErrorMode := none
  operations : Operations := {}

namespace Phase

/-- The phase's own error mode, or else the policy's. -/
def errorMode (p : Phase) (policyMode : ErrorMode) : ErrorMode :=
  p.onError.getD policyMode

/-- Equality of phases, where numbers in payloads are compared as numbers. -/
def same (p q : Phase) : Bool :=
  p.name == q.name && p.skipWhen == q.skipWhen && p.dependsOn == q.dependsOn &&
    p.runIf == q.runIf && p.onError == q.onError && p.operations.same q.operations

/-- The fields of a phase. -/
def schema : Schema Phase where
  name := "struct PhaseDefinition"
  fields := [
    .of "name" .required .text fun s p => { p with name := s },
    .of "skip_when" .defaulted (.optional SkipCondition.reader) fun c p =>
      { p with skipWhen := c },
    .of "depends_on" .defaulted (.listOf .text) fun names p => { p with dependsOn := names },
    .of "run_if" .defaulted (.optional RunIf.reader) fun c p => { p with runIf := c },
    .of "on_error" .defaulted (.optional ErrorMode.reader) fun m p => { p with onError := m },
    .of "operations" .defaulted Operations.reader fun o p => { p with operations := o }]
  isClosed := true
  blank := { name := "" }

/-- Reads a phase. -/
def reader : Reader Phase :=
  schema.read

/-- Writes a phase. -/
def encode (p : Phase) : Value :=
  .table <|
    [("name", .text p.name)] ++
    optionalEntry "skip_when" SkipCondition.encode p.skipWhen ++
    (if p.dependsOn.isEmpty then []
      else [("depends_on", .list (p.dependsOn.map .text))]) ++
    optionalEntry "run_if" RunIf.encode p.runIf ++
    optionalEntry "on_error" ErrorMode.encode p.onError ++
    (if p.operations.isEmpty then [] else [("operations", p.operations.encode)])

end Phase

end MediaPhases
