import MediaPhases.Identity.Instant
import MediaPhases.Identity.Uuid

/-!
# Outcomes

What happened to a phase of a file, why a phase was skipped, the counts over a run, and the
result of a file.  A phase that has not been recorded is pending; the other outcomes are final.
-/

namespace MediaPhases

/-- The state of a phase within one run. -/
inductive Outcome where
  | pending
  | completed
  | failed
  | skipped
deriving DecidableEq, Repr

namespace Outcome

/-- Whether the outcome is final. -/
def isFinal : Outcome → Bool
  | .pending => false
  | _ => true

/-- The name of an outcome in texts and documents. -/
def name : Outcome → String
  | .pending => "pending"
  | .completed => "completed"
  | .failed => "failed"
  | .skipped => "skipped"

end Outcome

/-- What a run-if condition asks of the phase that it names. -/
inductive Requirement where
  /-- The phase has completed and has modified the file. -/
  | modified
  /-- The phase has completed. -/
  | completed
deriving DecidableEq, Repr

/-- The word of a policy for a requirement. -/
def Requirement.keyword : Requirement → String
  | .modified => "phase_modified"
  | .completed => "phase_completed"

/-- Why a phase was skipped. -/
inductive SkipReason where
  /-- A skip condition matched. -/
  | condition (condition value : String) (detail : Option String)
  /-- A prerequisite did not complete. -/
  | dependency (dependency : String) (outcome : Outcome)
  /-- The run-if condition did not hold. -/
  | runIf (phase : String) (requirement : Requirement) (outcome : Outcome)
  /-- The phase failed under the error mode that skips. -/
  | errorMode (error : String)
deriving DecidableEq, Repr

namespace SkipReason

/-- The explanation shown to people. -/
def message : SkipReason → String
  | .condition name value (some detail) => s!"condition '{name}' matched '{value}' ({detail})"
  | .condition name value none => s!"condition '{name}' matched '{value}'"
  | .dependency name outcome =>
    s!"dependency '{name}' did not complete (outcome: {outcome.name})"
  | .runIf phase .modified .completed => s!"'{phase}' made no modifications"
  | .runIf phase _ outcome => s!"'{phase}' did not complete (outcome: {outcome.name})"
  | .errorMode error => s!"error-mode skip: {error}"

/-- The tag of the reason in documents. -/
def kind : SkipReason → String
  | .condition .. => "condition"
  | .dependency .. => "dependency"
  | .runIf .. => "run_if"
  | .errorMode .. => "error_mode"

end SkipReason

/-- The recorded result of one phase for one file. -/
structure PhaseResult where
  phase : String
  outcome : Outcome
  fileModified : Bool := false
  skipReason : Option SkipReason := none
  error : Option String := none
  /-- The keys of the operations that the executor was given. -/
  operations : List String := []
  /-- What the executor says about the phase in one line. -/
  summary : Option String := none
  durationMs : Nat := 0
deriving DecidableEq, Repr

namespace PhaseResult

/-- The explanation of a skip, or else the error. -/
def detail (r : PhaseResult) : Option String :=
  (r.skipReason.map SkipReason.message).or r.error

end PhaseResult

/-- Counts of the recorded outcomes of one run. -/
structure Summary where
  completed : Nat := 0
  failed : Nat := 0
  skipped : Nat := 0
  /-- Completed phases that modified the file. -/
  modified : Nat := 0
deriving DecidableEq, Repr

namespace Summary

/-- The counts with one more result. -/
def add (s : Summary) (r : PhaseResult) : Summary :=
  match r.outcome with
  | .completed =>
    { s with
      completed := s.completed + 1
      modified := if r.fileModified then s.modified + 1 else s.modified }
  | .failed => { s with failed := s.failed + 1 }
  | .skipped => { s with skipped := s.skipped + 1 }
  | .pending => s

/-- The counts of a list of results. -/
def ofResults (results : List PhaseResult) : Summary :=
  results.foldl add {}

/-- The number of phases with a final outcome. -/
def total (s : Summary) : Nat :=
  s.completed + s.failed + s.skipped

end Summary

/-- The result of running a policy on one file. -/
structure FileResult where
  runId : Uuid := .zero
  filePath : String
  startedAt : Instant := .epoch
  durationMs : Nat := 0
  /-- Whether nothing has halted the run. -/
  success : Bool
  phaseResults : List PhaseResult
  summary : Summary
  failedPhase : Option String := none
  errorMessage : Option String := none
  stoppedEarly : Bool := false
deriving DecidableEq

namespace FileResult

/-- The recorded result of a phase. -/
def phase? (r : FileResult) (name : String) : Option PhaseResult :=
  r.phaseResults.find? (·.phase == name)

/-- The outcome of a phase; pending if nothing was recorded. -/
def outcome (r : FileResult) (name : String) : Outcome :=
  match r.phase? name with
  | some p => p.outcome
  | none => .pending

/-- The number of phases that modified the file. -/
def phasesModified (r : FileResult) : Nat :=
  r.summary.modified

end FileResult

end MediaPhases
