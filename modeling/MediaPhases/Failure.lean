import MediaPhases.Command.Fault
import MediaPhases.Document.Fault
import MediaPhases.Document.Format
import MediaPhases.Outcome.Tracker
import MediaPhases.Policy.Defect

/-!
# Failures

Everything that can keep a policy from being loaded or a phase from completing.  Every failure is
a cause with one wording; a failure that lies in the policy or in the selection of its phases has
an exit code of its own.  Probers and executors may also state a cause in their own words.
-/

namespace MediaPhases

/-- Why a policy document cannot be used. -/
inductive PolicyFault where
  | unreadable (format : DocumentFormat) (fault : Fault)
  | stated (text : String)
deriving DecidableEq, Repr

/-- Why there is no metadata for a file. -/
inductive ProbeFault where
  | unreadable (path : String) (fault : FileFault)
  | invalid (path : String) (fault : Fault)
  | stated (text : String)
deriving DecidableEq, Repr

/-- Why the operations of a phase cannot be carried out. -/
inductive OperationFault where
  | invalidSteps (fault : Fault)
  | stated (text : String)
deriving DecidableEq, Repr

/-- Why something fails. -/
inductive Failure where
  | validation (defect : PolicyDefect)
  | policy (fault : PolicyFault)
  /-- A selection names a phase that is none of the valid ones. -/
  | unknownPhase (name : String) (valid : List String)
  | record (refusal : RecordRefusal)
  | probe (fault : ProbeFault)
  | tool (name : String) (fault : ToolFault)
  | operation (phase : String) (fault : OperationFault)
  | io (fault : FileFault)
  | internal (text : String)
deriving DecidableEq, Repr

/-- The wording of a fault of a policy document. -/
def PolicyFault.message : PolicyFault → String
  | .unreadable format fault => s!"invalid {format.name} policy: " ++ fault.message format.numbers
  | .stated text => text

/-- The wording of a missing snapshot. -/
def ProbeFault.message : ProbeFault → String
  | .unreadable path fault => s!"cannot read snapshot {path}: " ++ fault.message
  | .invalid path fault => s!"invalid snapshot {path}: " ++ fault.message .document
  | .stated text => text

/-- The wording of operations that cannot be carried out. -/
def OperationFault.message : OperationFault → String
  | .invalidSteps fault => "invalid exec entries: " ++ fault.message .document
  | .stated text => text

namespace Failure

/-- The wording of a failure. -/
def message : Failure → String
  | .validation defect => "Validation error: " ++ defect.message
  | .policy fault => "Policy error: " ++ fault.message
  | .unknownPhase name valid => s!"Unknown phase '{name}'. Valid phases: " ++ ", ".intercalate valid
  | .record refusal => "Outcome error: " ++ refusal.message
  | .probe fault => "Probe error: " ++ fault.message
  | .tool name fault => s!"Tool error [{name}]: " ++ fault.message
  | .operation phase fault => s!"Operation error [{phase}]: " ++ fault.message
  | .io fault => "IO error: " ++ fault.message
  | .internal text => "Internal error: " ++ text

/-- The wording of the error inside a failure that stands for another error. -/
def cause? : Failure → Option String
  | .validation defect => some defect.message
  | .record refusal => some refusal.message
  | .io fault => some fault.message
  | _ => none

/-- The wording of a failure and of the error inside it. -/
def fullMessage (f : Failure) : String :=
  match f.cause? with
  | some cause => f.message ++ ": " ++ cause
  | none => f.message

/-- Whether the policy or the selection of its phases is at fault. -/
def isPolicyFailure : Failure → Bool
  | .validation _ | .policy _ | .unknownPhase _ _ => true
  | _ => false

/-- The exit code of a program that ends with the failure. -/
def exitCode (f : Failure) : Nat :=
  if f.isPolicyFailure then 2 else 1

end Failure

end MediaPhases
