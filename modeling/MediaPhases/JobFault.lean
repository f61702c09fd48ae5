import MediaPhases.Failure
import MediaPhases.Settings.Basic

/-!
# Faults of jobs

What ends a job is an error on its way up: what went wrong first, under the layers of context that
were put around it.  The exit code does not depend on the layers.  It is that of the failure that
they cover, if what went wrong first is a failure of the policy or of its selection.
-/

namespace MediaPhases

/-- What goes wrong first. -/
inductive RootCause where
  | failure (f : Failure)
  /-- A settings file cannot be read. -/
  | file (fault : FileFault)
  | settings (fault : SettingsFault)
deriving DecidableEq, Repr

/-- The wording of a cause, with what lies behind it. -/
def RootCause.message : RootCause → String
  | .failure f => f.fullMessage
  | .file fault => fault.message
  | .settings fault => fault.message

/-- Why a job fails. -/
inductive JobFault where
  | root (cause : RootCause)
  | context (text : String) (fault : JobFault)
deriving DecidableEq, Repr

namespace JobFault

/-- The wording of a fault, from the outermost layer to the cause. -/
def message : JobFault → String
  | .root cause => cause.message
  | .context text fault => text ++ ": " ++ fault.message

/-- The failure under all the layers, if it is one that went wrong first. -/
def failure? : JobFault → Option Failure
  | .root (.failure f) => some f
  | .root (.file _) | .root (.settings _) => none
  | .context _ fault => fault.failure?

/-- The exit code of a program that ends with the fault. -/
def exitCode (fault : JobFault) : Nat :=
  match fault.failure? with
  | some f => if f.exitCode = 2 then 2 else 1
  | none => 1

end JobFault

end MediaPhases
