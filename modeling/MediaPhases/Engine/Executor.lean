import MediaPhases.Failure
import MediaPhases.Media.Snapshot
import MediaPhases.Policy.Operations

/-!
# Executors and probers

The two things that the engine leaves to others: carrying out the operations of a phase and
finding out about a file.  Both may depend on a state of the world; an executor may also change
it.
-/

namespace MediaPhases

/-- The file of a run, with the snapshot that was taken before the run. -/
structure FileContext where
  path : String
  media : MediaInfo
  /-- Whether executors should only say what they would do. -/
  dryRun : Bool := false

/-- What an executor is asked to do. -/
structure Call where
  phase : String
  operations : Operations
  context : FileContext

/-- What operations that were carried out have done. -/
structure Output where
  fileModified : Bool := false
  summary : Option String := none
deriving DecidableEq, Repr

/-- Carries out operations. -/
structure Executor (σ : Type) where
  name : String
  execute : Call → σ → Except Failure Output × σ

/-- An executor whose answers depend on the call alone. -/
def Executor.pure {σ : Type} (name : String) (answer : Call → Except Failure Output) :
    Executor σ where
  name := name
  execute := fun call world => (answer call, world)

/-- Finds out about files. -/
structure Prober (σ : Type) where
  name : String
  probe : String → σ → Except Failure MediaInfo

end MediaPhases
