import MediaPhases.Outcome.Basic
import MediaPhases.Text.NameMap

/-!
# Outcome trackers

The outcomes of one run, in the order in which they were recorded.  A phase is recorded at most
once and only with a final outcome; a phase that has not been recorded is pending.
-/

namespace MediaPhases

/-- Why a result is not recorded. -/
inductive RecordRefusal where
  /-- The phase has been recorded before, with the given outcome. -/
  | alreadyRecorded (phase : String) (outcome : Outcome)
  /-- The outcome is not final. -/
  | pending (phase : String)
deriving DecidableEq, Repr

/-- The wording of a refusal. -/
def RecordRefusal.message : RecordRefusal → String
  | .alreadyRecorded phase outcome => s!"phase '{phase}' already recorded as {outcome.name}"
  | .pending phase => s!"phase '{phase}' cannot be recorded as pending"

/-- The results recorded in a run, the first one first, and where each phase has its own. -/
structure Tracker where
  results : List PhaseResult := []
  /-- The places of the results, by phase. -/
  index : NameMap Nat := {}
deriving DecidableEq, Repr

namespace Tracker

/-- The recorded result of a phase. -/
def get? (t : Tracker) (phase : String) : Option PhaseResult :=
  (t.index.get? phase).bind (t.results[·]?)

/-- The outcome of a phase. -/
def outcome (t : Tracker) (phase : String) : Outcome :=
  match t.get? phase with
  | some r => r.outcome
  | none => .pending

/-- Whether a phase has completed and has modified the file. -/
def wasModified (t : Tracker) (phase : String) : Bool :=
  match t.get? phase with
  | some r => r.outcome == .completed && r.fileModified
  | none => false

/-- The outcome of the result at a place. -/
def outcomeAt (t : Tracker) (i : Nat) : Outcome :=
  match t.results[i]? with
  | some r => r.outcome
  | none => .pending

/-- Records a result.  A refused call, too, leaves a tracker behind. -/
def record (r : PhaseResult) : EStateM RecordRefusal Tracker Unit := do
  if !r.outcome.isFinal then
    throw (.pending r.phase)
  let t ← get
  if let some i := t.index.get? r.phase then
    throw (.alreadyRecorded r.phase (t.outcomeAt i))
  set { t with index := t.index.insert r.phase t.results.length }
  modify fun t => { t with results := t.results ++ [r] }

/-- The tracker after a call to record a result, whatever the call answers. -/
def recorded (t : Tracker) (r : PhaseResult) : Tracker :=
  match (record r).run t with
  | .ok _ t' => t'
  | .error _ t' => t'

/-- The number of recorded results. -/
def size (t : Tracker) : Nat :=
  t.results.length

/-- Whether nothing has been recorded. -/
def isEmpty (t : Tracker) : Bool :=
  t.results.isEmpty

/-- The counts of the recorded results. -/
def summary (t : Tracker) : Summary :=
  Summary.ofResults t.results

end Tracker

end MediaPhases
