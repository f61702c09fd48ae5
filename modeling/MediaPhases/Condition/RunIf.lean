import MediaPhases.Document.Reader
import MediaPhases.Outcome.Tracker

/-!
# Run-if conditions

A phase may ask that one earlier phase has completed, or has also modified the file.  A phase
that was skipped, has failed or was never recorded did neither.
-/

namespace MediaPhases

/-- What a phase asks of an earlier one. -/
structure RunIf where
  requirement : Requirement
  /-- The phase that the condition names. -/
  reference : String
deriving DecidableEq, Repr

namespace RunIf

/-- The condition as text. -/
def render (c : RunIf) : String :=
  c.requirement.keyword ++ " " ++ c.reference

/-- Whether the condition holds for what has been recorded. -/
def holds (c : RunIf) (t : Tracker) : Bool :=
  match c.requirement with
  | .modified => t.wasModified c.reference
  | .completed => t.outcome c.reference == .completed

/-- The reason for a skip when the condition does not hold. -/
def skipReason (c : RunIf) (t : Tracker) : SkipReason :=
  .runIf c.reference c.requirement (t.outcome c.reference)

/-- The requirements by their words in documents. -/
def requirements : List (String × Requirement) :=
  [.modified, .completed].map fun r => (r.keyword, r)

/-- Reads a condition. -/
def reader : Reader RunIf :=
  .choiceOf (requirements.map (·.1)) fun name =>
    (requirements.lookup name).map fun requirement =>
      Reader.withContent fun d v =>
        (Reader.text d v).map fun reference => ⟨requirement, reference⟩

/-- Writes a condition. -/
def encode (c : RunIf) : Value :=
  .table [(c.requirement.keyword, .text c.reference)]

end RunIf

end MediaPhases
