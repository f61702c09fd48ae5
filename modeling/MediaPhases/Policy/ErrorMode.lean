import MediaPhases.Document.Reader

/-!
# Error modes

What becomes of a run when the operations of a phase fail.
-/

namespace MediaPhases

/-- What a failing phase does to the run. -/
inductive ErrorMode where
  /-- The phase is recorded as failed and the run goes on. -/
  | proceed
  /-- The phase is recorded as failed and the run ends. -/
  | stop
  /-- The phase is recorded as skipped and the run goes on. -/
  | skip
deriving DecidableEq, Repr

namespace ErrorMode

/-- The word of a policy for a mode. -/
def name : ErrorMode → String
  | .proceed => "continue"
  | .stop => "stop"
  | .skip => "skip"

/-- The words that a document may use. -/
def spellings : List (String × ErrorMode) :=
  [("continue", .proceed), ("fail", .stop), ("stop", .stop), ("skip", .skip)]

/-- The mode of a word. -/
def ofName? (s : String) : Option ErrorMode :=
  spellings.lookup s

/-- Reads a mode. -/
def reader : Reader ErrorMode :=
  .oneOf spellings

/-- Writes a mode. -/
def encode (m : ErrorMode) : Value :=
  .text m.name

end ErrorMode

end MediaPhases
