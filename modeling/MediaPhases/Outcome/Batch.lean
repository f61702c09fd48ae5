import MediaPhases.Document.Json
import MediaPhases.Outcome.Document

/-!
# Batch results

The results of running a policy on many files: one result for each file that was processed, in
the order of the files, and the files that were never started.
-/

namespace MediaPhases

/-- The result of a batch. -/
structure BatchResult where
  batchId : Uuid := .zero
  results : List FileResult
  /-- The files that were not started because an earlier one had failed. -/
  notStarted : List String
deriving DecidableEq

namespace BatchResult

/-- Whether every file was processed and succeeded. -/
def success (b : BatchResult) : Bool :=
  b.notStarted.isEmpty && b.results.all (·.success)

/-- The number of processed files that failed. -/
def failed (b : BatchResult) : Nat :=
  b.results.countP (!·.success)

/-- Writes a batch result. -/
def encode (b : BatchResult) : Value :=
  .table [
    ("batch_id", .text b.batchId.render),
    ("success", .bool b.success),
    ("results", .list (b.results.map FileResult.encode)),
    ("not_started", .list (b.notStarted.map .text))]

/-- The batch result as a JSON document with sorted keys. -/
def toJson (b : BatchResult) : String :=
  Json.pretty b.encode.canonical

end BatchResult

end MediaPhases
