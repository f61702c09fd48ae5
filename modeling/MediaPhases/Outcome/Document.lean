import MediaPhases.Document.Json
import MediaPhases.Outcome.Basic

/-!
# Outcome documents

How outcomes, skip reasons and results stand in documents.  A skip reason is a table whose entry
`type` says which of the four forms it has, wherever that entry stands; the other entries are
held until the tag is known.  Fields without content are left out.
-/

namespace MediaPhases

namespace Outcome

/-- The outcomes by name, in the order in which messages list them. -/
def names : List (String × Outcome) :=
  [.pending, .completed, .failed, .skipped].map fun o => (o.name, o)

/-- Reads an outcome. -/
def reader : Reader Outcome :=
  Reader.oneOf names

/-- Writes an outcome. -/
def encode (o : Outcome) : Value :=
  .text o.name

end Outcome

namespace Requirement

/-- The name of a requirement in a skip reason. -/
def name : Requirement → String
  | .modified => "modified"
  | .completed => "completed"

/-- Reads the requirement of a skip reason. -/
def reader : Reader Requirement :=
  Reader.oneOf ([.modified, .completed].map fun r => (r.name, r))

end Requirement

namespace SkipReason

/-- A reason that a skip condition gave. -/
structure ConditionForm where
  condition : String := ""
  value : String := ""
  detail : Option String := none

/-- A reason that a prerequisite gave. -/
structure DependencyForm where
  dependency : String := ""
  outcome : Outcome := .pending

/-- A reason that a run-if condition gave. -/
structure RunIfForm where
  phase : String := ""
  requirement : Requirement := .modified
  outcome : Outcome := .pending

/-- A reason that an error gave. -/
structure ErrorForm where
  error : String := ""

/-- The fields of a reason that a skip condition gave. -/
def conditionSchema : Schema ConditionForm where
  name := "struct variant SkipReason::Condition"
  fields := [
    .of "condition" .required .text fun s f => { f with condition := s },
    .of "value" .required .text fun s f => { f with value := s },
    .of "detail" .defaulted (.optional .text) fun s f => { f with detail := s }]
  isClosed := false
  blank := {}

/-- The fields of a reason that a prerequisite gave. -/
def dependencySchema : Schema DependencyForm where
  name := "struct variant SkipReason::Dependency"
  fields := [
    .of "dependency" .required .text fun s f => { f with dependency := s },
    .of "outcome" .required Outcome.reader fun o f => { f with outcome := o }]
  isClosed := false
  blank := {}

/-- The fields of a reason that a run-if condition gave. -/
def runIfSchema : Schema RunIfForm where
  name := "struct variant SkipReason::RunIf"
  fields := [
    .of "phase" .required .text fun s f => { f with phase := s },
    .of "requirement" .required Requirement.reader fun r f => { f with requirement := r },
    .of "outcome" .required Outcome.reader fun o f => { f with outcome := o }]
  isClosed := false
  blank := {}

/-- The fields of a reason that an error gave. -/
def errorSchema : Schema ErrorForm where
  name := "struct variant SkipReason::ErrorMode"
  fields := [.of "error" .required .text fun s f => { f with error := s }]
  isClosed := false
  blank := {}

/-- How the rest of a reason is read once its tag is known. -/
def readers : List (String × (Value → Except Fault SkipReason)) :=
  let d := Json.taggedDialect
  [("condition", fun v =>
      (conditionSchema.read d v).map fun f => .condition f.condition f.value f.detail),
    ("dependency", fun v =>
      (dependencySchema.read d v).map fun f => .dependency f.dependency f.outcome),
    ("run_if", fun v => (runIfSchema.read d v).map fun f => .runIf f.phase f.requirement f.outcome),
    ("error_mode", fun v => (errorSchema.read d v).map fun f => .errorMode f.error)]

/-- Reads the tag of a reason, which says how to read the rest. -/
def readTag (v : Value) : Except Fault (Value → Except Fault SkipReason) :=
  match v with
  | .text s =>
    match readers.lookup s with
    | some read => .ok read
    | none => .error (.unknownVariant s (readers.map (·.1)))
  | v => .error (v.mismatch "variant identifier")

/-- Splits the entries of a reason into its tag and the other entries, in order. -/
def splitTag : List (String × Value) → Option (Value → Except Fault SkipReason) →
    List (String × Value) →
    Except Fault ((Value → Except Fault SkipReason) × List (String × Value))
  | [], none, _ => .error (.missingField "type")
  | [], some read, held => .ok (read, held.reverse)
  | (key, v) :: rest, tag, held =>
    if key = "type" then
      match tag with
      | some _ => .error (.duplicateField "type")
      | none =>
        match readTag v with
        | .error fault => .error fault
        | .ok read => splitTag rest (some read) held
    else if v.isReadable then splitTag rest tag ((key, v) :: held)
    else .error .malformed

/-- Reads a skip reason. -/
def reader : Reader SkipReason := fun _ v =>
  match v with
  | .table entries => do
    let (read, held) ← splitTag entries none []
    read (.table held)
  | .list [] => .error (.missingField "type")
  | .list (tag :: rest) => do
    let read ← readTag tag
    if Value.areReadable rest then read (.list rest) else .error .malformed
  | v => .error (v.mismatch "internally tagged enum SkipReason")

/-- Writes a skip reason. -/
def encode (r : SkipReason) : Value :=
  let fields :=
    match r with
    | .condition name value detail =>
      [("condition", .text name), ("value", .text value)] ++ optionalEntry "detail" .text detail
    | .dependency name outcome => [("dependency", .text name), ("outcome", outcome.encode)]
    | .runIf phase requirement outcome =>
      [("phase", .text phase), ("requirement", .text requirement.name),
        ("outcome", outcome.encode)]
    | .errorMode error => [("error", .text error)]
  .table (("type", .text r.kind) :: fields)

end SkipReason

namespace PhaseResult

/-- The fields of a phase result. -/
def schema : Schema PhaseResult where
  name := "struct PhaseResult"
  fields := [
    .of "phase" .required .text fun s r => { r with phase := s },
    .of "outcome" .required Outcome.reader fun o r => { r with outcome := o },
    .of "file_modified" .defaulted .bool fun b r => { r with fileModified := b },
    .of "skip_reason" .defaulted (.optional SkipReason.reader) fun s r =>
      { r with skipReason := s },
    .of "error" .defaulted (.optional .text) fun s r => { r with error := s },
    .of "operations" .defaulted (.listOf .text) fun s r => { r with operations := s },
    .of "summary" .defaulted (.optional .text) fun s r => { r with summary := s },
    .of "duration_ms" .defaulted .nat64 fun n r => { r with durationMs := n }]
  isClosed := false
  blank := { phase := "", outcome := .pending }

/-- Reads a phase result. -/
def reader : Reader PhaseResult :=
  schema.read

/-- Writes a phase result. -/
def encode (r : PhaseResult) : Value :=
  .table <|
    [("phase", .text r.phase), ("outcome", r.outcome.encode),
      ("file_modified", .bool r.fileModified)] ++
    optionalEntry "skip_reason" SkipReason.encode r.skipReason ++
    optionalEntry "error" .text r.error ++
    (if r.operations.isEmpty then []
      else [("operations", .list (r.operations.map .text))]) ++
    optionalEntry "summary" .text r.summary ++
    [("duration_ms", .int r.durationMs)]

/-- The document of a list of results. -/
def encodeAll (rs : List PhaseResult) : Value :=
  .list (rs.map encode)

/-- Reads a document of a list of results. -/
def decodeAll (text : String) : Except Fault (List PhaseResult) :=
  Json.decode (.listOf reader) text

end PhaseResult

namespace Summary

/-- The fields of the counts of a run. -/
def schema : Schema Summary where
  name := "struct PhaseSummary"
  fields := [
    .of "completed" .required .count fun n s => { s with completed := n },
    .of "failed" .required .count fun n s => { s with failed := n },
    .of "skipped" .required .count fun n s => { s with skipped := n },
    .of "modified" .required .count fun n s => { s with modified := n }]
  isClosed := false
  blank := {}

/-- Writes the counts of a run. -/
def encode (s : Summary) : Value :=
  .table [("completed", .int s.completed), ("failed", .int s.failed), ("skipped", .int s.skipped),
    ("modified", .int s.modified)]

end Summary

/-- Reads an identifier. -/
def Uuid.reader : Reader Uuid :=
  .checked (.textAs "a formatted UUID string") fun s =>
    (Uuid.parse s).mapError fun fault => .stated ("UUID parsing failed: " ++ fault.message)

/-- Reads an instant. -/
def Instant.reader : Reader Instant :=
  .checked (.textAs "an RFC 3339 formatted date and time string") fun s =>
    (Instant.parse s).mapError fun fault => .stated fault.message

namespace FileResult

/-- The fields of a file result. -/
def schema : Schema FileResult where
  name := "struct FileProcessingResult"
  fields := [
    .of "run_id" .required Uuid.reader fun u r => { r with runId := u },
    .of "file_path" .required .path fun s r => { r with filePath := s },
    .of "started_at" .required Instant.reader fun t r => { r with startedAt := t },
    .of "duration_ms" .required .nat64 fun n r => { r with durationMs := n },
    .of "success" .required .bool fun b r => { r with success := b },
    .of "phase_results" .required (.listOf PhaseResult.reader) fun ps r =>
      { r with phaseResults := ps },
    .of "summary" .required Summary.schema.read fun s r => { r with summary := s },
    .of "failed_phase" .defaulted (.optional .text) fun s r => { r with failedPhase := s },
    .of "error_message" .defaulted (.optional .text) fun s r => { r with errorMessage := s },
    .of "stopped_early" .defaulted .bool fun b r => { r with stoppedEarly := b }]
  isClosed := false
  blank := { filePath := "", success := false, phaseResults := [], summary := {} }

/-- Reads a file result. -/
def reader : Reader FileResult :=
  schema.read

/-- Writes a file result. -/
def encode (r : FileResult) : Value :=
  .table <|
    [("run_id", .text r.runId.render), ("file_path", .text r.filePath),
      ("started_at", .text r.startedAt.render), ("duration_ms", .int r.durationMs),
      ("success", .bool r.success),
      ("phase_results", PhaseResult.encodeAll r.phaseResults),
      ("summary", r.summary.encode)] ++
    optionalEntry "failed_phase" .text r.failedPhase ++
    optionalEntry "error_message" .text r.errorMessage ++
    [("stopped_early", .bool r.stoppedEarly)]

end FileResult

end MediaPhases
