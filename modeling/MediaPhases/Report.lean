import MediaPhases.Outcome.Batch
import MediaPhases.Policy.Validated

/-!
# Reports

Tables for people: the phases of a policy, the run of one file, and a batch.  The column of names
is as wide as the longest name in bytes, and names are filled up to it by characters.
-/

namespace MediaPhases.Report

/-- A text filled up with blanks on the right. -/
def padRight (width : Nat) (s : String) : String :=
  s ++ String.ofList (List.replicate (width - s.length) ' ')

/-- A text filled up with blanks on the left. -/
def padLeft (width : Nat) (s : String) : String :=
  String.ofList (List.replicate (width - s.length) ' ') ++ s

/-- The width of a column of names. -/
def nameWidth (names : List String) : Nat :=
  names.foldl (fun width name => max width name.utf8ByteSize) 5

/-- Lines, each with a line break after it. -/
def unlines (lines : List String) : String :=
  String.join (lines.map (· ++ "\n"))

/-- The operations of a phase in one line. -/
def operationsLabel (keys : List String) : String :=
  if keys.isEmpty then "(no operations)" else "operations: " ++ ", ".intercalate keys

/-- The lines of one phase, whose row has the given number. -/
def phaseLines (p : ValidatedPolicy) (width : Nat) (row : Nat) (phase : Phase) : List String :=
  let indent := "     " ++ padRight width "" ++ "  "
  [padLeft 3 (toString row) ++ "  " ++ padRight width phase.name ++ "  " ++
      padRight 8 (p.errorModeOf phase).name ++ "  " ++ operationsLabel phase.operations.keys] ++
    (if phase.dependsOn.isEmpty then []
      else [indent ++ "depends on: " ++ ", ".intercalate phase.dependsOn]) ++
    (phase.skipWhen.map fun c => indent ++ s!"skip when ({c.mode.name}): {c.describe}").toList ++
    (phase.runIf.map fun c => indent ++ "run if: " ++ c.render).toList

/-- The lines of phases, whose rows are numbered from the given number on. -/
def phaseRows (p : ValidatedPolicy) (width : Nat) : Nat → List Phase → List String
  | _, [] => []
  | row, phase :: rest => phaseLines p width row phase ++ phaseRows p width (row + 1) rest

/-- The phases of a policy in the order in which they run. -/
def phases (p : ValidatedPolicy) : String :=
  let width := nameWidth (p.phases.map (·.name))
  unlines <|
    ("  #  " ++ padRight width "PHASE" ++ "  " ++ padRight 8 "ON ERROR" ++ "  DETAILS") ::
      phaseRows p width 1 p.phases

/-- What is said about one result. -/
def resultDetail (r : PhaseResult) : String :=
  match r.outcome with
  | .completed =>
    let state := if r.fileModified then "modified" else "unchanged"
    match r.summary with
    | some summary => state ++ "; " ++ summary
    | none => state
  | _ => r.detail.getD ""

/-- The line that says why a run ended early. -/
def endLines (r : FileResult) : List String :=
  match r.errorMessage, r.failedPhase with
  | some error, some phase => [s!"    stopped at '{phase}': {error}"]
  | some error, none => [s!"    error: {error}"]
  | none, _ => []

/-- The run of one file. -/
def file (r : FileResult) : String :=
  let s := r.summary
  let width := nameWidth (r.phaseResults.map (·.phase))
  unlines <|
    [(if r.success then "✓ " else "✗ ") ++ r.filePath ++
        s!" ({s.completed} completed, {s.failed} failed, {s.skipped} skipped, " ++
        s!"{s.modified} modified) in {r.durationMs}ms"] ++
      (r.phaseResults.map fun p =>
        "    " ++ padRight width p.phase ++ "  " ++ padRight 9 p.outcome.name ++ "  " ++
          resultDetail p) ++
      endLines r

/-- The runs of many files and the totals. -/
def batch (b : BatchResult) : String :=
  String.join (b.results.map file) ++
    unlines (b.notStarted.map fun path => "- " ++ path ++ " (not started)") ++
    unlines ["",
      s!"{b.results.length + b.notStarted.length} file(s): " ++
        s!"{b.results.length - b.failed} succeeded, {b.failed} failed, " ++
        s!"{b.notStarted.length} not started"]

end MediaPhases.Report
