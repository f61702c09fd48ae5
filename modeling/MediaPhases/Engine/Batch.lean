import MediaPhases.Engine.Runner
import MediaPhases.Engine.Schedule

/-!
# Batches

Runs a policy on many files under one schedule: files are started as soon as there is room, the
earliest one in flight is the next to finish, and results come out at once.  A file without a
snapshot fails.
-/

namespace MediaPhases

/-- The run of one file of a batch. -/
structure ProbedRun (σ : Type) where
  result : FileResult
  calls : List Call := []
  progress : List Progress := []
  world : σ

/-- What a batch works with. -/
structure BatchRunner (σ : Type) where
  runner : Runner
  executor : Executor σ
  prober : Prober σ
  workers : Nat := 1
  dryRun : Bool := false

/-- A batch while it is being run. -/
structure BatchRun (σ : Type) where
  schedule : Schedule
  calls : List Call := []
  progress : List Progress := []
  world : σ

namespace BatchRunner

variable {σ : Type}

/-- The result of a file about which nothing could be found out. -/
def unprobed (path : String) (failure : Failure) : FileResult where
  filePath := path
  success := false
  phaseResults := []
  summary := {}
  errorMessage := some failure.message
  stoppedEarly := true

/-- Probes a file and runs the phases on it. -/
def runPath (b : BatchRunner σ) (path : String) (world : σ) : ProbedRun σ :=
  match b.prober.probe path world with
  | .error failure => { result := unprobed path failure, world := world }
  | .ok media =>
    let run := b.runner.runFile b.executor ⟨path, media, b.dryRun⟩ world
    ⟨run.result path, run.calls, run.progress, run.world⟩

/-- Whether the failure of a file keeps further files from being started. -/
def stopsOnFailure (b : BatchRunner σ) : Bool :=
  b.runner.policy.errorMode == .stop

/-- The next event of the schedule and the batch up to it: start a file if there is room, else
let the first file of the window come out, else finish it. -/
def next? (b : BatchRunner σ) (run : BatchRun σ) : Option (ScheduleEvent × BatchRun σ) :=
  if run.schedule.waiting ≠ [] ∧
      run.schedule.window.length < Schedule.windowSize b.workers then
    some (.start, run)
  else
    match run.schedule.window with
    | [] => none
    | (_, .landed _) :: _ => some (.emit, run)
    | (path, .running) :: _ =>
      let file := b.runPath path run.world
      some (.finish 0 file.result,
        { run with
          calls := run.calls ++ file.calls
          progress := run.progress ++ file.progress
          world := file.world })

/-- Follows the schedule for a number of events. -/
def advance (b : BatchRunner σ) : Nat → BatchRun σ → BatchRun σ
  | 0, run => run
  | events + 1, run =>
    match b.next? run with
    | none => run
    | some (event, run) =>
      match run.schedule.step b.stopsOnFailure b.workers event with
      | none => run
      | some schedule => b.advance events { run with schedule := schedule }

/-- Runs the phases on files.  Each file is started, finished and let out once. -/
def runFiles (b : BatchRunner σ) (paths : List String) (world : σ) : BatchRun σ :=
  let schedule := Schedule.initial paths
  b.advance schedule.remaining { schedule := schedule, world := world }

end BatchRunner

/-- The result of a batch. -/
def BatchRun.result {σ : Type} (run : BatchRun σ) : BatchResult :=
  run.schedule.result

end MediaPhases
