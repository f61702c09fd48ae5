import MediaPhases.Engine.Executor
import MediaPhases.Policy.Validated

/-!
# Runners

A runner takes one file through the phases of a policy, or through a selection of them.  A phase
is skipped when a prerequisite has not completed, when its skip condition matches, or when its
run-if condition does not hold, in this order.  Otherwise its operations are carried out; if they
fail, the error mode decides what is recorded and whether the run goes on.
-/

namespace MediaPhases

/-- A policy and the phases of it that are to be run. -/
structure Runner where
  policy : ValidatedPolicy
  /-- The positions of the phases to run, in order; without a selection all phases run. -/
  selection : Option (List Nat) := none

namespace Runner

/-- The positions of the phases with the given names, in the order of the names. -/
def positionsOf (g : DependencyGraph) : List String → Except Failure (List Nat)
  | [] => .ok []
  | name :: rest =>
    match g.indexOf? name with
    | none => .error (.unknownPhase name g.names)
    | some i => (positionsOf g rest).map (i.val :: ·)

/-- Restricts a runner to the named phases, which run in the order of the policy whatever the
order of the names.  The warnings tell of selected phases that miss a prerequisite. -/
def select (r : Runner) (names : List String) : Except Failure (Runner × List SubsetWarning) :=
  match positionsOf r.policy.graph names with
  | .error failure => .error failure
  | .ok positions =>
    .ok ({ r with selection := some (positions.mergeSort (· ≤ ·)).eraseDups },
      r.policy.graph.subsetWarnings names)

/-- The phases that the runner goes through, in order. -/
def phases (r : Runner) : List Phase :=
  match r.selection with
  | some positions => positions.filterMap (r.policy.phases[·]?)
  | none => r.policy.phases

end Runner

/-- What is told before each phase. -/
structure Progress where
  file : String
  phase : String
  /-- The position of the phase among the phases of the run. -/
  index : Nat
  total : Nat
deriving DecidableEq, Repr

/-- The share of the phases that lie behind, in single precision. -/
def Progress.percent (p : Progress) : Magnitude :=
  let f := BinaryFormat.single
  if p.total = 0 then f.ofNat 100
  else f.mul (f.div (f.ofNat p.index) (f.ofNat p.total)) (f.ofNat 100)

/-- The failure that ended a run. -/
structure Halt where
  phase : String
  error : String
deriving DecidableEq, Repr

/-- The run of one file so far. -/
structure FileRun (σ : Type) where
  tracker : Tracker := {}
  halt : Option Halt := none
  /-- What the executor was asked, in order. -/
  calls : List Call := []
  /-- What was told before each phase, in order. -/
  progress : List Progress := []
  /-- The state of the world. -/
  world : σ

namespace Runner

/-- The reason to skip a phase, if there is one. -/
def skipReason? (p : ValidatedPolicy) (context : FileContext) (t : Tracker) (phase : Phase) :
    Option SkipReason :=
  match p.graph.firstUnmet? t phase.name with
  | some (name, outcome) => some (.dependency name outcome)
  | none =>
    match phase.skipWhen.bind (·.evaluate context.media) with
    | some matched => some matched.reason
    | none =>
      match phase.runIf with
      | some condition => if condition.holds t then none else some (condition.skipReason t)
      | none => none

/-- The result of a skipped phase. -/
def skipped (phase : Phase) (reason : SkipReason) : PhaseResult where
  phase := phase.name
  outcome := .skipped
  skipReason := some reason

/-- The result of a phase whose operations were carried out or failed under an error mode, and
whether the run ends with it. -/
def settle (mode : ErrorMode) (phase : Phase) :
    Except Failure Output → PhaseResult × Option Halt
  | .ok output =>
    ({ phase := phase.name, outcome := .completed, fileModified := output.fileModified,
       operations := phase.operations.keys, summary := output.summary }, none)
  | .error failure =>
    let error := failure.message
    let failed : PhaseResult :=
      { phase := phase.name, outcome := .failed, error := some error,
        operations := phase.operations.keys }
    match mode with
    | .proceed => (failed, none)
    | .stop => (failed, some ⟨phase.name, error⟩)
    | .skip =>
      ({ skipped phase (.errorMode error) with operations := phase.operations.keys }, none)

variable {σ : Type}

/-- Takes a run through one phase, which stands at a position among the phases of the run. -/
def stepPhase (p : ValidatedPolicy) (e : Executor σ) (context : FileContext) (index total : Nat)
    (phase : Phase) (run : FileRun σ) : FileRun σ :=
  let told := run.progress ++ [⟨context.path, phase.name, index, total⟩]
  match skipReason? p context run.tracker phase with
  | some reason =>
    { run with tracker := run.tracker.recorded (skipped phase reason), progress := told }
  | none =>
    let call : Call := ⟨phase.name, phase.operations, context⟩
    let (answer, world) := e.execute call run.world
    let (result, halt) := settle (p.errorModeOf phase) phase answer
    { tracker := run.tracker.recorded result
      halt := halt
      calls := run.calls ++ [call]
      progress := told
      world := world }

/-- Takes a run through phases, of which the first stands at a position among all, until one ends
it. -/
def runPhases (p : ValidatedPolicy) (e : Executor σ) (context : FileContext) (total : Nat) :
    Nat → List Phase → FileRun σ → FileRun σ
  | _, [], run => run
  | index, phase :: rest, run =>
    let run := stepPhase p e context index total phase run
    match run.halt with
    | some _ => run
    | none => runPhases p e context total (index + 1) rest run

/-- Runs the phases on one file. -/
def runFile (r : Runner) (e : Executor σ) (context : FileContext) (world : σ) : FileRun σ :=
  runPhases r.policy e context r.phases.length 0 r.phases { world := world }

end Runner

/-- The result of a run of a file. -/
def FileRun.result {σ : Type} (run : FileRun σ) (path : String) : FileResult where
  filePath := path
  success := run.halt.isNone
  phaseResults := run.tracker.results
  summary := run.tracker.summary
  failedPhase := run.halt.map (·.phase)
  errorMessage := run.halt.map (·.error)
  stoppedEarly := run.halt.isSome

end MediaPhases
