import MediaPhases.CommandLine.Arguments
import MediaPhases.Engine.Batch
import MediaPhases.Policy.Document
import MediaPhases.Report
import MediaPhases.Settings.File

/-!
# Command line sessions

Does what a command line asks for and says how the program ends.  Settings come first, then the
policy, then the selection of its phases, and only then the files.  A policy that cannot be used
and a selection that names no phase of it have an exit code of their own.
-/

namespace MediaPhases.CommandLine

/-- What a session works with. -/
structure Machine (σ : Type) where
  /-- The files of the world. -/
  files : σ → FileTree
  launch : Launcher σ
  /-- The path of the user's own directory. -/
  home : String

/-- How a session ends. -/
structure Ending (σ : Type) where
  code : Nat := 0
  stdout : String := ""
  warnings : List SubsetWarning := []
  fault : Option JobFault := none
  /-- The run of the files, if the session has come to it. -/
  batch : Option (BatchRun σ) := none
  world : σ

/-- The lines that a session writes to the stream of complaints. -/
def Ending.stderr {σ : Type} (e : Ending σ) : List String :=
  e.warnings.map ("warning: " ++ ·.message) ++ (e.fault.map ("Error: " ++ ·.message)).toList

/-- Reads and checks a policy file under some settings. -/
def loadPolicy (s : Settings) (t : FileTree) (path : String) :
    Except JobFault (Policy × ValidatedPolicy) :=
  match Policy.load t path with
  | .error failure =>
    .error (.context s!"Failed to load policy: {Text.quoted path}" (.root (.failure failure)))
  | .ok policy =>
    match ValidatedPolicy.ofPolicy policy s.engine.errorMode with
    | .error defect =>
      .error (.context s!"Invalid policy: {Text.quoted path}"
        (.root (.failure (.validation defect))))
    | .ok checked => .ok (policy, checked)

/-- The runner of a policy for the selected phases. -/
def selectPhases (policy : ValidatedPolicy) (names : Option (List String)) :
    Except JobFault (Runner × List SubsetWarning) :=
  match names with
  | none => .ok ({ policy := policy }, [])
  | some names =>
    (Runner.select { policy := policy } names).mapError fun f => .root (.failure f)

/-- The runner of the selected phases of a policy file, and the warnings about the selection. -/
def prepare (s : Settings) (t : FileTree) (path : String) (selected : Option (List String)) :
    Except JobFault (Runner × List SubsetWarning) :=
  match loadPolicy s t path with
  | .error fault => .error fault
  | .ok (_, checked) => selectPhases checked selected

variable {σ : Type}

/-- The end of a session that fails. -/
def failing (world : σ) (stdout : String) (fault : JobFault) : Ending σ where
  code := fault.exitCode
  stdout := stdout
  fault := some fault
  world := world

/-- What is said about a policy that is valid. -/
def summaryOf (policy : ValidatedPolicy) : String :=
  Report.unlines [
    "✓ Policy is valid",
    s!"  Phases: {policy.phases.length}",
    s!"  Default on_error: {policy.errorMode.name}",
    s!"  With dependencies: {policy.phases.countP fun p => !p.dependsOn.isEmpty}"]

/-- Checks a policy. -/
def validate (m : Machine σ) (s : Settings) (path : String) (world : σ) : Ending σ :=
  let heading := s!"Validating policy: {Text.quoted path}\n"
  match loadPolicy s (m.files world) path with
  | .error fault => failing world heading fault
  | .ok (_, checked) => { stdout := heading ++ summaryOf checked, world := world }

/-- Lists the phases of a policy. -/
def listPhases (m : Machine σ) (s : Settings) (path : String) (json : Bool) (world : σ) :
    Ending σ :=
  match loadPolicy s (m.files world) path with
  | .error fault => failing world "" fault
  | .ok (policy, checked) =>
    { stdout := if json then policy.toJson ++ "\n" else Report.phases checked, world := world }

/-- The batch of a run. -/
def batchOf (m : Machine σ) (s : Settings) (o : RunOptions) (runner : Runner) :
    BatchRunner σ where
  runner := runner
  executor := (o.executor.getD s.executor.kind).build m.launch s.limitMilliseconds
  prober := sidecarProber m.files (Sidecar.ofSuffix s.probe.suffix)
  workers := o.workers.getD s.engine.workers
  dryRun := o.dryRun

/-- The end of a session whose files have been run. -/
def reporting (o : RunOptions) (warnings : List SubsetWarning) (run : BatchRun σ) : Ending σ where
  code := if run.result.success then 0 else 1
  stdout := if o.json then run.result.toJson ++ "\n" else Report.batch run.result
  warnings := warnings
  batch := some run
  world := run.world

/-- Runs a policy on files. -/
def runPolicy (m : Machine σ) (s : Settings) (path : String) (o : RunOptions) (world : σ) :
    Ending σ :=
  match prepare s (m.files world) path o.phases with
  | .error fault => failing world "" fault
  | .ok (runner, warnings) =>
    reporting o warnings ((batchOf m s o runner).runFiles o.files world)

/-- Does what a request asks for under some settings. -/
def performWith (m : Machine σ) (s : Settings) (r : Request) (world : σ) : Ending σ :=
  match r.job with
  | .validate => validate m s r.policy world
  | .phases json => listPhases m s r.policy json world
  | .run options => runPolicy m s r.policy options world

/-- Does what a request asks for. -/
def perform (m : Machine σ) (r : Request) (world : σ) : Ending σ :=
  match Settings.find (m.files world) m.home r.config with
  | .error fault => failing world "" fault
  | .ok s => performWith m s r world

/-- The name and the version of the program. -/
def versionLine : String := "phaseforged 0.1.0"

/-- How the program is used. -/
def usage : String :=
  Report.unlines [
    "Usage: phaseforged [--config PATH] [--verbose] COMMAND",
    "",
    "Commands:",
    "  validate POLICY            check a policy file",
    "  phases [--json] POLICY     list the phases of a policy in execution order",
    "  run [OPTIONS] POLICY FILE...",
    "                             run a policy against media files",
    "",
    "Options of run:",
    "  --phases NAMES             only run these phases (comma-separated)",
    "  --json                     output results as JSON",
    "  --dry-run                  show what would be done without executing",
    "  --workers NUMBER           number of files processed concurrently",
    "  --executor KIND            dry-run or command"]

/-- A session from the words of its command line on. -/
def session (m : Machine σ) (words : List String) (world : σ) : Ending σ :=
  match parse words with
  | .ok request => perform m request world
  | .error .version => { stdout := versionLine ++ "\n", world := world }
  | .error .help => { stdout := usage, world := world }
  | .error .usage => { code := 2, world := world }

end MediaPhases.CommandLine
