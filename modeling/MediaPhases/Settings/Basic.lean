import MediaPhases.Document.Toml
import MediaPhases.Engine.BuiltIn
import MediaPhases.Files.Fault
import MediaPhases.Media.Sidecar
import MediaPhases.Policy.ErrorMode

/-!
# Settings

What can be set for all runs: the error mode of policies that state none, the number of files in
flight, where snapshots stand, and the executor with its time limit.  Settings come from a TOML
document in which everything may be missing.
-/

namespace MediaPhases

/-- The settings of the engine. -/
structure EngineSettings where
  errorMode : ErrorMode := .proceed
  /-- How many files are processed at a time. -/
  workers : Nat := 1
deriving DecidableEq, Repr

/-- The settings of the prober. -/
structure ProbeSettings where
  /-- The suffix of sidecar files. -/
  suffix : String := Sidecar.standardSuffix
deriving DecidableEq, Repr

/-- The settings of the executor. -/
structure ExecutorSettings where
  kind : ExecutorKind := .command
  /-- The time limit of each command in seconds. -/
  limit : Nat := 300
deriving DecidableEq, Repr

/-- The settings. -/
structure Settings where
  engine : EngineSettings := {}
  probe : ProbeSettings := {}
  executor : ExecutorSettings := {}
deriving DecidableEq, Repr

/-- Why a settings document is refused. -/
inductive SettingsFault where
  | document (fault : Fault)
  | noWorkers
  | noTime
  | noSuffix
deriving DecidableEq, Repr

/-- The wording of a refusal. -/
def SettingsFault.message : SettingsFault → String
  | .document fault => fault.message .pointed
  | .noWorkers => "engine.workers must be at least 1"
  | .noTime => "executor.timeout_secs must be greater than 0"
  | .noSuffix => "probe.snapshot_suffix cannot be empty"

namespace Settings

/-- The fields of the engine's settings. -/
def engineSchema : Schema EngineSettings where
  name := "struct EngineConfig"
  fields := [
    .of "default_on_error" .defaulted ErrorMode.reader fun m s => { s with errorMode := m },
    .of "workers" .defaulted .count fun n s => { s with workers := n }]
  isClosed := true
  blank := {}

/-- The fields of the prober's settings. -/
def probeSchema : Schema ProbeSettings where
  name := "struct ProbeConfig"
  fields := [.of "snapshot_suffix" .defaulted .text fun t s => { s with suffix := t }]
  isClosed := true
  blank := {}

/-- The fields of the executor's settings. -/
def executorSchema : Schema ExecutorSettings where
  name := "struct ExecutorConfig"
  fields := [
    .of "kind" .defaulted ExecutorKind.reader fun k s => { s with kind := k },
    .of "timeout_secs" .defaulted .nat64 fun n s => { s with limit := n }]
  isClosed := true
  blank := {}

/-- The parts of the settings. -/
def schema : Schema Settings where
  name := "struct Config"
  fields := [
    .of "engine" .defaulted engineSchema.read fun e s => { s with engine := e },
    .of "probe" .defaulted probeSchema.read fun p s => { s with probe := p },
    .of "executor" .defaulted executorSchema.read fun e s => { s with executor := e }]
  isClosed := true
  blank := {}

/-- Checks that files are processed at all, that commands have time, and that the suffix is more
than points. -/
def check (s : Settings) : Except SettingsFault Unit :=
  if s.engine.workers = 0 then .error .noWorkers
  else if s.executor.limit = 0 then .error .noTime
  else if s.probe.suffix.toList.all (· == '.') then .error .noSuffix
  else .ok ()

/-- Reads and checks a settings document. -/
def parse (text : String) : Except SettingsFault Settings :=
  match Toml.decode schema.read text with
  | .error fault => .error (.document fault)
  | .ok s => s.check.map fun _ => s

/-- The time limit of commands in milliseconds. -/
def limitMilliseconds (s : Settings) : Nat :=
  s.executor.limit * 1000

end Settings

end MediaPhases
