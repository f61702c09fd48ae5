import MediaPhases.Command.Step
import MediaPhases.Engine.Executor
import MediaPhases.Media.Sidecar
import MediaPhases.Text.Lowercase

/-!
# Built-in executors and probers

One executor only says what it would do.  The other runs the steps of a phase.  All of them are
read before the first command runs.  The prober reads the sidecar files of media files.
-/

namespace MediaPhases

/-- Says what operations would be run. -/
def dryRunExecutor (σ : Type) : Executor σ :=
  .pure "dry-run" fun call =>
    let keys := call.operations.keys
    .ok { summary := some <|
      if keys.isEmpty then "nothing to run" else "would run: " ++ ", ".intercalate keys }

/-- Runs the commands of a phase, or says which they are. -/
def commandExecutor {σ : Type} (launch : Launcher σ) (limit : Nat) : Executor σ where
  name := "command"
  execute := fun call world =>
    match ExecStep.ofOperations call.phase call.operations with
    | .error failure => (.error failure, world)
    | .ok [] => (.ok { summary := some "no commands" }, world)
    | .ok steps =>
      let c := TemplateContext.ofFile call.context.path call.phase
      if call.context.dryRun then
        let tools := steps.map fun step => (step.toCommand c limit).toolName
        (.ok { summary := some ("would execute: " ++ ", ".intercalate tools) }, world)
      else
        match runSteps launch limit c steps world with
        | (.error failure, world) => (.error failure, world)
        | (.ok (modified, tools), world) =>
          (.ok { fileModified := modified,
                 summary := some ("executed: " ++ ", ".intercalate tools) }, world)

/-- Reads snapshots from sidecar files, which stand among the files of the world. -/
def sidecarProber {σ : Type} (files : σ → FileTree) (s : Sidecar) : Prober σ where
  name := "snapshot"
  probe := fun path world => s.probe (files world) path

/-- The built-in executors. -/
inductive ExecutorKind where
  | dryRun
  | command
deriving DecidableEq, Repr

namespace ExecutorKind

/-- The name of a kind. -/
def name : ExecutorKind → String
  | .dryRun => "dry-run"
  | .command => "command"

/-- Reads a kind from the command line; a refusal names what was written in lower case. -/
def parse (s : String) : Except String ExecutorKind :=
  let folded := Text.asciiLowercase s
  if folded = "dry-run" ∨ folded = "dryrun" then .ok .dryRun
  else if folded = "command" then .ok .command
  else .error s!"unknown executor '{folded}' (expected dry-run or command)"

/-- Reads a kind from a document. -/
def reader : Reader ExecutorKind :=
  .oneOf ([.dryRun, .command].map fun k => (k.name, k))

/-- The executor of a kind, with a time limit for each command in milliseconds. -/
def build {σ : Type} (k : ExecutorKind) (launch : Launcher σ) (limit : Nat) : Executor σ :=
  match k with
  | .dryRun => dryRunExecutor σ
  | .command => commandExecutor launch limit

end ExecutorKind

end MediaPhases
