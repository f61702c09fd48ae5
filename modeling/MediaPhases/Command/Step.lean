import MediaPhases.Command.Template
import MediaPhases.Command.Tool
import MediaPhases.Document.Json
import MediaPhases.Policy.Operations

/-!
# Steps

The commands that the operations of a phase list under `exec`.  They run one after the other
until one fails; whether the file has been changed is what the steps themselves declare.
-/

namespace MediaPhases

/-- One command of a phase. -/
structure ExecStep where
  command : String
  args : List String := []
  /-- Whether a run of the command that ends well changes the file. -/
  modifies : Bool := false
deriving DecidableEq, Repr

namespace ExecStep

/-- The fields of a step. -/
def schema : Schema ExecStep where
  name := "struct ExecStep"
  fields := [
    .of "command" .required .text fun s e => { e with command := s },
    .of "args" .defaulted (.listOf .text) fun xs e => { e with args := xs },
    .of "modifies" .defaulted .bool fun b e => { e with modifies := b }]
  isClosed := true
  blank := { command := "" }

/-- The steps of a phase; operations without `exec` have none. -/
def ofOperations (phase : String) (o : Operations) : Except Failure (List ExecStep) :=
  match o.get? "exec" with
  | none => .ok []
  | some v =>
    (Reader.listOf schema.read Json.heldDialect v).mapError fun fault =>
      .operation phase (.invalidSteps fault)

/-- The command of a step with its placeholders filled. -/
def toCommand (e : ExecStep) (c : TemplateContext) (limit : Nat) : ToolCommand where
  program := c.substitute e.command
  args := e.args.map c.substitute
  limit := limit

end ExecStep

/-- Runs the commands of steps until one fails, and says whether one of them changes the file and
which tools have run. -/
def runSteps {σ : Type} (launch : Launcher σ) (limit : Nat) (c : TemplateContext) :
    List ExecStep → σ → Except Failure (Bool × List String) × σ
  | [], world => (.ok (false, []), world)
  | step :: rest, world =>
    let command := step.toCommand c limit
    match command.execute launch world with
    | (.error failure, world) => (.error failure, world)
    | (.ok _, world) =>
      match runSteps launch limit c rest world with
      | (.error failure, world) => (.error failure, world)
      | (.ok (modified, tools), world) =>
        (.ok (step.modifies || modified, command.toolName :: tools), world)

end MediaPhases
