import MediaPhases.Failure
import MediaPhases.Files.Path

/-!
# Tools

External commands with a time limit, and what their runs leave behind.
-/

namespace MediaPhases

/-- The usual time limit in milliseconds. -/
def standardLimit : Nat := 300000

/-- An external command. -/
structure ToolCommand where
  program : String
  args : List String := []
  /-- The time limit in milliseconds. -/
  limit : Nat := standardLimit
deriving DecidableEq, Repr

namespace ToolCommand

/-- The name of the tool in messages: the last segment of the program's path. -/
def toolName (c : ToolCommand) : String :=
  (Path.fileName? c.program).getD c.program

/-- The command in one line. -/
def display (c : ToolCommand) : String :=
  " ".intercalate (c.program :: c.args)

end ToolCommand

/-- What a command that ended well has written. -/
structure ToolOutput where
  stdout : String := ""
  stderr : String := ""
deriving DecidableEq, Repr

/-- Runs commands in a world that they may change. -/
abbrev Launcher (σ : Type) := ToolCommand → σ → Except ToolFault ToolOutput × σ

/-- Runs a command; a fault becomes the failure of the tool. -/
def ToolCommand.execute {σ : Type} (c : ToolCommand) (launch : Launcher σ) (world : σ) :
    Except Failure ToolOutput × σ :=
  let (outcome, world) := launch c world
  (outcome.mapError (.tool c.toolName), world)

end MediaPhases
