import MediaPhases.Command.Tool
import MediaPhases.Programs.Display
import MediaPhases.Programs.Interpreter

/-!
# Launching programs

A launcher for the programs of this library, which are found by name or in the usual directories.
A program whose time is up is stopped; a program that ends with anything but success has failed.
-/

namespace MediaPhases.Programs

/-- The programs by name, the command interpreter aside. -/
def standard : List (String × Program) :=
  [("true", Program.ending 0), ("false", Program.ending 1), ("echo", Program.echo),
    ("printf", Program.printf), ("cat", Program.cat), ("touch", Program.touch),
    ("cp", Program.cp), ("sleep", Program.sleep)]

/-- The directories that hold the programs. -/
def directories : List String :=
  ["/usr/bin", "/bin"]

/-- The name of a program without the directory of programs before it. -/
def bareName (path : String) : String :=
  match directories.find? fun d => (d ++ "/").toList.isPrefixOf path.toList with
  | some d => String.ofList (path.toList.drop (d.length + 1))
  | none => path

/-- Why a name leads to no program. -/
def lookupFault (files : FileTree) (path : String) : FileFault :=
  if path.contains '/' then
    match files.locate path with
    | .ok _ => .permissionDenied
    | .error fault => fault
  else if path = "." ∨ path = ".." then .permissionDenied
  else if FileTree.nameLimit < path.utf8ByteSize then .nameTooLong
  else .notFound

/-- What a command interpreter says about a name that leads to no program. -/
def complaint (files : FileTree) (path : String) : Nat × String :=
  match lookupFault files path with
  | .permissionDenied => (126, path ++ ": Permission denied")
  | .notFound => (127, path ++ (if path = "" then ": Permission denied" else ": not found"))
  | .nameTooLong => (127, path ++ ": File name too long")
  | _ => (127, path ++ ": not found")

/-- The program of a name, with command interpreters nested at most to a depth and each of them
ending when a time is up. -/
def find? (limit : Nat) : Nat → String → Option Program
  | 0, path => standard.lookup (bareName path)
  | depth + 1, path =>
    let lookup : Shell.Lookup := fun files inner =>
      match find? limit depth inner with
      | some program => .ok program
      | none => .error (complaint files inner)
    let name := bareName path
    if name = "sh" ∨ name = "dash" then some (Shell.program path ⟨lookup, directories, limit⟩)
    else standard.lookup name

/-- The variables that every program gets to know. -/
def environment : List (String × String) :=
  [("HOME", "/root"),
    ("PATH", "/usr/local/sbin:/usr/local/bin:/usr/sbin:/usr/bin:/sbin:/bin")]

/-- How deep command interpreters are nested. -/
def maxDepth : Nat := 16

/-- The fault of a command that holds the character that ends texts of the operating system. -/
def holdsNul (c : ToolCommand) : Bool :=
  (c.program :: c.args).any (·.contains '\x00')

/-- Runs a command. -/
def launch : Launcher FileTree := fun c files =>
  if holdsNul c then (.error (.notStarted (.stated "nul byte found in provided data")), files)
  else
    match find? c.limit maxDepth c.program with
    | none => (.error (.notStarted (lookupFault files c.program)), files)
    | some program =>
      let e := program { args := c.args, files := files, environment := environment }
      let outcome : Except ToolFault ToolOutput :=
        if c.limit ≤ e.elapsed then .error (.timedOut c.limit)
        else if e.status.isSuccess then
          .ok ⟨Text.decodeLossy (e.written false), Text.decodeLossy (e.written true)⟩
        else .error (.ended e.status (Text.decodeLossy (e.written true)))
      (outcome, e.files)

end MediaPhases.Programs
