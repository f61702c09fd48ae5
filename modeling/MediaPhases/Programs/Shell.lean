import MediaPhases.Programs.Arithmetic
import MediaPhases.Programs.Basic
import MediaPhases.Programs.Fields
import MediaPhases.Programs.Home
import MediaPhases.Programs.Options

/-!
# Command interpreters

What a command interpreter knows while it works: the values of parameters, where its streams go,
the signals that it waits for, and why it does not go on.
-/

namespace MediaPhases

/-- Where a stream of a command comes from or goes to. -/
inductive Channel where
  /-- One of the texts that are read; all who read from it share what is left of it. -/
  | source (n : Nat)
  /-- One of the interpreter's own buffers. -/
  | buffer (n : Nat)
  | file (path : String)
deriving DecidableEq, Repr

/-- Why an interpreter does not go on with the next command. -/
inductive Jump where
  /-- It has ended, or else the inner one that is at work has. -/
  | ended (code : Nat)
  /-- It has gone without its last commands: another program has taken its place, or a fault that no
  interpreter survives. -/
  | gone (status : ExitStatus)
  /-- A signal has ended it. -/
  | killed (signal : Nat)
  /-- It leaves a number of loops, and perhaps repeats the last one of them. -/
  | left (loops : Nat) (isRepeated : Bool)
  /-- It leaves a function. -/
  | returned
  /-- A fault keeps it from going on. -/
  | failed
deriving DecidableEq, Repr

/-- What a function puts back when it ends. -/
structure CallFrame where
  /-- Variables with their values before, if they had any, and whether programs knew them. -/
  values : List (String × Option String × Bool) := []
  options : Option (List ShellOption) := none

/-- A command interpreter at work. -/
structure Shell where
  /-- The name under which it complains. -/
  name : String
  args : List String := []
  bindings : Arithmetic.Bindings := [("IFS", " \t\n")]
  /-- The variables that programs get to know. -/
  exported : List String := []
  /-- The variables that keep their values. -/
  frozen : List String := []
  functions : List (String × Script.Command) := []
  /-- What stands for words at the start of commands that are still to be read. -/
  aliases : List (String × String) := []
  /-- The programs that have been found. -/
  tracked : List String := []
  /-- What is done when a signal arrives; number zero stands for the end. -/
  traps : List (Nat × String) := []
  /-- The signals that have arrived and are still to be dealt with. -/
  pending : List Nat := []
  /-- What the function at work puts back; none outside functions. -/
  locals : Option CallFrame := none
  /-- The number of functions that are at work. -/
  depth : Nat := 0
  /-- How far the options among the arguments have been looked at. -/
  cursor : OptionCursor := {}
  /-- The number of loops that are at work. -/
  loops : Nat := 0
  /-- The code for which the last command stands. -/
  status : Nat := 0
  /-- The code of the last script whose output was put into a word. -/
  substituted : Option Nat := none
  line : Nat := 1
  /-- The line up to which the script has been read. -/
  reached : Nat := 1
  /-- On whose behalf it complains. -/
  speaker : Option String := none
  /-- What is left to be read of each source. -/
  sources : List (List UInt8) := [[]]
  /-- The number of buffers. -/
  buffers : Nat := 2
  /-- What has been written to which buffer and when, the last part first. -/
  log : List (Nat × Nat × List UInt8) := []
  channels : List (Nat × Channel) := [(0, .source 0), (1, .buffer 0), (2, .buffer 1)]
  /-- Something that a command wrote has had no place to go to. -/
  hasLost : Bool := false
  elapsed : Nat := 0
  /-- When the last one of the commands ends that are not waited for. -/
  lasting : Nat := 0
  /-- The buffers to which such a command may still write, and until when. -/
  held : List (Nat × Nat) := []
  /-- How the command has ended, or will, that was last not waited for. -/
  job : Option ExitStatus := none
  /-- The interpreter knows about that. -/
  isJobKnown : Bool := false
  files : FileTree
  jump : Option Jump := none
  options : List ShellOption := []
  /-- A failure does not end it, since it is one of what is a test. -/
  isTested : Bool := false
  /-- The permissions that new files do not get, as bits. -/
  mask : Nat := 18

namespace Shell

/-- The number by which an interpreter knows itself. -/
def ownNumber : String := "1000"

/-- The number by which it knows the command that was last not waited for. -/
def jobNumber : String := "1001"

/-- Whether an option is on. -/
def has (s : Shell) (o : ShellOption) : Bool :=
  s.options.contains o

/-- Whether an interpreter does not go on with the next command. -/
def isOver (limit : Nat) (s : Shell) : Bool :=
  s.jump.isSome || decide (limit ≤ s.elapsed)

/-- The interpreter when its time is up. -/
def exhaust (limit : Nat) (s : Shell) : Shell :=
  { s with elapsed := Nat.max limit s.elapsed }

/-- The value of a parameter, if it has one. -/
def value? (s : Shell) (name : String) : Option String :=
  match name with
  | "?" => some (toString s.status)
  | "#" => some (toString s.args.length)
  | "$" => some ownNumber
  | "!" => s.job.map fun _ => jobNumber
  | "0" => some s.name
  | "-" => some (ShellOption.letters s.options)
  | "@" => some (" ".intercalate s.args)
  | "*" =>
    let separator := ((s.bindings.lookup "IFS").getD " ").take 1
    some (separator.toString.intercalate s.args)
  | _ =>
    match natOfDigits? name.toList with
    | some n => s.args[n - 1]?
    | none => s.bindings.lookup name

/-- The length of a parameter's value, or the number of the arguments. -/
def lengthOf (s : Shell) (name : String) : Nat :=
  if name = "@" ∨ name = "*" then s.args.length else ((s.value? name).getD "").utf8ByteSize

/-- The characters at which values are split. -/
def separators (s : Shell) : List Char :=
  ((s.bindings.lookup "IFS").getD " \t\n").toList

/-- Goes on with the value of a parameter. -/
def addParameter (s : Shell) (splitting : Splitting) (f : Fields) (name : String)
    (isQuoted : Bool) : Fields :=
  let push (f : Fields) (text : String) : Fields :=
    f.pushValue s.separators splitting isQuoted text
  if splitting ≠ .never ∧ (name = "@" ∨ (name = "*" ∧ !isQuoted)) then f.pushEach push s.args
  else push f ((s.value? name).getD "")

/-- The text of marks. -/
def textOf (marks : List Pattern.Mark) : String :=
  String.ofList (marks.map (·.1))

/-- The paths for which fields stand. -/
def pathsOf (s : Shell) (fields : List (List Pattern.Mark)) : List String :=
  if s.has .noglob then fields.map textOf else fields.flatMap (Pattern.paths s.files)

/-- How words are searched for home directories. -/
def homes (s : Shell) (hasColons : Bool) : Script.HomeSearch where
  home? := fun name =>
    if name = [] then s.bindings.lookup "HOME"
    else if name = ['r', 'o', 'o', 't'] then some "/root"
    else none
  hasColons := hasColons

/-- The text that stands for bytes in a word: without the line ends that it ends with. -/
def captured (bytes : List UInt8) : String :=
  let text := Text.decodeLossy (bytes.filter (· ≠ 0))
  String.ofList (text.toList.reverse.dropWhile (· = '\n')).reverse

/-- What is left to be read from a stream, if it can be read from. -/
def unread? (s : Shell) (stream : Nat) : Option (List UInt8) :=
  match s.channels.lookup stream with
  | some (.source n) => s.sources[n]?
  | _ => none

/-- Leaves only a rest of what there is to be read from a stream. -/
def leaveUnread (s : Shell) (stream : Nat) (rest : List UInt8) : Shell :=
  match s.channels.lookup stream with
  | some (.source n) => { s with sources := s.sources.set n rest }
  | _ => s

/-- What becomes of what a command writes to a stream. -/
def outlet (s : Shell) (stream : Nat) : Outlet :=
  match s.channels.lookup stream with
  | some (.file path) => ((s.files.locate path).toOption.map .file).getD .present
  | some _ => .present
  | none => .absent

/-- Writes bytes to a stream. -/
def write (s : Shell) (stream : Nat) (bytes : List UInt8) : Shell :=
  match s.channels.lookup stream with
  | some (.buffer n) => { s with log := (n, s.elapsed, bytes) :: s.log }
  | some (.file path) =>
    match s.files.read path with
    | .error _ => s
    | .ok content =>
      match s.files.write path (content ++ bytes) with
      | .ok files => { s with files := files }
      | .error _ => s
  | some (.source _) | none => { s with hasLost := s.hasLost || (stream == 1 && bytes != []) }

/-- What has been written to a buffer, in the order of time. -/
def written (s : Shell) (n : Nat) : List UInt8 :=
  let parts := (s.log.filter fun entry => entry.1 = n).reverse
  (parts.mergeSort fun a b => a.2.1 ≤ b.2.1).flatMap (·.2.2)

/-- What stands before a complaint. -/
def complaintHead (s : Shell) : String :=
  let head := s!"{s.name}: {s.line}: "
  match s.speaker with
  | some speaker => head ++ speaker ++ ": "
  | none => head

/-- Writes a complaint. -/
def complain (s : Shell) (text : String) : Shell :=
  s.write 2 (Text.encodeUtf8 (s.complaintHead ++ text ++ "\n"))

/-- Writes a complaint after which the interpreter cannot go on. -/
def fail (s : Shell) (text : String) : Shell :=
  { s.complain text with status := 2, jump := some .failed }

/-- Writes a complaint of a command. -/
def refuse (s : Shell) (text : String) (code : Nat := 2) : Shell :=
  { s.complain text with status := code }

/-- Writes a text and ends well. -/
def say (s : Shell) (text : String) : Shell :=
  { s.write 1 (Text.encodeUtf8 text) with status := 0 }

/-- A number that is not negative and not too large for a code. -/
def natural? (word : String) : Option Nat :=
  (natOfDigits? word.toList).filter (· ≤ 2147483647)

/-- Gives a variable a value.  The number of the next option is also the place from which options
are looked for. -/
def bind (s : Shell) (name value : String) : Shell :=
  if !Script.isName name.toList then s.fail s!"{name}: bad variable name"
  else if s.frozen.contains name then s.fail s!"{name}: is read only"
  else
    let s := { s with
      bindings := s.bindings.set name value
      exported := if s.has .allexport then name :: s.exported else s.exported }
    if name ≠ "OPTIND" then s
    else
      match natural? value with
      | some n => { s with cursor := ⟨Nat.max 1 n, none⟩ }
      | none => s.fail s!"Illegal number: {value}"

/-- Takes a variable away. -/
def unbind (s : Shell) (name : String) : Shell :=
  { s with
    bindings := s.bindings.filter fun b => b.1 ≠ name
    exported := s.exported.filter (· ≠ name) }

/-- Gives a variable the value back that it had before, if it had one. -/
def restore (s : Shell) (name : String) (value : Option String) : Shell :=
  match value with
  | some value => { s with bindings := s.bindings.set name value }
  | none => { s with bindings := s.bindings.filter fun b => b.1 ≠ name }

/-- Gives the interpreter arguments, among which no options have been looked for. -/
def withArgs (s : Shell) (args : List String) : Shell :=
  { s with args := args, cursor := {} }

/-- Takes over the variables that an expression has changed. -/
def rebind (s : Shell) (bindings : Arithmetic.Bindings) : Shell :=
  let changed := bindings.filter fun b => s.bindings.lookup b.1 ≠ some b.2
  changed.reverse.foldl (fun s b => s.bind b.1 b.2) s

/-- What is said of a program that a signal has ended; of some nothing is said. -/
def obituary (signal : Nat) : Option String :=
  if 34 ≤ signal then some s!"Real-time signal {signal - 34}"
  else
    [(1, "Hangup"), (3, "Quit"), (4, "Illegal instruction"), (5, "Trace/breakpoint trap"),
      (6, "Aborted"), (7, "Bus error"), (8, "Floating point exception"), (9, "Killed"),
      (10, "User defined signal 1"), (11, "Segmentation fault"), (12, "User defined signal 2"),
      (14, "Alarm clock"), (15, "Terminated"), (16, "Stack fault"),
      (24, "CPU time limit exceeded"), (25, "File size limit exceeded"),
      (26, "Virtual timer expired"), (27, "Profiling timer expired"), (29, "I/O possible"),
      (30, "Power failure"), (31, "Bad system call")].lookup signal

/-- The interpreter after something that it has waited for has ended. -/
def note (s : Shell) (status : ExitStatus) : Shell :=
  match status with
  | .exited code => { s with status := code }
  | .killed signal =>
    let s := { s with status := 128 + signal }
    match obituary signal with
    | some text => s.write 2 (Text.encodeUtf8 (text ++ "\n"))
    | none => s

/-- The interpreter after a program has run. -/
def absorb (s : Shell) (e : Effect) : Shell :=
  let t := { (if e.hasRead then s.leaveUnread 0 [] else s) with files := e.files }
  let t := e.parts.foldl (fun t p =>
    { t with elapsed := s.elapsed + p.time }.write (if p.isError then 2 else 1) p.bytes) t
  { t with elapsed := s.elapsed + e.elapsed }.note e.status

/-- An outer interpreter after an inner one has ended, which leaves nothing behind but what it has
done to the world. -/
def leave (outer inner : Shell) : Shell :=
  let s := { outer with
    status := inner.status
    log := inner.log
    elapsed := inner.elapsed
    lasting := inner.lasting
    held := inner.held
    sources := inner.sources.take outer.sources.length
    files := { inner.files with working := outer.files.working } }
  match inner.jump with
  | some (.killed signal) => { s with jump := some (.killed signal) }
  | some (.ended code) => { s with status := code }
  | some (.gone status) => s.note status
  | _ => s

/-- An inner interpreter as it starts: of the traps it keeps the signals that are ignored. -/
def inner (s : Shell) : Shell :=
  { s with traps := s.traps.filter fun t => t.2 = "" ∧ t.1 ≠ 0 }

end Shell

end MediaPhases
