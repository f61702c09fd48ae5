import MediaPhases.Command.Fault
import MediaPhases.Files.Path
import MediaPhases.Files.Tree
import MediaPhases.Programs.Format
import MediaPhases.Programs.QuotedName

/-!
# Programs

Small programs as functions: a program gets arguments, an input and a tree of files, and leaves
behind what it has written, how it ended and how long it took.
-/

namespace MediaPhases

/-- What becomes of what a program writes. -/
inductive Outlet where
  /-- Someone gets it. -/
  | present
  /-- It goes to the file at a place. -/
  | file (names : List String)
  /-- There is no place for it. -/
  | absent
deriving DecidableEq, Repr

/-- What a program is given. -/
structure Invocation where
  args : List String
  /-- What is there to be read, if there is anything to read from. -/
  input : Option (List UInt8) := some []
  outlet : Outlet := .present
  files : FileTree
  /-- The variables that the program gets to know. -/
  environment : List (String × String) := []

/-- Something that a program writes. -/
structure Part where
  /-- When it is written, in milliseconds after the start. -/
  time : Nat := 0
  isError : Bool := false
  bytes : List UInt8

/-- What a program leaves behind. -/
structure Effect where
  status : ExitStatus := .exited 0
  /-- What it writes, in order. -/
  parts : List Part := []
  /-- The time that the program takes, in milliseconds. -/
  elapsed : Nat := 0
  files : FileTree
  /-- The input has been read to its end. -/
  hasRead : Bool := false

/-- What a program writes to one of its two streams. -/
def Effect.written (e : Effect) (isError : Bool) : List UInt8 :=
  (e.parts.filter fun p => p.isError == isError).flatMap (·.bytes)

/-- What is left behind when one thing is done after another; it is a success if both are. -/
def Effect.andThen (e next : Effect) : Effect where
  status := if next.status.isSuccess then e.status else next.status
  parts := e.parts ++ next.parts.map fun p => { p with time := e.elapsed + p.time }
  elapsed := e.elapsed + next.elapsed
  files := next.files
  hasRead := e.hasRead || next.hasRead

/-- A program. -/
abbrev Program := Invocation → Effect

namespace Program

/-- Does nothing and ends with a code. -/
def ending (code : Nat) : Program := fun i =>
  { status := .exited code, files := i.files }

/-- Writes bytes. -/
def writing (bytes : List UInt8) : Program := fun i =>
  { parts := [{ bytes := bytes }], files := i.files }

/-- Complains and ends with a code. -/
def refusingWith (code : Nat) (text : String) : Program := fun i =>
  { status := .exited code
    parts := [{ isError := true, bytes := Text.encodeUtf8 (text ++ "\n") }]
    files := i.files }

/-- Complains and fails. -/
def refusing (text : String) : Program :=
  refusingWith 1 text

/-- Complains that something is missing from the arguments. -/
def lacking (name operand : String) : Program :=
  refusing s!"{name}: missing {operand}\nTry '{name} --help' for more information."

/-- How arguments are written. -/
structure EchoStyle where
  hasEscapes : Bool
  endsLine : Bool := true

/-- Writes its arguments with blanks between them. -/
def writeArgs (style : EchoStyle) (args : List String) : Program :=
  let text := " ".intercalate args
  let tail : List UInt8 := if style.endsLine then [10] else []
  if style.hasEscapes then
    let (bytes, isOver) := Format.unescape text.toList
    writing (if isOver then bytes else bytes ++ tail)
  else writing (Text.encodeUtf8 text ++ tail)

/-- The style after an argument of option letters, if the argument is one. -/
def EchoStyle.after? (style : EchoStyle) (arg : String) : Option EchoStyle :=
  match arg.toList with
  | '-' :: c :: cs =>
    (c :: cs).foldlM (fun style c =>
      if c = 'n' then some { style with endsLine := false }
      else if c = 'e' then some { style with hasEscapes := true }
      else if c = 'E' then some { style with hasEscapes := false }
      else none) style
  | _ => none

/-- Writes the arguments after the options. -/
def echoFrom (style : EchoStyle) : List String → Program
  | [] => writeArgs style []
  | arg :: rest =>
    match style.after? arg with
    | some style => echoFrom style rest
    | none => writeArgs style (arg :: rest)

/-- Writes its arguments; options say whether escapes count and whether the line ends. -/
def echo : Program := fun i =>
  echoFrom ⟨false, true⟩ i.args i

/-- Writes its arguments, in which escapes count; the line does not end after the option `-n`. -/
def plainEcho : Program := fun i =>
  match i.args with
  | "-n" :: rest => writeArgs ⟨true, false⟩ rest i
  | args => writeArgs ⟨true, true⟩ args i

/-- Writes its first argument, a format, filled with the others. -/
def printf : Program := fun i =>
  let voice : Format.Voice := {
    noNumber := fun text => s!"‘{text}’: expected a numeric value"
    noWholeNumber := fun text => s!"‘{text}’: value not completely converted"
    noDirective := fun text => s!"{text}: invalid conversion specification"
    noLetter := "%: invalid conversion specification"
    flawCode := 1
    endsFormat := true }
  match if i.args.head? = some "--" then i.args.tail else i.args with
  | [] => lacking "printf" "operand" i
  | format :: args =>
    let f := Format.fill voice format.toList (args.length + 1) { args := args }
    let complaint := String.join (f.complaints.map fun text => s!"printf: {text}\n")
    { status := .exited f.code
      parts := [{ isError := true, bytes := Text.encodeUtf8 complaint }, { bytes := f.written }]
      files := i.files }

/-- The letters of options among arguments and the arguments that are none, or a complaint.  A dash
alone is no option, and after two dashes there are none. -/
def splitOperands (letters : List Char) : List String → Except String (List Char × List String)
  | [] => .ok ([], [])
  | arg :: rest =>
    match arg.toList with
    | ['-', '-'] => .ok ([], rest)
    | '-' :: '-' :: _ => .error s!"unrecognized option '{arg}'"
    | '-' :: c :: cs =>
      match (c :: cs).find? fun c => !letters.contains c with
      | some c => .error ("invalid option -- '" ++ String.singleton c ++ "'")
      | none =>
        (splitOperands letters rest).map fun (found, operands) => (c :: cs ++ found, operands)
    | _ => (splitOperands letters rest).map fun (found, operands) => (found, arg :: operands)

/-- A program that takes options, wherever they stand among its arguments. -/
def withOptions (name : String) (letters : List Char)
    (run : List Char → List String → Program) : Program := fun i =>
  match splitOperands letters i.args with
  | .error text => refusing s!"{name}: {text}\nTry '{name} --help' for more information." i
  | .ok (options, operands) => run options operands i

/-- Runs a step for one argument after the other; every complaint makes the program fail. -/
def forEach (step : FileTree → String → Effect) : List String → Effect → Effect
  | [], e => e
  | arg :: rest, e => forEach step rest (e.andThen (step e.files arg))

/-- Makes empty files where nothing stands, unless an option forbids it. -/
def touch : Program :=
  withOptions "touch" ['a', 'c', 'm'] fun options operands i =>
    let step (files : FileTree) (arg : String) : Effect :=
      if files.hasPath arg ∨ options.contains 'c' then { files := files }
      else
        match files.write arg [] with
        | .ok files => { files := files }
        | .error fault =>
          refusing s!"touch: cannot touch {QuotedName.between arg}: {fault.reason}"
            { args := [], files := files }
    if operands = [] then lacking "touch" "file operand" i
    else forEach step operands { files := i.files }

/-- The path to which a file goes: a directory takes it under its own name. -/
def destination (files : FileTree) (source target : String) : String :=
  match files.node target with
  | .ok (.directory _) => target ++ "/" ++ (Path.fileName? source).getD source
  | _ => target

/-- Copies a file. -/
def copy (target : String) (files : FileTree) (source : String) : Effect :=
  let name := QuotedName.between
  let refuse (text : String) : Effect := refusing ("cp: " ++ text) { args := [], files := files }
  let path := destination files source target
  match files.read source, files.locate source, files.locate path with
  | .error .isDirectory, _, _ => refuse s!"-r not specified; omitting directory {name source}"
  | .error fault, _, _ => refuse s!"cannot stat {name source}: {fault.reason}"
  | .ok content, here, there =>
    if here.toOption = there.toOption then
      refuse s!"{name source} and {name path} are the same file"
    else
      match files.write path content with
      | .ok files => { files := files }
      | .error .notDirectory =>
        refuse s!"cannot stat {name path}: {FileFault.notDirectory.reason}"
      | .error .nameTooLong => refuse s!"cannot stat {name path}: {FileFault.nameTooLong.reason}"
      | .error fault => refuse s!"cannot create regular file {name path}: {fault.reason}"

/-- Copies a file to a path, or files into a directory. -/
def cp : Program :=
  withOptions "cp" ['f', 'p'] fun _ operands i =>
    let name := QuotedName.between
    match operands with
    | [] => lacking "cp" "file operand" i
    | [source] => lacking "cp" s!"destination file operand after {name source}" i
    | [source, target] => copy target i.files source
    | operands =>
      let target := operands.getLastD default
      if i.files.isDirectory target then
        forEach (copy target) operands.dropLast { files := i.files }
      else
        let reason := if i.files.hasPath target then FileFault.notDirectory.reason
          else "No such file or directory"
        refusing s!"cp: target {name target}: {reason}" i

/-- The milliseconds of a time in seconds, minutes, hours or days. -/
def milliseconds? (text : String) : Option Nat :=
  let cs := text.toList
  let unit? : Option Nat := match cs.getLast? with
    | some 'm' => some 60
    | some 'h' => some 3600
    | some 'd' => some 86400
    | some 's' => some 1
    | _ => none
  let number := if unit?.isSome then cs.dropLast else cs
  let whole := number.takeWhile (· ≠ '.')
  let places := (number.drop (whole.length + 1))
  if number.all (fun c => c.isDigit || c == '.') ∧ places.all Char.isDigit ∧
      number.any Char.isDigit then
    let value := (digitsValue whole) * 1000 +
      digitsValue ((places ++ ['0', '0', '0']).take 3)
    some (value * unit?.getD 1)
  else none

/-- Waits. -/
def sleep : Program :=
  withOptions "sleep" [] fun _ operands i =>
    let step (files : FileTree) (arg : String) : Effect :=
      match milliseconds? arg with
      | some time => { elapsed := time, files := files }
      | none => refusing
          s!"sleep: invalid time interval ‘{arg}’\nTry 'sleep --help' for more information."
          { args := [], files := files }
    if operands = [] then lacking "sleep" "operand" i
    else
      let effect := forEach step operands { files := i.files }
      if effect.status.isSuccess then effect else { effect with elapsed := 0 }

end Program

end MediaPhases
