import MediaPhases.Programs.Adjustment
import MediaPhases.Programs.Checks
import MediaPhases.Programs.Signals

/-!
# Built-in commands

The commands that change the interpreter itself, and those that it does not leave to programs.
-/

namespace MediaPhases.Shell

/-- Does nothing and ends with a code. -/
def finish (code : Nat) : BuiltIn := fun s _ =>
  { s with status := code }

/-- A program as a built-in command, which complains in the interpreter's name.  The complaint
itself starts with the name of the program. -/
def ofProgram (program : Program) : BuiltIn := fun s args =>
  let e := program { args := args, files := s.files }
  let head := { s with speaker := none }.complaintHead
  s.absorb { e with parts := e.parts.map fun p =>
    if p.isError then { p with bytes := Text.encodeUtf8 head ++ p.bytes } else p }

/-- Writes its first argument, a format, filled with the others. -/
def printf : BuiltIn := fun s args =>
  let voice : Format.Voice := {
    noNumber := fun text => s!"{text}: expected numeric value"
    noWholeNumber := fun text => s!"{text}: not completely converted"
    noDirective := fun text => s!"{text}: invalid directive"
    noLetter := "missing format character"
    flawCode := 2
    endsFormat := false }
  match if args.head? = some "--" then args.tail else args with
  | [] => s.refuse "usage: printf format [arg ...]"
  | format :: args =>
    match if format = "-" then [] else format.toList with
    | '-' :: c :: _ =>
      s.refuse ("Illegal option -" ++ String.singleton c)
    | _ =>
      let f := Format.fill voice format.toList (args.length + 1) { args := args }
      { (f.complaints.foldl Shell.complain s).write 1 f.written with status := f.code }

/-- Ends the interpreter. -/
def exit : BuiltIn := fun s args =>
  match args with
  | [] => { s with jump := some (.ended s.status) }
  | word :: _ =>
    match natural? word with
    | some n => { s with jump := some (.ended (n % 256)) }
    | none => s.fail s!"Illegal number: {word}"

/-- Leaves a function. -/
def leaveFunction : BuiltIn := fun s args =>
  match args with
  | [] => { s with jump := some .returned }
  | word :: _ =>
    match natural? word with
    | some n => { s with status := n, jump := some .returned }
    | none => s.fail s!"Illegal number: {word}"

/-- Leaves loops, or goes on with the next turn of one. -/
def leaveLoops (isRepeated : Bool) : BuiltIn := fun s args =>
  let go (n : Nat) : Shell :=
    { s with status := 0, jump :=
      if s.loops = 0 then none else some (.left (Nat.min n s.loops) isRepeated) }
  match args with
  | [] => go 1
  | word :: _ =>
    match natural? word with
    | some (n + 1) => go (n + 1)
    | _ => s.fail s!"Illegal number: {word}"

/-- Drops arguments of the interpreter. -/
def shift : BuiltIn := fun s args =>
  match args.head?, (args.head?.map natural?).getD (some 1) with
  | some word, none => s.fail s!"Illegal number: {word}"
  | _, some n =>
    if s.args.length < n then s.fail "can't shift that many"
    else { s.withArgs (s.args.drop n) with status := 0 }
  | none, none => s

/-- The path of the working directory. -/
def workingPath (s : Shell) : String :=
  "/" ++ "/".intercalate s.files.working

/-- Changes the working directory, and remembers the one before; a dash stands for that one. -/
def cd : BuiltIn := fun s args =>
  match splitOptions "LP" args with
  | .error text => s.refuse text
  | .ok (_, args) =>
    let target? := args.head?.or (s.bindings.lookup "HOME")
    match target?, target? == some "-" with
    | none, _ => { s with status := 0 }
    | some word, isBack =>
      let path := if isBack then (s.bindings.lookup "OLDPWD").getD "" else word
      let path := if path = "" then "." else path
      match s.files.isDirectory path, s.files.locate path with
      | true, .ok names =>
        let before := s.workingPath
        let s := { s with files := { s.files with working := names }, status := 0 }
        let s := (s.bind "OLDPWD" before).bind "PWD" s.workingPath
        let s := { s with exported := "OLDPWD" :: "PWD" :: s.exported }
        if isBack then s.say (s.workingPath ++ "\n") else s
      | _, _ => s.refuse s!"can't cd to {path}"

/-- Writes the working directory. -/
def pwd : BuiltIn := fun s args =>
  match splitOptions "LP" args with
  | .error text => s.refuse text
  | .ok _ => s.say (s.workingPath ++ "\n")

/-- Whether a word stands for the command that was last not waited for. -/
def isJob (s : Shell) (word : String) : Bool :=
  s.job.isSome && [jobNumber, "%1", "%+", "%%", "%"].contains word

/-- Waits for the commands that were not waited for.  Of one that a signal ends meanwhile something
may be said. -/
def wait : BuiltIn := fun s args =>
  let later := { s with
    elapsed := Nat.max s.elapsed s.lasting
    isJobKnown := true
    status := 0 }
  match splitOptions "" args with
  | .error text => s.refuse text
  | .ok (_, words) =>
    match words.getLast? with
    | none => later
    | some word =>
      if s.isJob word then
        let status := s.job.getD (.exited 0)
        if s.isJobRunning then later.note status else { later with status := status.code }
      else if word.startsWith "%" then s.refuse s!"No such job: {word}"
      else if (natural? word).isSome then { s with status := 127 }
      else s.refuse s!"Illegal number: {word}"

/-- Says what has become of the command that was last not waited for. -/
def jobs : BuiltIn := fun s args =>
  let line (state : String) : String :=
    "[1] + " ++ state ++ "".pushn ' ' (27 - state.length) ++ "\n"
  match splitOptions "lp" args, s.job with
  | .error text, _ => s.refuse text
  | .ok (_, word :: _), job =>
    if job.isSome ∧ s.isJob word then { s with status := 0 }
    else s.refuse s!"No such job: {word}"
  | .ok (_, []), none => { s with status := 0 }
  | .ok (_, []), some status =>
    if s.elapsed < s.lasting then s.say (line "Running")
    else
      let state := match status with
        | .exited 0 => "Done"
        | .exited code => s!"Done({code})"
        | .killed signal => (obituary signal).getD "Done"
      { s.say (line state) with job := none }

/-- Goes on with a command that has been stopped; there is none. -/
def resume : BuiltIn := fun s args =>
  match splitOptions "" args with
  | .error text => s.refuse text
  | .ok (_, words) =>
    match words.head?, s.job with
    | some word, none => s.refuse s!"No such job: {word}"
    | none, none => s.refuse "No current job"
    | _, some _ => s.refuse "job (null) not created under job control"

/-- Writes how long the interpreter and its programs have been at work. -/
def times : BuiltIn := fun s _ =>
  s.say "0m0.000000s 0m0.000000s\n0m0.000000s 0m0.000000s\n"

/-- The built-in command of a name. -/
def builtIn? (limit : Nat) (name : String) : Option BuiltIn :=
  [(":", finish 0), ("true", finish 0), ("false", finish 1),
    ("echo", ofProgram Program.plainEcho), ("printf", printf),
    ("test", ofProgram (Program.checking "test")), ("[", ofProgram (Program.checking "[")),
    ("exit", exit), ("return", leaveFunction), ("break", leaveLoops false),
    ("continue", leaveLoops true), ("shift", shift), ("cd", cd), ("chdir", cd), ("pwd", pwd),
    ("set", set), ("export", exportNames), ("readonly", freeze), ("local", localNames),
    ("unset", unset), ("read", read), ("getopts", findOption), ("alias", aliasNames),
    ("unalias", unalias), ("umask", umask), ("ulimit", ulimit), ("wait", wait), ("jobs", jobs),
    ("fg", resume), ("bg", resume), ("times", times), ("kill", kill limit),
    ("trap", trap)].lookup name

/-- Whether a fault of a built-in command, or of its streams, ends the interpreter. -/
def isSpecial (name : String) : Bool :=
  Script.specialNames.contains name || name == "local"

/-- Runs a built-in command, which complains under its own name, also when what it has written had
no place to go to. -/
def runBuiltIn (b : BuiltIn) (name : String) (s : Shell) (args : List String) : Shell :=
  let t := b { s with speaker := some name, hasLost := false } args
  let t := if t.hasLost then t.refuse s!"{name}: I/O error" (t.status ||| 1) else t
  { t with speaker := s.speaker }

end MediaPhases.Shell
