import MediaPhases.Programs.BuiltIn

/-!
# The search for commands

What the name of a command leads to: a word with a meaning of its own, something that is part of
the interpreter, or a program, which is looked for in the directories of a path.
-/

namespace MediaPhases.Shell

/-- What a name of a program that is not part of the interpreter leads to: a program, or the code
and the words of a complaint. -/
abbrev Lookup := FileTree → String → Except (Nat × String) Program

/-- What surrounds an interpreter. -/
structure Surroundings where
  find : Lookup
  /-- The directories that hold the programs. -/
  directories : List String
  /-- The time after which the interpreter is stopped, in milliseconds. -/
  limit : Nat

/-- The path at which the program of a name is found that is no path itself. -/
def locate? (around : Surroundings) (name : String) (s : Shell) : Option String :=
  let path := (s.bindings.lookup "PATH").getD ""
  let places := (path.toList.splitOn ':').map String.ofList
  let holds (place : String) : Bool :=
    let bare := String.ofList (place.toList.reverse.dropWhile (· = '/')).reverse
    around.directories.contains bare
  match name.contains '/', places.find? holds, around.find s.files name with
  | false, some place, .ok _ => some (place ++ "/" ++ name)
  | _, _, _ => none

/-- The program of a name, or the code and the words of a complaint. -/
def program? (around : Surroundings) (name : String) (s : Shell) :
    Except (Nat × String) Program :=
  match around.find s.files name with
  | .ok program =>
    if name.contains '/' ∨ (s.locate? around name).isSome then .ok program
    else .error (127, name ++ ": not found")
  | .error complaint => .error complaint

/-- The interpreter after it has looked for a program. -/
def track (around : Surroundings) (name : String) (s : Shell) : Shell :=
  if name.contains '/' ∨ s.tracked.contains name ∨ (s.locate? around name).isNone then s
  else { s with tracked := s.tracked ++ [name] }

/-- The name with which the words of a command start, if it stands there as it is. -/
def firstName? (words : List Script.Word) : Option String :=
  match words.dropWhile fun w => (Script.assignment? w).isSome with
  | [.text cs false] :: _ => if Script.isName cs then some (String.ofList cs) else none
  | _ => none

/-- The name of a command that is known before anything of the command is put into effect. -/
def plainName? : Script.Command → Option String
  | .simple _ words _ => firstName? words
  | .compound _ (.group [.pipeline .always false [.simple _ words _]]) [] => firstName? words
  | _ => none

/-- The names of what is part of the interpreter and may run other commands. -/
def runningNames : List String :=
  ["eval", "exec", "command", ".", "type", "hash"]

/-- Whether a name is that of a built-in command. -/
def isBuiltIn (around : Surroundings) (name : String) : Bool :=
  runningNames.contains name || (builtIn? around.limit name).isSome

/-- Whether a name can only be that of a program. -/
def isForeign (around : Surroundings) (s : Shell) (name : String) : Bool :=
  !isBuiltIn around name && (s.functions.lookup name).isNone

/-- Says what the name of a command leads to, with an explanation or in the form of a command. -/
def describe (around : Surroundings) (isExplained : Bool) (s : Shell) (name : String) : Shell :=
  let answer (short explanation : String) : Shell :=
    let text := if isExplained then name ++ explanation else short
    s.write 1 (Text.encodeUtf8 (text ++ "\n"))
  let found (path : String) : Shell :=
    let isTracked := s.tracked.contains name
    (answer path (" is " ++ (if isTracked then "a tracked alias for " else "") ++ path)).track
      around name
  if Script.keywords.contains name then answer name " is a shell keyword"
  else
    match s.aliases.find? fun a => a.1 = name with
    | some a => answer ("alias " ++ aliasText a) (" is an alias for " ++ a.2)
    | none =>
      if (s.functions.lookup name).isSome then answer name " is a shell function"
      else if isBuiltIn around name then
        answer name (if isSpecial name then " is a special shell builtin"
          else " is a shell builtin")
      else
        match s.locate? around name with
        | some path => found path
        | none =>
          if name.contains '/' ∧
              (s.files.hasPath name ∨ (around.find s.files name).toOption.isSome) then found name
          else if isExplained then
            { s.write 1 (Text.encodeUtf8 (name ++ ": not found\n")) with status := 127 }
          else { s with status := 127 }

/-- Says what the names of commands lead to. -/
def describeAll (around : Surroundings) : BuiltIn := fun s args =>
  args.foldl (describe around true) { s with status := 0 }

/-- Looks for programs before they are run, or lists those that have been found. -/
def trackAll (around : Surroundings) : BuiltIn := fun s args =>
  let step (s : Shell) (name : String) : Shell :=
    let isKnown := name.contains '/' ∨ isBuiltIn around name ∨
      (s.functions.lookup name).isSome ∨ (s.locate? around name).isSome
    if isKnown then s.track around name else s.refuse s!"{name}: not found" 1
  match splitOptions "r" args with
  | .error text => s.refuse text
  | .ok ([], []) =>
    let paths := s.tracked.filterMap fun name => s.locate? around name
    s.say (String.join (paths.map (· ++ "\n")))
  | .ok ([], names) => names.foldl step { s with status := 0 }
  | .ok _ => { s with tracked := [], status := 0 }

/-- The variables that a program gets to know: those that have been made known to programs, and
those that are given values for it alone. -/
def environment (s : Shell) (own : List String) : List (String × String) :=
  s.bindings.filter fun b => own.contains b.1 || s.exported.contains b.1

/-- What a program is given. -/
def invocation (s : Shell) (own args : List String) : Invocation where
  args := args
  input := s.unread? 0
  outlet := s.outlet 1
  files := s.files
  environment := s.environment own

/-- Runs a program that is not part of the interpreter, or complains. -/
def runProgram (around : Surroundings) (own : List String) (name : String) (args : List String)
    (s : Shell) : Shell :=
  match s.program? around name with
  | .ok program =>
    (s.track around name).absorb (program (s.invocation own args))
  | .error (code, text) => s.refuse text code

/-- Runs a program in place of the interpreter. -/
def replaceBy (around : Surroundings) (own : List String) (name : String) (args : List String)
    (s : Shell) : Shell :=
  match s.program? around name with
  | .ok program =>
    let e := program (s.invocation own args)
    { s.absorb { e with status := .exited 0 } with jump := some (.gone e.status) }
  | .error (code, text) =>
    { { s with speaker := some "exec" }.complain text with jump := some (.ended code) }

end MediaPhases.Shell
