import MediaPhases.Engine.BuiltIn
import MediaPhases.Number.Decimal

/-!
# Command line arguments

A command line asks for one of three jobs.  Options may stand before and after the operands; two
of them may also stand before the name of the job.  Values follow their option or stand in the
same word; `--` ends the options.  The first word that cannot be used, or that asks for help or
for the version, decides.
-/

namespace MediaPhases.CommandLine

/-- An option. -/
inductive Flag where
  | config
  | verbose
  | json
  | phases
  | dryRun
  | workers
  | executor
  | help
  | version
deriving DecidableEq, Repr

namespace Flag

/-- The long name of an option. -/
def long : Flag → String
  | .config => "config"
  | .verbose => "verbose"
  | .json => "json"
  | .phases => "phases"
  | .dryRun => "dry-run"
  | .workers => "workers"
  | .executor => "executor"
  | .help => "help"
  | .version => "version"

/-- The letter of an option. -/
def short? : Flag → Option Char
  | .config => some 'c'
  | .verbose => some 'v'
  | .workers => some 'w'
  | .help => some 'h'
  | .version => some 'V'
  | _ => none

/-- Whether an option has a value. -/
def takesValue : Flag → Bool
  | .config | .phases | .workers | .executor => true
  | _ => false

/-- Whether an option may be given more than once. -/
def isRepeatable (s : Flag) : Bool :=
  s == .phases

end Flag

/-- The number of workers that a word states. -/
def workers? (word : String) : Option Nat :=
  let digits := match word.toList with
    | '+' :: rest => rest
    | cs => cs
  (natOfDigits? digits).filter (· < UInt64.size)

/-- Whether a word can be the value of an option. -/
def Flag.accepts (s : Flag) (word : String) : Bool :=
  match s with
  | .config => word != ""
  | .workers => (workers? word).isSome
  | .executor => (ExecutorKind.parse word).toOption.isSome
  | _ => true

/-- What a command line asks for instead of a job. -/
inductive Stop where
  /-- The command line cannot be used. -/
  | usage
  | help
  | version
deriving DecidableEq, Repr

/-- The words read so far. -/
structure Given where
  /-- The options with their values, in order. -/
  flags : List (Flag × String) := []
  operands : List String := []
deriving DecidableEq, Repr

namespace Given

/-- Takes up an option. -/
def take (g : Given) (s : Flag) (value : String) : Except Stop Given :=
  match s with
  | .help => .error .help
  | .version => .error .version
  | _ =>
    if !s.isRepeatable ∧ (g.flags.lookup s).isSome then .error .usage
    else if s.accepts value then .ok { g with flags := g.flags ++ [(s, value)] }
    else .error .usage

/-- Takes up an operand; all operands are paths. -/
def takeOperand (g : Given) (word : String) : Except Stop Given :=
  if word = "" then .error .usage else .ok { g with operands := g.operands ++ [word] }

/-- The value of an option that has been given. -/
def value? (g : Given) (s : Flag) : Option String :=
  g.flags.lookup s

/-- Whether an option has been given. -/
def has (g : Given) (s : Flag) : Bool :=
  (g.value? s).isSome

/-- The values of an option, in order. -/
def values (g : Given) (s : Flag) : List String :=
  (g.flags.filter (·.1 == s)).map (·.2)

end Given

/-- Whether a word is an option rather than an operand or a value. -/
def isOption (word : String) : Bool :=
  match word.toList with
  | '-' :: _ :: _ => true
  | _ => false

/-- Takes up an option whose value is attached to it or is the next word; says how many words it
has used after its own. -/
def takeWith (g : Given) (s : Flag) (attached : Option String) (rest : List String) :
    Except Stop (Given × Nat) :=
  match attached with
  | some value => (g.take s value).map (·, 0)
  | none =>
    match rest with
    | value :: _ => if isOption value then .error .usage else (g.take s value).map (·, 1)
    | [] => .error .usage

/-- Takes up the letters of a word of short options. -/
def takeShort (allowed : List Flag) (g : Given) (rest : List String) :
    List Char → Except Stop (Given × Nat)
  | [] => .ok (g, 0)
  | c :: cs =>
    match allowed.find? (·.short? == some c) with
    | none => .error .usage
    | some s =>
      if s.takesValue then
        let attached := match cs with
          | [] => none
          | '=' :: value => some (String.ofList value)
          | value => some (String.ofList value)
        takeWith g s attached rest
      else
        match g.take s "" with
        | .error stop => .error stop
        | .ok g => takeShort allowed g rest cs

/-- Takes up the option that a word is. -/
def takeOption (allowed : List Flag) (g : Given) (word : String) (rest : List String) :
    Except Stop (Given × Nat) :=
  match word.toList with
  | '-' :: '-' :: cs =>
    let name := cs.takeWhile (· ≠ '=')
    match allowed.find? (·.long == String.ofList name) with
    | none => .error .usage
    | some s =>
      let attached := match cs.drop name.length with
        | _ :: value => some (String.ofList value)
        | [] => none
      if s.takesValue then takeWith g s attached rest
      else if attached.isSome then .error .usage
      else (g.take s "").map (·, 0)
  | _ :: cs => takeShort allowed g rest cs
  | [] => .error .usage

/-- A job by name. -/
inductive Verb where
  | validate
  | phases
  | run
deriving DecidableEq, Repr

namespace Verb

/-- The jobs by name. -/
def names : List (String × Verb) :=
  [("validate", .validate), ("phases", .phases), ("run", .run)]

/-- The options of a job. -/
def flags : Verb → List Flag
  | .validate => [.config, .verbose, .help]
  | .phases => [.json, .config, .verbose, .help]
  | .run => [.phases, .json, .dryRun, .workers, .executor, .config, .verbose, .help]

/-- Whether a job takes one more operand than it has. -/
def takesMore (v : Verb) (count : Nat) : Bool :=
  v == .run || count == 0

/-- Whether a job has enough operands. -/
def isSatisfied (v : Verb) (count : Nat) : Bool :=
  match v with
  | .run => 2 ≤ count
  | _ => 1 ≤ count

end Verb

/-- Reads the words after the name of a job; after `--` all of them are operands. -/
def scanVerb (v : Verb) (isClosed : Bool) (g : Given) (words : List String) : Except Stop Given :=
  match words with
  | [] => .ok g
  | word :: rest =>
    if !isClosed ∧ word = "--" then scanVerb v true g rest
    else if !isClosed ∧ isOption word then
      match takeOption v.flags g word rest with
      | .error stop => .error stop
      | .ok (g, used) => scanVerb v isClosed g (rest.drop used)
    else if v.takesMore g.operands.length then
      match g.takeOperand word with
      | .error stop => .error stop
      | .ok g => scanVerb v isClosed g rest
    else .error .usage
termination_by words.length
decreasing_by all_goals simp only [List.length_drop, List.length_cons]; omega

/-- The options that may stand before the name of a job. -/
def generalFlags : List Flag :=
  [.config, .verbose, .help, .version]

/-- Reads the words before the name of a job; gives the job and the words after its name. -/
def scanGeneral (g : Given) (words : List String) : Except Stop (Given × Verb × List String) :=
  match words with
  | [] => .error .usage
  | word :: rest =>
    if word = "--" then .error .usage
    else if isOption word then
      match takeOption generalFlags g word rest with
      | .error stop => .error stop
      | .ok (g, used) => scanGeneral g (rest.drop used)
    else
      match Verb.names.lookup word with
      | some v => .ok (g, v, rest)
      | none =>
        if word = "help" ∧ rest.all (fun w => (Verb.names.lookup w).isSome || w == "help") ∧
            rest.length ≤ 1 then .error .help
        else .error .usage
termination_by words.length
decreasing_by simp only [List.length_drop, List.length_cons]; omega

/-- What a run is asked to do. -/
structure RunOptions where
  files : List String
  /-- The names of the selected phases. -/
  phases : Option (List String) := none
  json : Bool := false
  dryRun : Bool := false
  workers : Option Nat := none
  executor : Option ExecutorKind := none
deriving DecidableEq, Repr

/-- A job. -/
inductive Job where
  | validate
  | phases (json : Bool)
  | run (options : RunOptions)
deriving DecidableEq, Repr

/-- A request: a job for a policy under some settings. -/
structure Request where
  config : Option String := none
  policy : String
  job : Job
deriving DecidableEq, Repr

/-- The job that words ask for, the first operand aside. -/
def jobOf (v : Verb) (g : Given) : Job :=
  match v with
  | .validate => .validate
  | .phases => .phases (g.has .json)
  | .run => .run {
      files := g.operands.tail
      phases := if g.has .phases then
          some ((g.values .phases).flatMap fun value =>
            (value.toList.splitOn ',').map String.ofList)
        else none
      json := g.has .json
      dryRun := g.has .dryRun
      workers := (g.value? .workers).bind workers?
      executor := (g.value? .executor).bind fun word => (ExecutorKind.parse word).toOption }

/-- The request of a command line.  Of two settings files the one after the name of the job
counts. -/
def parse (words : List String) : Except Stop Request :=
  match scanGeneral {} words with
  | .error stop => .error stop
  | .ok (general, v, rest) =>
    match scanVerb v false {} rest with
    | .error stop => .error stop
    | .ok g =>
      match g.operands with
      | policy :: _ =>
        if v.isSatisfied g.operands.length then
          .ok ⟨(g.value? .config).or (general.value? .config), policy, jobOf v g⟩
        else .error .usage
      | [] => .error .usage

end MediaPhases.CommandLine
