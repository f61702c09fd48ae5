import MediaPhases.Policy.Defect
import MediaPhases.Policy.Phase
import MediaPhases.Text.Lowercase

/-!
# Policies

A policy is an ordered list of phases and an error mode for the phases that have none of their
own.  The rules that concern the document alone are checked here: there is a phase, every name is
well formed, not reserved and not used before, and no skip condition is empty.  The first defect
in declared order is reported; names come before skip conditions.
-/

namespace MediaPhases

/-- A policy as it was written. -/
structure Policy where
  schemaVersion : Option Nat := none
  /-- The error mode of phases that have none of their own. -/
  onError : Option ErrorMode := none
  phases : List Phase

namespace Policy

/-- The longest name of a phase. -/
def maxNameLength : Nat := 64

/-- The keys of policy documents, after which no phase may be named. -/
def reservedNames : List String :=
  ["config", "schema_version", "phases"]

/-- A character that may stand in the name of a phase after the first. -/
def isNameChar (c : Char) : Bool :=
  c.isAlphanum || c == '-' || c == '_'

/-- Whether a name starts with a letter and goes on with letters, digits, `-` and `_`, all of
them ASCII, and is not too long. -/
def isPhaseName (name : String) : Bool :=
  match name.toList with
  | [] => false
  | c :: rest => c.isAlpha && rest.all isNameChar && rest.length < maxNameLength

/-- Checks the name of one phase. -/
def checkName (name : String) : Except PolicyDefect Unit :=
  if !isPhaseName name then .error (.invalidPhaseName name)
  else if reservedNames.any (Text.eqIgnoringAsciiCase · name) then
    .error (.reservedPhaseName name)
  else .ok ()

/-- The first of some names that is the given one, letter case aside. -/
def namesake? (seen : List String) (name : String) : Option String :=
  seen.find? fun s => Text.lowercase s == Text.lowercase name

/-- Checks names in declared order, each one against the rules and against the names before
it. -/
def checkNames (seen : List String) : List String → Except PolicyDefect Unit
  | [] => .ok ()
  | name :: rest =>
    match checkName name with
    | .error defect => .error defect
    | .ok () =>
      match namesake? seen name with
      | some existing => .error (.duplicatePhase name existing)
      | none => checkNames (seen ++ [name]) rest

/-- Checks that every skip condition names a predicate. -/
def checkSkipConditions (phases : List Phase) : Except PolicyDefect Unit :=
  match phases.find? fun p => p.skipWhen.any (·.isEmpty) with
  | some p => .error (.emptySkipCondition p.name)
  | none => .ok ()

/-- The names of the phases in declared order. -/
def phaseNames (p : Policy) : List String :=
  p.phases.map (·.name)

/-- Checks the rules that concern the document alone. -/
def validate (p : Policy) : Except PolicyDefect Unit :=
  if p.phases.isEmpty then .error .emptyPolicy
  else
    match checkNames [] p.phaseNames with
    | .error defect => .error defect
    | .ok () => checkSkipConditions p.phases

/-- Equality of policies, where numbers in payloads are compared as numbers. -/
def same (p q : Policy) : Bool :=
  p.schemaVersion == q.schemaVersion && p.onError == q.onError &&
    p.phases.length == q.phases.length &&
    (p.phases.zip q.phases).all fun (a, b) => a.same b

/-- The fields of the settings of a policy, which hold its error mode. -/
def settings : Schema (Option ErrorMode) where
  name := "struct PolicyConfig"
  fields := [.of "on_error" .defaulted (.optional ErrorMode.reader) fun m _ => m]
  isClosed := true
  blank := none

/-- The fields of a policy. -/
def schema : Schema Policy where
  name := "struct Policy"
  fields := [
    .of "schema_version" .defaulted (.optional .nat32) fun n p => { p with schemaVersion := n },
    .of "config" .defaulted settings.read fun m p => { p with onError := m },
    .of "phases" .required (.listOf Phase.reader) fun ps p => { p with phases := ps }]
  isClosed := true
  blank := { phases := [] }

/-- Reads a policy. -/
def reader : Reader Policy :=
  schema.read

/-- Writes a policy. -/
def encode (p : Policy) : Value :=
  .table <|
    optionalEntry "schema_version" (fun (n : Nat) => .int n) p.schemaVersion ++
    [("config", .table (optionalEntry "on_error" ErrorMode.encode p.onError)),
      ("phases", .list (p.phases.map Phase.encode))]

end Policy

end MediaPhases
