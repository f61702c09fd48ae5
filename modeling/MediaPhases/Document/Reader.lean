import MediaPhases.Document.Fault
import MediaPhases.Document.Value

/-!
# Readers

A reader turns a document value into a value of the domain or names the fault.  Records are
described by a schema and read field by field in the order of the document, so that the first
fault in the document is the one reported; missing fields are reported at the end.  A record may
also be written as a list of its fields in order.  The few points in which document formats
differ are the fields of a `Dialect`.
-/

namespace MediaPhases

/-- A choice as it was written: its name, its content, and the fault that remains once the
content has been read. -/
structure Choice where
  name : String
  content : Option Value
  leftover : Option Fault

/-- What differs between document formats. -/
structure Dialect where
  /-- How a choice is written. -/
  choice : Value → Except Fault Choice
  /-- The content of a choice that has none. -/
  noContent : Value → Except Fault Unit
  /-- The fault of a record written as a list with too many elements, of which the given number
  were read out of the given total. -/
  surplus : Nat → Nat → Option Fault

/-- Reads a value of a document. -/
abbrev Reader (α : Type) := Dialect → Value → Except Fault α

/-- What a value looks like in a message. -/
def Value.shape : Value → Shape
  | .null => .null
  | .bool b => .boolean b
  | .int n => .integer n
  | .float x => .float x
  | .text s => .text s
  | .list _ => .sequence
  | .table _ => .table
  | .unreadable => .null
  | .special _ v => v.shape

/-- The fault of a value that stands where something else was wanted. -/
def Value.mismatch (v : Value) (want : String) : Fault :=
  match v with
  | .unreadable => .malformed
  | v => .wrongType v.shape want

namespace Reader

/-- Reads a text, which messages call `want`. -/
def textAs (want : String) : Reader String := fun _ v =>
  match v with
  | .text s => .ok s
  | v => .error (v.mismatch want)

/-- Reads a text. -/
def text : Reader String :=
  textAs "a string"

/-- Reads a file path. -/
def path : Reader String :=
  textAs "path string"

/-- Reads a truth value. -/
def bool : Reader Bool := fun _ v =>
  match v with
  | .bool b => .ok b
  | v => .error (v.mismatch "a boolean")

/-- Reads a natural number below a limit, which messages call `want`. -/
def natBelow (limit : Nat) (want : String) : Reader Nat := fun _ v =>
  match v with
  | .int n =>
    if 0 ≤ n ∧ n < limit then .ok n.toNat else .error (.outOfRange (.integer n) want)
  | v => .error (v.mismatch want)

/-- Reads a number of 32 bits. -/
def nat32 : Reader Nat :=
  natBelow UInt32.size "u32"

/-- Reads a number of 64 bits. -/
def nat64 : Reader Nat :=
  natBelow UInt64.size "u64"

/-- Reads a count. -/
def count : Reader Nat :=
  natBelow UInt64.size "usize"

/-- Reads a double-precision number; integers are rounded to one. -/
def double : Reader Double := fun _ v =>
  match v with
  | .int n => .ok (Double.ofInt n)
  | .float x => .ok x
  | v => .error (v.mismatch "f64")

/-- Reads null as nothing and everything else with the given reader. -/
def optional {α : Type} (r : Reader α) : Reader (Option α) := fun d v =>
  match v with
  | .null => .ok none
  | v => (r d v).map some

/-- Reads the items of a list in order. -/
def items {α : Type} (r : Reader α) (d : Dialect) : List Value → Except Fault (List α)
  | [] => .ok []
  | v :: rest => do
    let a ← r d v
    let as ← items r d rest
    return a :: as

/-- Reads a list. -/
def listOf {α : Type} (r : Reader α) : Reader (List α) := fun d v =>
  match v.plain with
  | .list vs => items r d vs
  | v => .error (v.mismatch "a sequence")

/-- Reads with a check that may refuse what was read. -/
def checked {α β : Type} (r : Reader α) (check : α → Except Fault β) : Reader β := fun d v => do
  check (← r d v)

/-- Reads the choice with the content that the choice's name asks for. -/
def choiceOf {α : Type} (names : List String)
    (content : String → Option (Dialect → Option Value → Except Fault α)) : Reader α :=
  fun d v => do
    let c ← d.choice v
    match content c.name with
    | none => .error (.unknownVariant c.name names)
    | some read =>
      let a ← read d c.content
      match c.leftover with
      | none => return a
      | some fault => .error fault

/-- Reads one of several named values, none of which has content. -/
def oneOf {α : Type} (names : List (String × α)) : Reader α :=
  choiceOf (names.map (·.1)) fun name =>
    (names.lookup name).map fun a d content =>
      match content with
      | none => .ok a
      | some v => (d.noContent v).map fun _ => a

/-- The content of a choice that needs some. -/
def withContent {α : Type} (r : Reader α) : Dialect → Option Value → Except Fault α :=
  fun d content =>
    match content with
    | some v => r d v
    | none => .error (.wrongType .bareChoice "newtype variant")

end Reader

/-- What happens when a field is not there. -/
inductive Presence where
  /-- The record is refused. -/
  | required
  /-- The field keeps its default in a table, but a list of fields must not end before it. -/
  | inTables
  /-- The field keeps its default. -/
  | defaulted
deriving DecidableEq, Repr

/-- A field of a record: its name, whether it must be there, and how its value is put into the
record read so far. -/
structure Field (α : Type) where
  name : String
  presence : Presence
  store : Dialect → Value → α → Except Fault α

/-- A field that is read on its own and then put into the record. -/
def Field.of {α β : Type} (name : String) (presence : Presence) (r : Reader β)
    (put : β → α → α) : Field α where
  name := name
  presence := presence
  store := fun d v a => (r d v).map fun b => put b a

/-- The description of a record: what messages call it, its fields in order, whether other keys
are refused, and the record before anything is read. -/
structure Schema (α : Type) where
  name : String
  fields : List (Field α)
  isClosed : Bool
  blank : α

namespace Schema

variable {α : Type}

/-- The names of the fields in order. -/
def names (s : Schema α) : List String :=
  s.fields.map (·.name)

/-- The field of a name. -/
def field? (s : Schema α) (name : String) : Option (Field α) :=
  s.fields.find? (·.name == name)

/-- The first required field that has not been seen. -/
def missing? (s : Schema α) (seen : List String) : Option (Field α) :=
  s.fields.find? fun f => f.presence == .required && !seen.contains f.name

/-- Reads the entries of a table into a record, where the names in `seen` have been read. -/
def readEntries (s : Schema α) (d : Dialect) :
    List (String × Value) → List String → α → Except Fault α
  | [], seen, a =>
    match s.missing? seen with
    | some f => .error (.missingField f.name)
    | none => .ok a
  | (key, v) :: rest, seen, a =>
    match s.field? key with
    | none =>
      if s.isClosed then .error (.unknownField key s.names) else s.readEntries d rest seen a
    | some f =>
      if seen.contains key then .error (.duplicateField key)
      else
        match f.store d v a with
        | .error fault => .error fault
        | .ok a => s.readEntries d rest (key :: seen) a

/-- What a message calls a record that is written as a list. -/
def listForm (s : Schema α) : String :=
  let n := s.fields.length
  s!"{s.name} with {n} " ++ (if n = 1 then "element" else "elements")

/-- Reads the elements of a list into the remaining fields, `read` of which are done. -/
def readItems (s : Schema α) (d : Dialect) :
    List (Field α) → Nat → List Value → α → Except Fault α
  | [], _, [], a => .ok a
  | [], read, v :: vs, a =>
    match d.surplus read (read + (v :: vs).length) with
    | some fault => .error fault
    | none => .ok a
  | f :: fs, read, [], a =>
    if f.presence = .defaulted then s.readItems d fs (read + 1) [] a
    else .error (.wrongLength read s.listForm)
  | f :: fs, read, v :: vs, a =>
    match f.store d v a with
    | .error fault => .error fault
    | .ok a => s.readItems d fs (read + 1) vs a

/-- Reads a record. -/
def read (s : Schema α) : Reader α := fun d v =>
  match v.plain with
  | .table entries => s.readEntries d entries [] s.blank
  | .list vs => s.readItems d s.fields 0 vs s.blank
  | v => .error (v.mismatch s.name)

end Schema

end MediaPhases
