import MediaPhases.Document.Value

/-!
# TOML trees

The tables of a TOML document while it is being read.  A table comes to be by a header of its
own, because a longer header goes through it, or because a dotted key does; from this it follows
what later lines may still add to it.  A value, an inline table included, is closed.
-/

namespace MediaPhases.Toml

/-- How a table came to be. -/
inductive TableOrigin where
  | header
  /-- A longer header goes through the table. -/
  | implied
  /-- A dotted key goes through the table. -/
  | dotted
deriving DecidableEq, Repr

/-- What stands under a key. -/
inductive Node where
  | value (v : Value)
  | table (origin : TableOrigin) (entries : List (String × Node))
  /-- An array of tables, the latest first. -/
  | tables (elements : List (List (String × Node)))

/-- The entries of a table. -/
abbrev Entries := List (String × Node)

namespace Entries

/-- The entries with the node of a key replaced. -/
def replace (entries : Entries) (key : String) (node : Node) : Entries :=
  entries.map fun e => if e.1 = key then (key, node) else e

/-- Changes the table that a header's path leads to, making the tables on the way where they are
missing.  Of an array of tables the latest is meant. -/
def within (change : Entries → Option Entries) : List String → Entries → Option Entries
  | [], entries => change entries
  | key :: path, entries =>
    match entries.lookup key with
    | none => (within change path []).map fun inner => entries ++ [(key, .table .implied inner)]
    | some (.value _) => none
    | some (.table origin inner) =>
      (within change path inner).map fun inner => entries.replace key (.table origin inner)
    | some (.tables []) => none
    | some (.tables (latest :: earlier)) =>
      (within change path latest).map fun latest =>
        entries.replace key (.tables (latest :: earlier))

/-- Opens the table of a header.  A table that was only implied moves to the end. -/
def openTable (key : String) (entries : Entries) : Option Entries :=
  match entries.lookup key with
  | none => some (entries ++ [(key, .table .header [])])
  | some (.table .implied inner) =>
    some (entries.filter (·.1 ≠ key) ++ [(key, .table .header inner)])
  | some _ => none

/-- Opens one more element of an array of tables. -/
def openElement (key : String) (entries : Entries) : Option Entries :=
  match entries.lookup key with
  | none => some (entries ++ [(key, .tables [[]])])
  | some (.tables elements) => some (entries.replace key (.tables ([] :: elements)))
  | some _ => none

/-- Adds a value under a key that is not there. -/
def add (key : String) (v : Value) (entries : Entries) : Option Entries :=
  match entries.lookup key with
  | none => some (entries ++ [(key, .value v)])
  | some _ => none

/-- Adds a value under the last part of a key to the table that the parts before it lead to.  Such
a table is made by dotted keys alone. -/
def assign (v : Value) : List String → String → Entries → Option Entries
  | [], key, entries => entries.add key v
  | part :: path, key, entries =>
    match entries.lookup part with
    | none => (assign v path key []).map fun inner => entries ++ [(part, .table .dotted inner)]
    | some (.value _) => none
    | some (.table origin inner) =>
      if origin = .header ∨ origin = .implied ∧ path = [] then none
      else (assign v path key inner).map fun inner => entries.replace part (.table origin inner)
    | some (.tables []) => none
    | some (.tables (latest :: earlier)) =>
      if path = [] then none
      else
        (assign v path key latest).map fun latest =>
          entries.replace part (.tables (latest :: earlier))

end Entries

mutual

/-- The value of a node. -/
def Node.toValue : Node → Value
  | .value v => v
  | .table _ entries => .table (entryValues entries)
  | .tables elements => .special .headedTables (.list (elementValues elements []))

/-- The values of entries. -/
def entryValues : List (String × Node) → List (String × Value)
  | [] => []
  | (key, node) :: rest => (key, node.toValue) :: entryValues rest

/-- The values of the elements of an array of tables, the latest first, in front of others. -/
def elementValues : List (List (String × Node)) → List Value → List Value
  | [], later => later
  | entries :: earlier, later => elementValues earlier (.table (entryValues entries) :: later)

end

end MediaPhases.Toml
