import MediaPhases.Number.Binary

/-!
# Document values

Policies, snapshots and results come as documents of nested values.  A document keeps its
entries in the order in which they were written, repeated keys included, so that a reader can
name the first fault.  Free-form values are stored in canonical form: the keys of every table
sorted, the last of several entries with one key kept, numbers that are not finite replaced by
null, and forms that only one document format has replaced by the plain values they stand for.
-/

namespace MediaPhases

/-- A form of its own that a document format has for some values. -/
inductive SpecialForm where
  /-- A date or time. -/
  | moment
  /-- A list of tables that stand under headers. -/
  | headedTables
deriving DecidableEq, Repr

/-- A value of a document. -/
inductive Value where
  | null
  | bool (b : Bool)
  | int (n : Int)
  | float (x : Double)
  | text (s : String)
  | list (items : List Value)
  | table (entries : List (String × Value))
  /-- Something of the right shape that states no value, such as a number beyond the largest
  finite one. -/
  | unreadable
  /-- A value in a form of its own, with the plain value that it stands for. -/
  | special (form : SpecialForm) (v : Value)

namespace Value

/-- The value without regard to a form of its own. -/
def plain : Value → Value
  | .special _ v => v
  | v => v

mutual

/-- Whether every part of the value states something. -/
def isReadable : Value → Bool
  | .unreadable => false
  | .list items => areReadable items
  | .table entries => haveReadable entries
  | .special _ v => isReadable v
  | _ => true

/-- Whether every item of a list is readable. -/
def areReadable : List Value → Bool
  | [] => true
  | v :: rest => isReadable v && areReadable rest

/-- Whether every entry of a table is readable. -/
def haveReadable : List (String × Value) → Bool
  | [] => true
  | (_, v) :: rest => isReadable v && haveReadable rest

end

/-- Puts a value under a key into entries sorted by key, in place of one that is there. -/
def insertEntry (key : String) (value : Value) : List (String × Value) → List (String × Value)
  | [] => [(key, value)]
  | (k, v) :: rest =>
    if key < k then (key, value) :: (k, v) :: rest
    else if key = k then (key, value) :: rest
    else (k, v) :: insertEntry key value rest

mutual

/-- The canonical form: sorted keys, the last of repeated entries, finite numbers, plain values. -/
def canonical : Value → Value
  | .list items => .list (canonicalItems items)
  | .table entries => .table (canonicalEntries entries [])
  | .float .notANumber => .null
  | .float (.infinite _) => .null
  | .special _ v => canonical v
  | v => v

/-- The canonical forms of the items of a list. -/
def canonicalItems : List Value → List Value
  | [] => []
  | v :: rest => canonical v :: canonicalItems rest

/-- The sorted entries with the canonical forms of further entries put into them in order. -/
def canonicalEntries : List (String × Value) → List (String × Value) → List (String × Value)
  | [], sorted => sorted
  | (k, v) :: rest, sorted => canonicalEntries rest (insertEntry k (canonical v) sorted)

end

mutual

/-- Equality of values, where numbers are compared as numbers and entries in order. -/
def same : Value → Value → Bool
  | .null, .null => true
  | .bool a, .bool b => a == b
  | .int a, .int b => a == b
  | .float a, .float b => a.sameNumber b
  | .text a, .text b => a == b
  | .list a, .list b => sameItems a b
  | .table a, .table b => sameEntries a b
  | .special f a, .special g b => f == g && same a b
  | _, _ => false

/-- Equality of the items of two lists. -/
def sameItems : List Value → List Value → Bool
  | [], [] => true
  | a :: as, b :: bs => same a b && sameItems as bs
  | _, _ => false

/-- Equality of the entries of two tables. -/
def sameEntries : List (String × Value) → List (String × Value) → Bool
  | [], [] => true
  | (k, a) :: as, (l, b) :: bs => k == l && same a b && sameEntries as bs
  | _, _ => false

end

end Value

/-- The entry of a field that is left out when it has no content. -/
def optionalEntry {α : Type} (key : String) (write : α → Value) : Option α → List (String × Value)
  | none => []
  | some a => [(key, write a)]

end MediaPhases
