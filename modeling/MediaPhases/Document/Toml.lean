import MediaPhases.Document.Reader
import MediaPhases.Document.Toml.Scan

/-!
# TOML documents

How TOML writes choices and ends records.
-/

namespace MediaPhases.Toml

/-- What messages call a value that stands for no table. -/
def typeName : Value → String
  | .bool _ => "boolean"
  | .int _ => "integer"
  | .float _ => "float"
  | .text _ => "string"
  | .list _ => "array"
  | .special .moment _ => "datetime"
  | _ => "none"

/-- A choice is a name, or a table of one entry whose key is the name. -/
def choice : Value → Except Fault Choice
  | .text s => .ok ⟨s, none, none⟩
  | .table [(k, v)] => .ok ⟨k, some v, none⟩
  | .table [] => .error (.stated "wanted exactly 1 element, found 0 elements")
  | .table _ => .error (.stated "wanted exactly 1 element, more than 1 element")
  | _ => .error (.stated "wanted string or table")

/-- A choice without content may have something empty in its place. -/
def noContent : Value → Except Fault Unit
  | .table [] | .list [] => .ok ()
  | .table _ | .list _ => .error (.stated "expected empty table")
  | .special .headedTables _ => .error (.stated "expected empty array")
  | v => .error (.stated ("expected table, found " ++ typeName v))

/-- TOML text. -/
def dialect : Dialect where
  choice := choice
  noContent := noContent
  surplus := fun _ _ => none

/-- Whether a text is a date or time and nothing else. -/
def isMoment (s : String) : Bool :=
  match scanDateTime s.toList with
  | some (_, []) => true
  | _ => false

mutual

/-- Whether no table that starts like a date or time is anything else.  What follows such a start
does not count. -/
def isGenuine : Value → Bool
  | .list items => areGenuine items
  | .table [] => true
  | .table ((key, v) :: rest) =>
    if key = dateKey then
      match v with
      | .text s => isMoment s
      | _ => false
    else isGenuine v && haveGenuine rest
  | .special _ v => isGenuine v
  | _ => true

/-- Whether every item of a list is genuine. -/
def areGenuine : List Value → Bool
  | [] => true
  | v :: rest => isGenuine v && areGenuine rest

/-- Whether the value of every entry of a table is genuine. -/
def haveGenuine : List (String × Value) → Bool
  | [] => true
  | (_, v) :: rest => isGenuine v && haveGenuine rest

end

/-- Decodes a document.  When one of its tables passes for a date or time and is none, every fault
counts as a malformed text. -/
def decode {α : Type} (r : Reader α) (s : String) : Except Fault α :=
  match read s with
  | none => .error .malformed
  | some entries =>
    match r dialect (.table entries) with
    | .ok a => .ok a
    | .error fault => .error (if haveGenuine entries then fault else .malformed)

end MediaPhases.Toml
