import MediaPhases.Document.Value
import MediaPhases.Number.Notation

/-!
# Writing JSON text

A value is written either without any blank or indented by two spaces a level.  Texts escape
only quotes, backslashes and control characters; empty lists and tables are written closed.
-/

namespace MediaPhases.Json

/-- Two lower-case hexadecimal digits. -/
def hexByte (n : Nat) : List Char :=
  [Nat.digitChar (n / 16 % 16), Nat.digitChar (n % 16)]

/-- One character of a text as it is written. -/
def escapeChar (c : Char) : List Char :=
  if c = '"' then ['\\', '"']
  else if c = '\\' then ['\\', '\\']
  else if c = '\x08' then ['\\', 'b']
  else if c = '\x0c' then ['\\', 'f']
  else if c = '\n' then ['\\', 'n']
  else if c = '\r' then ['\\', 'r']
  else if c = '\t' then ['\\', 't']
  else if c.toNat < 0x20 then ['\\', 'u', '0', '0'] ++ hexByte c.toNat
  else [c]

/-- A text between quotes. -/
def quoteText (s : String) : List Char :=
  '"' :: (s.toList.flatMap escapeChar ++ ['"'])

/-- A value that is neither a list nor a table. -/
def scalarChars : Value → List Char
  | .bool true => "true".toList
  | .bool false => "false".toList
  | .int n => (toString n).toList
  | .float x => (NumberNotation.document.text x).toList
  | .text s => quoteText s
  | _ => "null".toList

/-- How lists and tables are laid out: what stands before the items of a level, and after a
key. -/
structure Layout where
  newLine : Nat → List Char
  afterKey : List Char

/-- No blanks at all. -/
def Layout.compact : Layout := ⟨fun _ => [], [':']⟩

/-- Every item on a line of its own, indented by two spaces a level. -/
def Layout.pretty : Layout :=
  ⟨fun level => '\n' :: List.replicate (2 * level) ' ', [':', ' ']⟩

mutual

/-- The characters of a value within `level` lists and tables. -/
def valueChars (l : Layout) (level : Nat) : Value → List Char
  | .list [] => ['[', ']']
  | .list (v :: rest) =>
    '[' :: (l.newLine (level + 1) ++ valueChars l (level + 1) v ++ itemChars l level rest)
  | .table [] => ['\x7b', '\x7d']
  | .table ((k, v) :: rest) =>
    '\x7b' :: (l.newLine (level + 1) ++ quoteText k ++ l.afterKey ++
      valueChars l (level + 1) v ++ entryChars l level rest)
  | .special _ v => valueChars l level v
  | v => scalarChars v

/-- The further items of a list and its closing bracket. -/
def itemChars (l : Layout) (level : Nat) : List Value → List Char
  | [] => l.newLine level ++ [']']
  | v :: rest =>
    ',' :: (l.newLine (level + 1) ++ valueChars l (level + 1) v ++ itemChars l level rest)

/-- The further entries of a table and its closing brace. -/
def entryChars (l : Layout) (level : Nat) : List (String × Value) → List Char
  | [] => l.newLine level ++ ['\x7d']
  | (k, v) :: rest =>
    ',' :: (l.newLine (level + 1) ++ quoteText k ++ l.afterKey ++ valueChars l (level + 1) v ++
      entryChars l level rest)

end

/-- A value without blanks. -/
def compact (v : Value) : String :=
  String.ofList (valueChars .compact 0 v)

/-- A value on indented lines. -/
def pretty (v : Value) : String :=
  String.ofList (valueChars .pretty 0 v)

end MediaPhases.Json
