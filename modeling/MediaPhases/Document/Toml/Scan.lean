import MediaPhases.Document.Toml.Scalar
import MediaPhases.Document.Toml.Tree

/-!
# Reading TOML text

Values, lines and documents.  A document is read line by line into a tree of tables, which then
becomes one value.
-/

namespace MediaPhases.Toml

/-- The last part of a key and the parts before it. -/
def splitLast? : List String → Option (List String × String)
  | [] => none
  | [part] => some ([], part)
  | part :: rest => (splitLast? rest).map fun (path, key) => (part :: path, key)

/-- Adds a value under a key of one or more parts. -/
def assignKey (parts : List String) (v : Value) (entries : Entries) : Option Entries :=
  (splitLast? parts).bind fun (path, key) => entries.assign v path key

mutual

/-- Reads a value.  The first number bounds the calls by the length of the text, the second is the
nesting that is left. -/
def scanValue : Nat → Nat → List Char → Option (Value × List Char)
  | 0, _, _ => none
  | fuel + 1, nesting, cs =>
    match scanString? cs with
    | some read => read.map fun (s, rest) => (.text s, rest)
    | none =>
      match cs with
      | '[' :: rest =>
        match nesting with
        | 0 => none
        | nesting + 1 =>
          (scanItems fuel nesting rest).map fun (items, rest) => (.list items, rest)
      | '{' :: rest =>
        match nesting with
        | 0 => none
        | nesting + 1 =>
          match skipBlanks rest with
          | '}' :: rest => some (.table [], rest)
          | rest =>
            (scanInline fuel nesting rest []).map fun (entries, rest) =>
              (.table (entryValues entries), rest)
      | cs => scanScalar cs

/-- Reads the items of an array up to its closing bracket; a comma may follow the last item. -/
def scanItems : Nat → Nat → List Char → Option (List Value × List Char)
  | 0, _, _ => none
  | fuel + 1, nesting, cs =>
    match skipTrivia false cs with
    | ']' :: rest => some ([], rest)
    | cs =>
      match scanValue fuel nesting cs with
      | none => none
      | some (v, rest) =>
        match skipTrivia false rest with
        | ']' :: rest => some ([v], rest)
        | ',' :: rest =>
          (scanItems fuel nesting rest).map fun (vs, rest) => (v :: vs, rest)
        | _ => none

/-- Reads the entries of an inline table up to its closing brace. -/
def scanInline : Nat → Nat → List Char → Entries → Option (Entries × List Char)
  | 0, _, _, _ => none
  | fuel + 1, nesting, cs, entries =>
    match scanKey cs with
    | some (parts, '=' :: rest) =>
      match scanValue fuel nesting (skipBlanks rest) with
      | none => none
      | some (v, rest) =>
        match assignKey parts v entries with
        | none => none
        | some entries =>
          match skipBlanks rest with
          | '}' :: rest => some (entries, rest)
          | ',' :: rest => scanInline fuel nesting rest entries
          | _ => none
    | _ => none

end

/-- Reads the lines of a document into a tree.  The first number bounds the lines by the length of
the text; `current` is the path of the table to which keys are added. -/
def scanLines : Nat → Entries → List String → List Char → Option Entries
  | 0, _, _, _ => none
  | fuel + 1, root, current, cs =>
    match skipTrivia false cs with
    | [] => some root
    | '[' :: '[' :: rest => do
      let (parts, rest) ← scanKey rest
      let rest ← lineEnd? (← after? ']' (← after? ']' rest))
      let (path, key) ← splitLast? parts
      scanLines fuel (← Entries.within (Entries.openElement key) path root) parts rest
    | '[' :: rest => do
      let (parts, rest) ← scanKey rest
      let rest ← lineEnd? (← after? ']' rest)
      let (path, key) ← splitLast? parts
      scanLines fuel (← Entries.within (Entries.openTable key) path root) parts rest
    | cs => do
      let (parts, rest) ← scanKey cs
      let rest ← after? '=' rest
      let (v, rest) ← scanValue (2 * rest.length + 2) (nestingLimit - 1) (skipBlanks rest)
      let rest ← lineEnd? rest
      scanLines fuel (← Entries.within (assignKey parts v) current root) current rest

/-- Reads a TOML document as the entries of its outermost table. -/
def read (s : String) : Option (List (String × Value)) :=
  let cs :=
    match s.toList with
    | '\uFEFF' :: rest => rest
    | cs => cs
  (scanLines (cs.length + 1) [] [] cs).map entryValues

end MediaPhases.Toml
