import MediaPhases.Document.Json.Number
import MediaPhases.Document.Value
import MediaPhases.Number.Hexadecimal

/-!
# Reading JSON text

The text of a JSON document is read into a value that keeps the order of entries and repeated
keys.  A number out of range, a text with half of a surrogate pair or a list or table nested too
deeply does not end the reading: it becomes an unreadable value, so that it can stand where
nobody looks.
-/

namespace MediaPhases.Json

/-- Blanks between the tokens of a document. -/
def isSpace (c : Char) : Bool :=
  c == ' ' || c == '\n' || c == '\t' || c == '\r'

/-- The text after the blanks at its start. -/
def skipSpace (cs : List Char) : List Char :=
  cs.dropWhile isSpace

/-- The value of four hexadecimal digits. -/
def hex4? (a b c d : Char) : Option Nat := do
  return (((← hexValue? a) * 16 + (← hexValue? b)) * 16 + (← hexValue? c)) * 16 + (← hexValue? d)

/-- Whether a code unit opens a surrogate pair. -/
def isHighSurrogate (n : Nat) : Bool :=
  0xD800 ≤ n && n ≤ 0xDBFF

/-- Whether a code unit closes a surrogate pair. -/
def isLowSurrogate (n : Nat) : Bool :=
  0xDC00 ≤ n && n ≤ 0xDFFF

/-- The character of an escape of one letter. -/
def shortEscape? : Char → Option Char
  | '"' => some '"'
  | '\\' => some '\\'
  | '/' => some '/'
  | 'b' => some '\x08'
  | 'f' => some '\x0c'
  | 'n' => some '\n'
  | 'r' => some '\r'
  | 't' => some '\t'
  | _ => none

/-- Reads the characters of a text up to its closing quote.  The characters so far are held in
reverse, and are nothing once half of a surrogate pair has been met. -/
def scanText : List Char → Option (List Char) → Option (Option String × List Char)
  | '"' :: rest, soFar => some (soFar.map fun cs => String.ofList cs.reverse, rest)
  | '\\' :: 'u' :: a :: b :: c :: d :: rest, soFar =>
    match hex4? a b c d with
    | none => none
    | some n =>
      if isHighSurrogate n then
        match rest with
        | '\\' :: 'u' :: e :: f :: g :: h :: rest' =>
          match hex4? e f g h with
          | none => none
          | some m =>
            if isLowSurrogate m then
              let code := 0x10000 + (n - 0xD800) * 0x400 + (m - 0xDC00)
              scanText rest' (soFar.map (Char.ofNat code :: ·))
            else
              scanText ('\\' :: 'u' :: e :: f :: g :: h :: rest') none
        | rest => scanText rest none
      else if isLowSurrogate n then scanText rest none
      else scanText rest (soFar.map (Char.ofNat n :: ·))
  | '\\' :: c :: rest, soFar =>
    match shortEscape? c with
    | some e => scanText rest (soFar.map (e :: ·))
    | none => none
  | c :: rest, soFar =>
    if c.toNat < 0x20 ∨ c = '\\' then none else scanText rest (soFar.map (c :: ·))
  | [], _ => none
termination_by cs _ => cs.length

/-- Reads a number literal. -/
def scanNumber (cs : List Char) : Option (NumberLiteral × List Char) :=
  let (negative, cs) :=
    match cs with
    | '-' :: rest => (true, rest)
    | _ => (false, cs)
  let whole := cs.takeWhile Char.isDigit
  let rest := cs.dropWhile Char.isDigit
  if whole.isEmpty || (whole.length != 1 && whole.head? == some '0') then
    none
  else
    let point :=
      match rest with
      | '.' :: tail =>
        let digits := tail.takeWhile Char.isDigit
        if digits.isEmpty then none else some (some digits, tail.dropWhile Char.isDigit)
      | _ => some (none, rest)
    match point with
    | none => none
    | some (fraction, rest) =>
      match rest with
      | [] => some (⟨negative, whole, fraction, none⟩, rest)
      | e :: tail =>
        if e = 'e' ∨ e = 'E' then
          let (down, tail) :=
            match tail with
            | '-' :: tail => (true, tail)
            | '+' :: tail => (false, tail)
            | _ => (false, tail)
          let digits := tail.takeWhile Char.isDigit
          if digits.isEmpty then none
          else some (⟨negative, whole, fraction, some (down, digits)⟩, tail.dropWhile Char.isDigit)
        else
          some (⟨negative, whole, fraction, none⟩, rest)

/-- The value of a number literal in a document. -/
def ofNumber (l : NumberLiteral) : Value :=
  match l.value with
  | .int n => .int n
  | .float x => .float x
  | .outOfRange => .unreadable

/-- How deeply lists and tables may be nested. -/
def nestingLimit : Nat := 127

/-- A list or table, if there is room for one more around it. -/
def nested (room : Nat) (v : Value) : Value :=
  if room = 0 then .unreadable else v

mutual

/-- Reads a value that starts after blanks.  Every call within a list or a table starts further
on in the text, so the length of the text bounds their number; the second number is the nesting
that is left. -/
def scanValue : Nat → Nat → List Char → Option (Value × List Char)
  | 0, _, _ => none
  | fuel + 1, room, cs =>
    match skipSpace cs with
    | '{' :: rest =>
      match skipSpace rest with
      | '}' :: rest => some (nested room (.table []), rest)
      | rest =>
        (scanEntries fuel (room - 1) rest).map fun (entries, rest) =>
          (match entries with
            | some entries => nested room (.table entries)
            | none => .unreadable, rest)
    | '[' :: rest =>
      match skipSpace rest with
      | ']' :: rest => some (nested room (.list []), rest)
      | rest =>
        (scanItems fuel (room - 1) rest).map fun (items, rest) =>
          (nested room (.list items), rest)
    | '"' :: rest =>
      (scanText rest (some [])).map fun (s, rest) =>
        (match s with
          | some s => .text s
          | none => .unreadable, rest)
    | 'n' :: 'u' :: 'l' :: 'l' :: rest => some (.null, rest)
    | 't' :: 'r' :: 'u' :: 'e' :: rest => some (.bool true, rest)
    | 'f' :: 'a' :: 'l' :: 's' :: 'e' :: rest => some (.bool false, rest)
    | cs => (scanNumber cs).map fun (l, rest) => (ofNumber l, rest)

/-- Reads the items of a list up to its closing bracket. -/
def scanItems : Nat → Nat → List Char → Option (List Value × List Char)
  | 0, _, _ => none
  | fuel + 1, room, cs =>
    match scanValue fuel room cs with
    | none => none
    | some (v, rest) =>
      match skipSpace rest with
      | ']' :: rest => some ([v], rest)
      | ',' :: rest => (scanItems fuel room rest).map fun (vs, rest) => (v :: vs, rest)
      | _ => none

/-- Reads the entries of a table up to its closing brace; they are nothing when a key is half of
a surrogate pair. -/
def scanEntries : Nat → Nat → List Char → Option (Option (List (String × Value)) × List Char)
  | 0, _, _ => none
  | fuel + 1, room, cs =>
    match skipSpace cs with
    | '"' :: rest =>
      match scanText rest (some []) with
      | none => none
      | some (key, rest) =>
        match skipSpace rest with
        | ':' :: rest =>
          match scanValue fuel room rest with
          | none => none
          | some (v, rest) =>
            let entry := key.map fun k => (k, v)
            match skipSpace rest with
            | '}' :: rest => some (entry.map fun e => [e], rest)
            | ',' :: rest =>
              (scanEntries fuel room rest).map fun (entries, rest) =>
                (entry.bind fun e => entries.map (e :: ·), rest)
            | _ => none
        | _ => none
    | _ => none

end

/-- Reads a JSON document, which may hold unreadable values. -/
def scan (s : String) : Option Value :=
  let cs := s.toList
  match scanValue (2 * cs.length + 2) nestingLimit cs with
  | some (v, rest) => if (skipSpace rest).isEmpty then some v else none
  | none => none

/-- Reads a JSON document all of which can be read. -/
def read (s : String) : Option Value :=
  (scan s).filter Value.isReadable

end MediaPhases.Json
