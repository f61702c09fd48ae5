import MediaPhases.Number.Hexadecimal

/-!
# TOML text

The smallest parts of a TOML document: blanks, line ends and comments, the four forms of strings,
and keys.  Every function returns the text after what it has read.
-/

namespace MediaPhases.Toml

/-- A blank within a line. -/
def isBlank (c : Char) : Bool :=
  c == ' ' || c == '\t'

/-- A character that may stand in comments and strings: no control character but the tab. -/
def isPlain (c : Char) : Bool :=
  c == '\t' || (0x20 ≤ c.toNat && c.toNat != 0x7F)

/-- The text after the blanks at its start. -/
def skipBlanks (cs : List Char) : List Char :=
  cs.dropWhile isBlank

/-- The text after a line break at its start. -/
def lineBreak? : List Char → Option (List Char)
  | '\n' :: rest => some rest
  | '\r' :: '\n' :: rest => some rest
  | _ => none

/-- The text after the blanks, line breaks and comments at its start.  The flag says that it
starts within a comment. -/
def skipTrivia : Bool → List Char → List Char
  | _, [] => []
  | inComment, c :: rest =>
    if inComment && isPlain c then skipTrivia true rest
    else if isBlank c || c == '\n' then skipTrivia false rest
    else if c == '#' then skipTrivia true rest
    else if c == '\r' && rest.head? == some '\n' then skipTrivia false rest
    else c :: rest

/-- The text after the blanks and line breaks at its start. -/
def skipBlankLines : List Char → List Char
  | [] => []
  | c :: rest =>
    if isBlank c || c == '\n' then skipBlankLines rest
    else if c == '\r' && rest.head? == some '\n' then skipBlankLines rest
    else c :: rest

/-- The text after the rest of a line, which may hold a comment and nothing else. -/
def lineEnd? (cs : List Char) : Option (List Char) :=
  let rest :=
    match skipBlanks cs with
    | '#' :: comment => comment.dropWhile isPlain
    | rest => rest
  if rest.isEmpty then some [] else lineBreak? rest

/-- The character of a code written in hexadecimal digits. -/
def codeChar? (digits : List Char) : Option Char :=
  (numberOfBase? 16 digits).bind fun n => if n.isValidChar then some (Char.ofNat n) else none

/-- The character of an escape, from the character after the backslash and the text after that,
and the number of characters of that text which belong to the escape. -/
def escape? (c : Char) (rest : List Char) : Option (Char × Nat) :=
  let coded (width : Nat) : Option (Char × Nat) :=
    let digits := rest.take width
    if digits.length = width then (codeChar? digits).map fun e => (e, width) else none
  match c with
  | 'b' => some ('\x08', 0)
  | 'f' => some ('\x0c', 0)
  | 'n' => some ('\n', 0)
  | 'r' => some ('\r', 0)
  | 't' => some ('\t', 0)
  | '"' => some ('"', 0)
  | '\\' => some ('\\', 0)
  | 'u' => coded 4
  | 'U' => coded 8
  | _ => none

/-- Reads the characters of a string in one line with escapes, up to its closing quote.  The
characters so far are held in reverse. -/
def scanBasic : List Char → List Char → Option (String × List Char)
  | '"' :: rest, soFar => some (String.ofList soFar.reverse, rest)
  | '\\' :: c :: rest, soFar =>
    match escape? c rest with
    | some (e, width) => scanBasic (rest.drop width) (e :: soFar)
    | none => none
  | c :: rest, soFar => if isPlain c && c != '\\' then scanBasic rest (c :: soFar) else none
  | [], _ => none
termination_by cs _ => cs.length
decreasing_by all_goals simp only [List.length_drop, List.length_cons]; omega

/-- Reads the characters of a string in one line without escapes. -/
def scanLiteral : List Char → List Char → Option (String × List Char)
  | '\'' :: rest, soFar => some (String.ofList soFar.reverse, rest)
  | c :: rest, soFar => if isPlain c then scanLiteral rest (c :: soFar) else none
  | [], _ => none

/-- The text after the quotes that close a string of several lines.  A run of more than three
quotes ends with the closing three; at most two before them belong to the string, as the list of
these says. -/
def closing? (quote : Char) (cs : List Char) : Option (List Char × List Char) :=
  let run := (cs.takeWhile (· == quote)).length
  if run < 3 then none else some (List.replicate (min (run - 3) 2) quote, cs.drop (min run 5))

theorem skipBlankLines_length_le (cs : List Char) : (skipBlankLines cs).length ≤ cs.length := by
  induction cs with
  | nil => simp [skipBlankLines]
  | cons c rest ih =>
    unfold skipBlankLines
    split
    · exact Nat.le_succ_of_le ih
    · split
      · exact Nat.le_succ_of_le ih
      · exact Nat.le_refl _

/-- Reads the characters of a string of several lines with escapes.  A backslash at the end of a
line joins it with the next text. -/
def scanBasicLines : List Char → List Char → Option (String × List Char)
  | [], _ => none
  | c :: rest, soFar =>
    match closing? '"' (c :: rest) with
    | some (quotes, rest) => some (String.ofList (quotes ++ soFar).reverse, rest)
    | none =>
      if c = '\\' then
        if (lineBreak? (skipBlanks rest)).isSome then
          scanBasicLines (skipBlankLines rest) soFar
        else
          match rest with
          | [] => none
          | e :: rest =>
            match escape? e rest with
            | some (e, width) => scanBasicLines (rest.drop width) (e :: soFar)
            | none => none
      else if c = '\n' then scanBasicLines rest ('\n' :: soFar)
      else if c = '\r' then
        if rest.head? = some '\n' then scanBasicLines rest soFar else none
      else if isPlain c then scanBasicLines rest (c :: soFar)
      else none
termination_by cs _ => cs.length
decreasing_by
  · exact Nat.lt_succ_of_le (skipBlankLines_length_le _)
  all_goals simp only [List.length_drop, List.length_cons]; omega

/-- Reads the characters of a string of several lines without escapes. -/
def scanLiteralLines : List Char → List Char → Option (String × List Char)
  | [], _ => none
  | c :: rest, soFar =>
    match closing? '\'' (c :: rest) with
    | some (quotes, rest) => some (String.ofList (quotes ++ soFar).reverse, rest)
    | none =>
      if c = '\n' then scanLiteralLines rest ('\n' :: soFar)
      else if c = '\r' then
        if rest.head? = some '\n' then scanLiteralLines rest soFar else none
      else if isPlain c then scanLiteralLines rest (c :: soFar)
      else none

/-- The text after a line break that may follow the opening of a string of several lines. -/
def skipFirstBreak (cs : List Char) : List Char :=
  (lineBreak? cs).getD cs

/-- Reads a string of any form, if one starts here. -/
def scanString? : List Char → Option (Option (String × List Char))
  | '"' :: '"' :: '"' :: rest => some (scanBasicLines (skipFirstBreak rest) [])
  | '"' :: rest => some (scanBasic rest [])
  | '\'' :: '\'' :: '\'' :: rest => some (scanLiteralLines (skipFirstBreak rest) [])
  | '\'' :: rest => some (scanLiteral rest [])
  | _ => none

/-- A character of a key without quotes. -/
def isKeyChar (c : Char) : Bool :=
  c.isAlphanum || c == '_' || c == '-'

/-- Reads one part of a key. -/
def scanKeyPart (cs : List Char) : Option (String × List Char) :=
  match cs with
  | '"' :: rest => scanBasic rest []
  | '\'' :: rest => scanLiteral rest []
  | _ =>
    let part := cs.takeWhile isKeyChar
    if part.isEmpty then none else some (String.ofList part, cs.dropWhile isKeyChar)

/-- How many levels of nesting a document may not reach. -/
def nestingLimit : Nat := 80

/-- Reads a key, whose parts are separated by points. -/
def scanKeyParts : Nat → List Char → Option (List String × List Char)
  | 0, _ => none
  | limit + 1, cs =>
    match scanKeyPart (skipBlanks cs) with
    | none => none
    | some (part, rest) =>
      match skipBlanks rest with
      | '.' :: rest => (scanKeyParts limit rest).map fun (parts, rest) => (part :: parts, rest)
      | rest => some ([part], rest)

/-- Reads a key of fewer parts than the limit. -/
def scanKey (cs : List Char) : Option (List String × List Char) :=
  scanKeyParts (nestingLimit - 1) cs

end MediaPhases.Toml
