/-!
# Quoted names

Names in messages, written so that an interpreter would read them back as one word: as they stand
if they can be, and else between quotes, with escapes for what cannot be shown.
-/

namespace MediaPhases.QuotedName

/-- What stands after a backslash for a character that cannot be shown. -/
def escape? (c : Char) : Option (List Char) :=
  let n := c.toNat
  match [(7, 'a'), (8, 'b'), (9, 't'), (10, 'n'), (11, 'v'), (12, 'f'), (13, 'r')].lookup n with
  | some letter => some [letter]
  | none =>
    if n < 32 ∨ n = 127 then
      some ([n / 64, n / 8 % 8, n % 8].map fun digit => Char.ofNat ('0'.toNat + digit))
    else none

/-- A character that has a meaning wherever it stands. -/
def isActive (c : Char) : Bool :=
  ['\'', ' ', '!', '"', '$', '&', '(', ')', '*', ';', '<', '=', '>', '[', '\\', '^',
    Char.ofNat 96, '|', '?'].contains c

/-- Whether a name cannot stand without quotes. -/
def needsQuotes (cs : List Char) : Bool :=
  cs.any (fun c => isActive c || (escape? c).isSome) ||
    match cs with
    | [] | ['\x7b'] | ['\x7d'] | '#' :: _ | '~' :: _ => true
    | _ => false

/-- Whether a name means the same between double quotes as between single ones. -/
def isTame (cs : List Char) : Bool :=
  let isTameLater (c : Char) : Bool :=
    !((isActive c && c != ' ' && c != '\'') || (escape? c).isSome ||
      ['\x7b', '\x7d', '#', '~'].contains c)
  match cs with
  | [] => true
  | c :: rest => (isTameLater c || c == '#' || c == '~') && rest.all isTameLater

/-- The inside of single quotes; escapes stand between quotes of their own kind. -/
def inside (isEscaped : Bool) : List Char → List Char
  | [] => []
  | c :: rest =>
    if c = '\'' then ['\'', '\\', '\'', '\''] ++ inside false rest
    else
      match escape? c with
      | some letters =>
        (if isEscaped then [] else ['\'', '$', '\'']) ++ '\\' :: letters ++ inside true rest
      | none => (if isEscaped then ['\'', '\''] else []) ++ c :: inside false rest

/-- A name between quotes. -/
def between (name : String) : String :=
  let cs := name.toList
  if cs.contains '\'' ∧ isTame cs then "\"" ++ name ++ "\""
  else String.ofList ('\'' :: inside false cs ++ ['\''])

/-- A name, between quotes if it needs any. -/
def plain (name : String) : String :=
  if needsQuotes name.toList then between name else name

end MediaPhases.QuotedName
