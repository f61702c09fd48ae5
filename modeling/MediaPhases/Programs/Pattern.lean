import MediaPhases.Files.Tree

/-!
# Patterns

Patterns for names and texts: a star stands for any characters, a question mark for one, and
brackets for one of several.  A pattern that is a path stands for the paths of a tree that match
it segment by segment.
-/

namespace MediaPhases

/-- What stands for one character of a pattern. -/
inductive PatternItem where
  | exactly (c : Char)
  | one
  | many
  /-- One character in the ranges, or in none of them. -/
  | among (isNegated : Bool) (ranges : List (Char × Char))
deriving DecidableEq, Repr

/-- A pattern. -/
abbrev Pattern := List PatternItem

namespace Pattern

/-- A character of a text, and whether quotes keep it from being anything but itself. -/
abbrev Mark := Char × Bool

/-- The ranges between brackets and what follows the closing one. -/
def ranges : List Mark → List (Char × Char) → Option (List (Char × Char) × List Mark)
  | [], _ => none
  | (']', false) :: rest, some' =>
    if some' = [] then ranges rest [(']', ']')] else some (some'.reverse, rest)
  | (low, _) :: ('-', false) :: (high, quoted) :: rest, some' =>
    if high = ']' ∧ !quoted then some ((('-', '-') :: (low, low) :: some').reverse, rest)
    else ranges rest ((low, high) :: some')
  | (c, _) :: rest, some' => ranges rest ((c, c) :: some')

/-- The pattern of a text; the number bounds the steps by its length. -/
def read : Nat → List Mark → Pattern
  | 0, _ | _, [] => []
  | steps + 1, ('*', false) :: rest => .many :: read steps rest
  | steps + 1, ('?', false) :: rest => .one :: read steps rest
  | steps + 1, ('[', false) :: rest =>
    let (isNegated, inner) := match rest with
      | ('!', false) :: inner => (true, inner)
      | _ => (false, rest)
    match ranges inner [] with
    | some (found, rest) => .among isNegated found :: read steps rest
    | none => .exactly '[' :: read steps rest
  | steps + 1, (c, _) :: rest => .exactly c :: read steps rest

/-- The pattern of a text. -/
def ofMarks (cs : List Mark) : Pattern :=
  read cs.length cs

/-- Whether a pattern is anything but a text. -/
def isOpen (p : Pattern) : Bool :=
  p.any fun
    | .exactly _ => false
    | _ => true

/-- Whether an item stands for a character. -/
def admits (item : PatternItem) (c : Char) : Bool :=
  match item with
  | .exactly d => c == d
  | .one | .many => true
  | .among isNegated ranges => (ranges.any fun r => r.1 ≤ c && c ≤ r.2) != isNegated

/-- Whether a pattern matches a text, given what the rest of the pattern matches. -/
def matchesItem (item : PatternItem) (rest : List Char → Bool) : List Char → Bool
  | [] => item == .many && rest []
  | c :: cs =>
    match item with
    | .many => rest (c :: cs) || matchesItem item rest cs
    | _ => admits item c && rest cs

/-- Whether a pattern matches a text. -/
def accepts : Pattern → List Char → Bool
  | [] => List.isEmpty
  | item :: rest => matchesItem item (accepts rest)

/-- Cuts a text where a cut leaves a part that the pattern matches: at one of its ends, the
shortest or the longest such part. -/
def trim (p : Pattern) (atEnd isLongest : Bool) (cs : List Char) : List Char :=
  let counts := List.range (cs.length + 1)
  let counts := if isLongest then counts.reverse else counts
  let part (n : Nat) := if atEnd then cs.drop (cs.length - n) else cs.take n
  match counts.find? fun n => p.accepts (part n) with
  | some n => if atEnd then cs.take (cs.length - n) else cs.drop n
  | none => cs

/-- The paths of a tree that segments of patterns match, as they go on after a path. -/
def pathsFrom (t : FileTree) : List Pattern → String → List String
  | [], path => [path]
  | p :: rest, path =>
    let join (name : String) : String := if rest.isEmpty then path ++ name else path ++ name ++ "/"
    let text := p.filterMap fun
      | .exactly c => some c
      | _ => none
    if !isOpen p then
      let next := join (String.ofList text)
      if rest.isEmpty ∧ !t.hasPath next then [] else pathsFrom t rest next
    else
      let isHidden := p.head? == some (.exactly '.')
      let entries := (t.entriesOf (if path = "" then "." else path)).map (·.1)
      let names := ((if isHidden then ["..", "."] else []) ++ entries).filter fun name =>
        (isHidden || name.toList.head? != some '.') && p.accepts name.toList
      (names.mergeSort fun a b => a ≤ b).flatMap fun name =>
        if rest.isEmpty ∨ t.isDirectory (path ++ name) then pathsFrom t rest (join name) else []

/-- The paths for which a text stands: those that match it, or else the text itself. -/
def paths (t : FileTree) (cs : List Mark) : List String :=
  let plain := String.ofList (cs.map (·.1))
  let segments := (cs.splitOnP fun c => c.1 == '/').map ofMarks
  if segments.any isOpen then
    match pathsFrom t segments "" with
    | [] => [plain]
    | found => found
  else [plain]

end Pattern

end MediaPhases
