import MediaPhases.Programs.Script

/-!
# Home directories

A tilde at the start of a word stands for the directory of the user whose name follows it, up to a
slash, as long as neither is quoted.  In the value of a variable a tilde after a colon counts too.
-/

namespace MediaPhases.Script

/-- The parts of a text between colons, with every colon at the end of the part before it. -/
def colonParts : List Char → List (List Char)
  | [] => [[]]
  | ':' :: rest => [':'] :: colonParts rest
  | c :: rest =>
    match colonParts rest with
    | part :: parts => (c :: part) :: parts
    | [] => [[c]]

/-- How a word is searched for tildes. -/
structure HomeSearch where
  /-- The directory of the user of a name; no name is that of the user at work. -/
  home? : List Char → Option String
  /-- A tilde after a colon counts, and a colon ends a name. -/
  hasColons : Bool

/-- A text with a directory for a tilde at its start.  If a word goes on after the text, then the
name may not reach up to its end. -/
def HomeSearch.atStart (h : HomeSearch) (goesOn : Bool) (cs : List Char) : Word :=
  match cs with
  | '~' :: rest =>
    let name := rest.takeWhile fun c => c ≠ '/' ∧ !(h.hasColons ∧ c = ':')
    let after := rest.drop name.length
    let tail : Word := if after = [] then [] else [.text after false]
    match if after = [] ∧ goesOn then none else h.home? name with
    | some "" => tail
    | some path => .text path.toList true :: tail
    | none => [.text cs false]
  | cs => [.text cs false]

/-- A word with directories for its tildes. -/
def HomeSearch.word (h : HomeSearch) (isStart : Bool) : Word → Word
  | [] => []
  | .text cs false :: rest =>
    let parts := if h.hasColons then colonParts cs else [cs]
    let kept : Word := if isStart then [] else [.text (parts.headD []) false]
    let searched := if isStart then parts else parts.tail
    let last := (searched.getLast?.map (h.atStart (!rest.isEmpty))).getD []
    kept ++ searched.dropLast.flatMap (h.atStart false) ++ last ++ h.word false rest
  | piece :: rest => piece :: h.word false rest

end MediaPhases.Script
