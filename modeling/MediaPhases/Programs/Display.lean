import MediaPhases.Programs.Basic

/-!
# Displaying files

The program that writes the contents of files one after the other, and perhaps numbers their lines
or makes visible what cannot be seen.
-/

namespace MediaPhases.Program

/-- How contents are displayed. -/
structure Display where
  numbersLines : Bool := false
  /-- Lines that are empty get no number. -/
  skipsEmptyLines : Bool := false
  /-- Empty lines that follow each other are written as one. -/
  joinsEmptyLines : Bool := false
  marksEnds : Bool := false
  marksTabs : Bool := false
  /-- Whatever else cannot be seen is written with a sign before it. -/
  marksOthers : Bool := false
deriving DecidableEq, Repr

/-- Where a display is. -/
structure DisplayPlace where
  /-- The number of lines that have been numbered. -/
  number : Nat := 0
  /-- Zero within a line; else one more than the number of empty lines before, up to three. -/
  ends : Nat := 1

namespace Display

/-- A display with an option. -/
def turnOn (d : Display) : Char → Display
  | 'n' => { d with numbersLines := true }
  | 'b' => { d with numbersLines := true, skipsEmptyLines := true }
  | 's' => { d with joinsEmptyLines := true }
  | 'E' => { d with marksEnds := true }
  | 'T' => { d with marksTabs := true }
  | 'v' => { d with marksOthers := true }
  | 'A' => { d with marksEnds := true, marksTabs := true, marksOthers := true }
  | 'e' => { d with marksEnds := true, marksOthers := true }
  | 't' => { d with marksTabs := true, marksOthers := true }
  | _ => d

/-- A byte of at most seven bits with a sign before it, if it cannot be seen. -/
def visible (b : UInt8) : List UInt8 :=
  if b < 32 then [94, b + 64] else if b = 127 then [94, 63] else [b]

/-- What is written for a byte that does not end a line. -/
def byte (d : Display) (b : UInt8) : List UInt8 :=
  if b = 9 then if d.marksTabs then visible b else [b]
  else if !d.marksOthers then [b]
  else if b < 128 then visible b
  else [77, 45] ++ visible (b - 128)

/-- The number of a line. -/
def lineNumber (n : Nat) : List UInt8 :=
  let digits := toString n
  Text.encodeUtf8 ("".pushn ' ' (6 - digits.length) ++ digits ++ "\t")

/-- What is written for bytes from a place on, and the place after them. -/
def bytes (d : Display) (k : DisplayPlace) : List UInt8 → List UInt8 × DisplayPlace
  | [] => ([], k)
  | b :: rest =>
    let isLineEnd := b = 10
    let ends := if isLineEnd then Nat.min (k.ends + 1) 3 else 0
    if d.joinsEmptyLines ∧ ends = 3 then bytes d { k with ends := ends } rest
    else
      let isNumbered := d.numbersLines &&
        if isLineEnd then decide (2 ≤ ends) && !d.skipsEmptyLines else decide (1 ≤ k.ends)
      let head := if isNumbered then lineNumber (k.number + 1) else []
      let shown :=
        if isLineEnd then (if d.marksEnds then [36, b] else [b])
        else if d.marksEnds ∧ b = 13 ∧ rest.head? = some 10 then visible b
        else d.byte b
      let number := if isNumbered then k.number + 1 else k.number
      let (more, last) := bytes d ⟨number, ends⟩ rest
      (head ++ shown ++ more, last)

end Display

/-- Displays files in order; among them the input, which is read but once. -/
def displayAll (d : Display) : DisplayPlace → List String → Program
  | _, [] => fun i => { files := i.files }
  | k, arg :: rest => fun i =>
    let isInput := arg = "-" ∨ arg = "/dev/stdin"
    let found : Except String (List UInt8) :=
      if isInput then (i.input.map .ok).getD (.error "Bad file descriptor")
      else
        match i.files.read arg, i.files.locate arg with
        | .ok content, .ok names =>
          if content ≠ [] ∧ i.outlet = .file names then .error "input file is output file"
          else .ok content
        | .error fault, _ | .ok _, .error fault => .error fault.reason
    match found with
    | .error text =>
      (refusing s!"cat: {QuotedName.plain arg}: {text}" i).andThen (displayAll d k rest i)
    | .ok content =>
      let (shown, k) := if d = {} then (content, k) else d.bytes k content
      let next := { i with input := if isInput then some [] else i.input }
      { writing shown i with hasRead := isInput }.andThen (displayAll d k rest next)

/-- Writes the contents of files, or else its input. -/
def cat : Program :=
  withOptions "cat" ['A', 'b', 'e', 'E', 'n', 's', 't', 'T', 'u', 'v'] fun options operands i =>
    let operands := if operands = [] then ["-"] else operands
    if i.outlet = .absent then refusing "cat: standard output: Bad file descriptor" i
    else
      let e := displayAll (options.foldl Display.turnOn {}) {} operands i
      if operands.contains "-" ∧ i.input.isNone then
        e.andThen (refusing "cat: closing standard input: Bad file descriptor" i)
      else e

end MediaPhases.Program
