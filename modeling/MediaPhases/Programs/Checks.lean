import MediaPhases.Programs.Basic

/-!
# Checks

The program that ends well when what its arguments say is true: about files, texts and numbers.
Its arguments are read from left to right; a word that could be an operator is an operand where
an operator makes no sense.
-/

namespace MediaPhases.Program

/-- An integer with an optional sign, between blanks. -/
def integer? (word : String) : Option Int :=
  match (Text.trim word).toList with
  | '-' :: digits => (natOfDigits? digits).map fun n => -(n : Int)
  | '+' :: digits => (natOfDigits? digits).map fun n => (n : Int)
  | digits => (natOfDigits? digits).map fun n => (n : Int)

/-- What a check of one operand says, if there is such a check. -/
def checkOne? (files : FileTree) (operator operand : String) : Option Bool :=
  match operator with
  | "-n" => some (operand != "")
  | "-z" => some (operand == "")
  | "-e" | "-r" | "-w" | "-O" | "-G" => some (files.hasPath operand)
  | "-f" => some (files.isFile operand)
  | "-d" => some (files.isDirectory operand)
  | "-c" => some (files.hasPath operand && !files.isFile operand && !files.isDirectory operand)
  | "-s" => some (decide (0 < (files.sizeOf? operand).getD 0))
  | "-x" => some (files.isDirectory operand)
  | "-b" | "-g" | "-h" | "-k" | "-L" | "-p" | "-S" | "-t" | "-u" => some false
  | _ => none

/-- How an operator compares numbers. -/
def comparison? : String → Option (Int → Int → Bool)
  | "-eq" => some fun a b => a == b
  | "-ne" => some fun a b => a != b
  | "-lt" => some fun a b => a < b
  | "-le" => some fun a b => a ≤ b
  | "-gt" => some fun a b => b < a
  | "-ge" => some fun a b => b ≤ a
  | _ => none

/-- What a check of two operands says, or a complaint, if there is such a check. -/
def checkTwo? (left operator right : String) : Option (Except String Bool) :=
  match operator with
  | "=" => some (.ok (left == right))
  | "!=" => some (.ok (left != right))
  | "<" => some (.ok (left < right))
  | ">" => some (.ok (right < left))
  | _ =>
    (comparison? operator).map fun compare =>
      match integer? left, integer? right with
      | some a, some b => .ok (compare a b)
      | none, _ => .error s!"Illegal number: {left}"
      | _, none => .error s!"Illegal number: {right}"

/-- Whether a word stands between two operands. -/
def isBinary (word : String) : Bool :=
  (checkTwo? "0" word "0").isSome

/-- Whether the word at the start is an operator before an operand. -/
def isUnary : List String → Bool
  | [] => false
  | word :: rest =>
    (checkOne? {} word "").isSome &&
      match rest with
      | [] => false
      | [_] => true
      | next :: _ => !isBinary next

mutual

/-- What alternatives say, and the words from the last one of them on. -/
def anyOf (files : FileTree) : Nat → List String → Except String (Bool × List String)
  | 0, ws => .ok (false, ws)
  | fuel + 1, ws => do
    let (first, ws) ← allOf files fuel ws
    match ws with
    | _ :: "-o" :: rest =>
      let (more, ws) ← anyOf files fuel rest
      return (first || more, ws)
    | ws => return (first, ws)

/-- What conditions say that all have to hold, and the words from the last one of them on. -/
def allOf (files : FileTree) : Nat → List String → Except String (Bool × List String)
  | 0, ws => .ok (false, ws)
  | fuel + 1, ws => do
    let (first, ws) ← negated files fuel ws
    match ws with
    | _ :: "-a" :: rest =>
      let (more, ws) ← allOf files fuel rest
      return (first && more, ws)
    | ws => return (first, ws)

/-- What a condition says that may be negated, and the words from its last one on. -/
def negated (files : FileTree) : Nat → List String → Except String (Bool × List String)
  | 0, ws => .ok (false, ws)
  | fuel + 1, ws => do
    match ws with
    | ["!"] => return (true, ws)
    | "!" :: rest =>
      let (answer, ws) ← negated files fuel rest
      return (!answer, ws)
    | ws => primary files fuel ws

/-- What one condition says, and the words from its last one on. -/
def primary (files : FileTree) : Nat → List String → Except String (Bool × List String)
  | 0, ws => .ok (false, ws)
  | fuel + 1, ws =>
    match ws with
    | [] => .ok (false, [])
    | "(" :: ")" :: rest => .ok (false, ")" :: rest)
    | "(" :: word :: rest => do
      let (answer, ws) ← anyOf files fuel (word :: rest)
      match ws.tail with
      | ")" :: rest => return (answer, ")" :: rest)
      | _ => .error "closing paren expected"
    | operator :: operand :: rest =>
      if isUnary ws then
        .ok ((checkOne? files operator operand).getD false, operand :: rest)
      else comparison operator (operand :: rest)
    | [word] => .ok (word != "", [word])

/-- What a condition says that starts with an operand, and the words from its last one on. -/
def comparison (left : String) : List String → Except String (Bool × List String)
  | operator :: rest =>
    match rest, isBinary operator with
    | right :: after, true =>
      ((checkTwo? left operator right).getD (.ok false)).map fun b => (b, right :: after)
    | [], true => .error s!"{operator}: argument expected"
    | _, false => .ok (left != "", left :: operator :: rest)
  | [] => .ok (left != "", [left])

end

/-- What arguments say, or a complaint.  Of three and of four arguments, one that negates is put
aside, and however many are, what the others say is negated once. -/
def check (files : FileTree) (isNegated : Bool) (words : List String) : Except String Bool := do
  let steps := 8 * words.length + 8
  let (answer, ws) ←
    match words with
    | [left, operator, right] =>
      if isBinary operator then comparison left [operator, right]
      else if left = "(" ∧ right = ")" then
        (anyOf files steps [operator]).map fun (answer, _) => (answer, [])
      else if left = "!" then return ← check files true [operator, right]
      else anyOf files steps words
    | ["(", a, b, ")"] => anyOf files steps [a, b]
    | ["!", a, b, c] => return ← check files true [a, b, c]
    | words => anyOf files steps words
  match ws with
  | last :: _ :: _ =>
    .error ((if last = "" then "" else last ++ ": ") ++ "unexpected operator")
  | _ => return answer != isNegated
termination_by words.length

/-- Ends well when its arguments say something true.  Called by the sign of an opening bracket, it
asks for a closing one at the end. -/
def checking (name : String) : Program := fun i =>
  let words? : Except String (List String) :=
    if name = "[" then
      if i.args.getLast?.any (·.startsWith "]") then .ok i.args.dropLast else .error "missing ]"
    else .ok i.args
  match words?.bind (check i.files false) with
  | .ok true => ending 0 i
  | .ok false => ending 1 i
  | .error text => refusingWith 2 s!"{name}: {text}" i

end MediaPhases.Program
