import MediaPhases.Number.Hexadecimal

/-!
# Arithmetic

Expressions over integers of 64 bits with names for some of them.  An expression is read and
worked out in one pass, so the first fault on the way is the fault of the whole.  A part that does
not count is only read.
-/

namespace MediaPhases.Arithmetic

/-- A part of an expression. -/
inductive Token where
  | number (n : Int)
  | name (name : String)
  | operator (symbol : String)
deriving DecidableEq, Repr

/-- The operators, longer ones before those that they start with. -/
def symbols : List String :=
  ["<<=", ">>=", "&&", "||", "==", "!=", "<=", ">=", "<<", ">>", "+=", "-=", "*=", "/=", "%=",
    "&=", "|=", "^=", "+", "-", "*", "/", "%", "<", ">", "!", "~", "&", "|", "^", "?", ":", "(",
    ")", "="]

/-- A character of a name. -/
def isNameChar (c : Char) : Bool :=
  c.isAlphanum || c == '_'

/-- The number that a literal at the start of a text states, in one of three bases, and the text
after it. -/
def literal (cs : List Char) : Nat × List Char :=
  let read (base : Nat) (digits : List Char) (rest : List Char) : Nat × List Char :=
    ((numberOfBase? base digits).getD 0, rest.drop digits.length)
  let digitsOf (base : Nat) (cs : List Char) : List Char :=
    cs.takeWhile fun c => (baseValue? base c).isSome
  match cs with
  | '0' :: x :: rest =>
    let digits := digitsOf 16 rest
    if (x = 'x' ∨ x = 'X') ∧ digits ≠ [] then read 16 digits rest
    else read 8 (digitsOf 8 cs) cs
  | cs => read 10 (digitsOf 10 cs) cs

/-- The number that a text with an optional sign states, between blanks; without digits it is
zero. -/
def integer? (cs : List Char) : Option Int :=
  let isBlank (c : Char) : Bool := c = ' ' ∨ ('\t' ≤ c ∧ c ≤ '\r')
  let cs := ((cs.dropWhile isBlank).reverse.dropWhile isBlank).reverse
  let read (cs : List Char) : Option Int :=
    if !cs.head?.any Char.isDigit then none
    else
      match literal cs with
      | (n, []) => some n
      | _ => none
  match cs with
  | [] => some 0
  | '-' :: rest => (read rest).map fun n => -n
  | '+' :: rest => read rest
  | cs => read cs

/-- The tokens of an expression; the number bounds the steps by its length. -/
def tokens : Nat → List Char → List Token
  | _, [] => []
  | 0, _ => []
  | steps + 1, c :: rest =>
    if c = ' ' ∨ c = '\t' ∨ c = '\n' then tokens steps rest
    else if c.isDigit then
      let (n, rest) := literal (c :: rest)
      .number n :: tokens steps rest
    else if isNameChar c then
      let word := c :: rest.takeWhile isNameChar
      .name (String.ofList word) :: tokens steps (rest.drop (word.length - 1))
    else
      let symbol := (symbols.find? fun s => s.toList.isPrefixOf (c :: rest)).getD
        (String.singleton c)
      .operator symbol :: tokens steps (rest.drop (symbol.length - 1))

/-- The values of names. -/
abbrev Bindings := List (String × String)

/-- Gives a name a value. -/
def Bindings.set (bindings : Bindings) (name value : String) : Bindings :=
  (name, value) :: bindings.filter fun b => b.1 ≠ name

/-- An integer brought into the range of 64 bits with a sign. -/
def wrap (n : Int) : Int :=
  (n + (UInt64.size / 2 : Nat)) % (UInt64.size : Nat) - (UInt64.size / 2 : Nat)

/-- How tightly an operator between two operands binds. -/
def strength? : String → Option Nat
  | "|" => some 3
  | "^" => some 4
  | "&" => some 5
  | "==" | "!=" => some 6
  | "<" | "<=" | ">" | ">=" => some 7
  | "<<" | ">>" => some 8
  | "+" | "-" => some 9
  | "*" | "/" | "%" => some 10
  | _ => none

/-- A truth value as a number. -/
def ofBool (b : Bool) : Int := if b then 1 else 0

/-- What an operation on the bits of two integers comes to. -/
def bitwise (f : UInt64 → UInt64 → UInt64) (a b : Int) : Int :=
  let bits (n : Int) : UInt64 := UInt64.ofNat (n % (UInt64.size : Nat)).toNat
  wrap (f (bits a) (bits b)).toNat

/-- Why an expression has no value. -/
inductive Fault where
  /-- Something is not there without which the expression makes no sense. -/
  | lacking (what : String)
  | divisionByZero
  | illegalNumber (text : String)
  /-- A quotient is too large, which no interpreter survives. -/
  | overflow
deriving DecidableEq, Repr

/-- The greatest integer. -/
def greatest : Int := (UInt64.size / 2 : Nat) - 1

/-- What a division makes of two numbers. -/
def divide (f : Int → Int → Int) (a b : Int) : Except Fault Int :=
  if b = 0 then .error .divisionByZero
  else if greatest < a.tdiv b then .error .overflow
  else .ok (f a b)

/-- What an operator makes of two numbers. -/
def apply (symbol : String) (a b : Int) : Except Fault Int :=
  match symbol with
  | "|" => .ok (bitwise (· ||| ·) a b)
  | "^" => .ok (bitwise (· ^^^ ·) a b)
  | "&" => .ok (bitwise (· &&& ·) a b)
  | "==" => .ok (ofBool (a == b))
  | "!=" => .ok (ofBool (a != b))
  | "<" => .ok (ofBool (a < b))
  | "<=" => .ok (ofBool (a ≤ b))
  | ">" => .ok (ofBool (b < a))
  | ">=" => .ok (ofBool (b ≤ a))
  | "<<" => .ok (wrap (a * (1 <<< (b % 64).toNat : Nat)))
  | ">>" => .ok (a / (1 <<< (b % 64).toNat : Nat))
  | "+" => .ok (wrap (a + b))
  | "-" => .ok (wrap (a - b))
  | "*" => .ok (wrap (a * b))
  | "/" => divide Int.tdiv a b
  | "%" => divide Int.tmod a b
  | _ => .error (.lacking "primary")

/-- The value of a name; one without a value counts as zero. -/
def valueOf (bindings : Bindings) (name : String) : Except Fault Int :=
  match bindings.lookup name with
  | none | some "" => .ok 0
  | some text =>
    match integer? text.toList with
    | some n => if -greatest - 1 ≤ n ∧ n ≤ greatest then .ok n else .error (.illegalNumber text)
    | none => .error (.illegalNumber text)

/-- What a part of an expression has come to, and what is left of the expression. -/
structure Progress where
  value : Int
  bindings : Bindings
  rest : List Token

/-- The operator of an assignment, if a symbol is one; it is empty if there is no operator. -/
def assigned? (symbol : String) : Option String :=
  if symbol.endsWith "=" ∧ (strength? symbol).isNone then
    some (String.ofList symbol.toList.dropLast)
  else none

mutual

/-- Reads an expression with what stands to the right of an equals sign. -/
def assignment : Nat → Bool → Bindings → List Token → Except Fault Progress
  | 0, _, _, _ => .error (.lacking "primary")
  | fuel + 1, isIdle, bindings, ts =>
    match ts with
    | .name name :: .operator symbol :: rest =>
      match assigned? symbol with
      | none => choice fuel isIdle bindings ts
      | some operator => do
        let right ← assignment fuel isIdle bindings rest
        if isIdle then return right
        else
          let value ← if operator = "" then pure right.value
            else apply operator (← valueOf right.bindings name) right.value
          return { right with
            value := value
            bindings := right.bindings.set name (toString value) }
    | ts => choice fuel isIdle bindings ts

/-- Reads a condition with the two cases after it, or what may stand before them. -/
def choice : Nat → Bool → Bindings → List Token → Except Fault Progress
  | 0, _, _, _ => .error (.lacking "primary")
  | fuel + 1, isIdle, bindings, ts => do
    let test ← disjunction fuel isIdle bindings ts
    match test.rest with
    | .operator "?" :: rest =>
      let yes ← assignment fuel (isIdle || test.value == 0) test.bindings rest
      match yes.rest with
      | .operator ":" :: rest =>
        let no ← choice fuel (isIdle || test.value != 0) yes.bindings rest
        return { no with value := if test.value = 0 then no.value else yes.value }
      | _ => .error (.lacking "':'")
    | _ => return test

/-- Reads alternatives, of which those after one that holds do not count. -/
def disjunction : Nat → Bool → Bindings → List Token → Except Fault Progress
  | 0, _, _, _ => .error (.lacking "primary")
  | fuel + 1, isIdle, bindings, ts => do
    let left ← conjunction fuel isIdle bindings ts
    match left.rest with
    | .operator "||" :: rest =>
      let right ← disjunction fuel (isIdle || left.value != 0) left.bindings rest
      return { right with value := ofBool (left.value != 0 || right.value != 0) }
    | _ => return left

/-- Reads conditions, of which those after one that does not hold do not count. -/
def conjunction : Nat → Bool → Bindings → List Token → Except Fault Progress
  | 0, _, _, _ => .error (.lacking "primary")
  | fuel + 1, isIdle, bindings, ts => do
    let left ← operation fuel 0 isIdle bindings ts
    match left.rest with
    | .operator "&&" :: rest =>
      let right ← conjunction fuel (isIdle || left.value == 0) left.bindings rest
      return { right with value := ofBool (left.value != 0 && right.value != 0) }
    | _ => return left

/-- Reads operands with operators of more than a strength between them. -/
def operation : Nat → Nat → Bool → Bindings → List Token → Except Fault Progress
  | 0, _, _, _, _ => .error (.lacking "primary")
  | fuel + 1, strength, isIdle, bindings, ts => do
    let left ← operand fuel isIdle bindings ts
    further fuel strength isIdle left

/-- Reads what may follow an operand. -/
def further : Nat → Nat → Bool → Progress → Except Fault Progress
  | 0, _, _, _ => .error (.lacking "primary")
  | fuel + 1, strength, isIdle, left =>
    match left.rest with
    | .operator symbol :: rest =>
      match (strength? symbol).filter (strength < ·) with
      | none => .ok left
      | some s => do
        let right ← operation fuel s isIdle left.bindings rest
        let value ← if isIdle then pure right.value else apply symbol left.value right.value
        further fuel strength isIdle { right with value := value }
    | _ => .ok left

/-- Reads one operand with the operators before it. -/
def operand : Nat → Bool → Bindings → List Token → Except Fault Progress
  | 0, _, _, _ => .error (.lacking "primary")
  | fuel + 1, isIdle, bindings, ts =>
    let changed (change : Int → Int) (rest : List Token) : Except Fault Progress := do
      let inner ← operand fuel isIdle bindings rest
      return { inner with value := change inner.value }
    match ts with
    | .number n :: rest => .ok ⟨min n greatest, bindings, rest⟩
    | .name name :: rest => do
      return ⟨← if isIdle then pure 0 else valueOf bindings name, bindings, rest⟩
    | .operator "(" :: rest => do
      let inner ← assignment fuel isIdle bindings rest
      match inner.rest with
      | .operator ")" :: rest => return { inner with rest := rest }
      | _ => .error (.lacking "')'")
    | .operator "-" :: rest => changed (fun n => wrap (-n)) rest
    | .operator "+" :: rest => changed id rest
    | .operator "!" :: rest => changed (fun n => ofBool (n == 0)) rest
    | .operator "~" :: rest => changed (fun n => -n - 1) rest
    | _ => .error (.lacking "primary")

end

/-- Works out an expression. -/
def evaluate (bindings : Bindings) (cs : List Char) : Except Fault (Int × Bindings) := do
  let ts := tokens cs.length cs
  let whole ← assignment (10 * ts.length + 10) false bindings ts
  if whole.rest = [] then return (whole.value, whole.bindings) else .error (.lacking "EOF")

/-- The wording of a fault of an expression. -/
def Fault.message (text : String) : Fault → String
  | .lacking what => s!"arithmetic expression: expecting {what}: \"{text}\""
  | .divisionByZero => s!"arithmetic expression: division by zero: \"{text}\""
  | .illegalNumber value => s!"Illegal number: {value}"
  | .overflow => "Floating point exception"

end MediaPhases.Arithmetic
