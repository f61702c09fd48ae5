import MediaPhases.Number.Notation

/-!
# JSON numbers

A number without point and exponent is an integer when it lies in the 64-bit ranges.  Every
other number is computed from a significand of at most 64 bits, which takes the digits of the
literal as long as it can hold them, and one power of ten: the significand is rounded to double
precision, then multiplied or divided by the rounded power.  So a literal of many digits may end
up beside the nearest double-precision number, and a number beyond the largest one has no value.
-/

namespace MediaPhases.Json

/-- A number literal in parts: sign, whole digits, the digits after the point if there is one,
and the exponent's sign and digits if there is one. -/
structure NumberLiteral where
  negative : Bool
  whole : List Char
  fraction : Option (List Char)
  exponent : Option (Bool × List Char)

/-- The digits that a 64-bit significand takes, and the number of digits that are left. -/
def takeDigits (significand : Nat) : List Char → Nat × Nat
  | [] => (significand, 0)
  | c :: rest =>
    let next := significand * 10 + digitValue c
    if next < UInt64.size then takeDigits next rest else (significand, rest.length + 1)

/-- The greatest power of ten in double precision. -/
def topPower : Nat := 308

/-- The double-precision power of ten. -/
def powerOfTen (n : Nat) : Magnitude :=
  BinaryFormat.double.nearest ((10 : Rat) ^ n)

/-- Divides by `10 ^ n` in steps of the greatest power and a last smaller one. -/
def divideByPower (x : Magnitude) (n : Nat) : Magnitude :=
  if n ≤ topPower then
    BinaryFormat.double.div x (powerOfTen n)
  else if x = .finite 0 BinaryFormat.double.minExponent then
    x
  else
    divideByPower (BinaryFormat.double.div x (powerOfTen topPower)) (n - topPower)
termination_by n
decreasing_by simp [topPower] at *; omega

/-- A significand times a power of ten, or nothing when that is beyond the largest number. -/
def scale (significand : Nat) (exponent : Int) : Option Magnitude :=
  let x := BinaryFormat.double.ofNat significand
  if exponent < 0 then
    some (divideByPower x (-exponent).toNat)
  else if exponent ≤ topPower then
    match BinaryFormat.double.mul x (powerOfTen exponent.toNat) with
    | .infinite => none
    | y => some y
  else if significand = 0 then
    some x
  else
    none

/-- The largest exponent that is taken at its value; a larger one stands for zero or for a
number out of range. -/
def exponentLimit : Nat := UInt32.size / 2 - 1

/-- The power of ten with the exponent of a literal applied to it. -/
def withExponent (significand : Nat) (start : Int) : Option (Bool × List Char) → Option Magnitude
  | none => scale significand start
  | some (negative, digits) =>
    let n := digitsValue digits
    if exponentLimit < n then
      if significand ≠ 0 ∧ negative = false then none
      else some (.finite 0 BinaryFormat.double.minExponent)
    else
      scale significand (if negative then start - n else start + n)

/-- The magnitude of a literal. -/
def NumberLiteral.magnitude (l : NumberLiteral) : Option Magnitude :=
  let (whole, dropped) := takeDigits 0 l.whole
  let fraction := l.fraction.getD []
  let (significand, unused) := takeDigits whole fraction
  withExponent significand ((dropped : Int) - ((fraction.length - unused : Nat) : Int)) l.exponent

/-- The value of a number literal. -/
inductive NumberValue where
  | int (n : Int)
  | float (x : Double)
  | outOfRange

/-- The value of a literal that may be an integer. -/
def NumberLiteral.value (l : NumberLiteral) : NumberValue :=
  let n := digitsValue l.whole
  let isWhole := l.fraction.isNone && l.exponent.isNone
  if isWhole && !l.negative && decide (n < UInt64.size) then .int n
  else if isWhole && l.negative && decide (0 < n ∧ n ≤ UInt64.size / 2) then .int (-n)
  else
    match l.magnitude with
    | some x => .float (Double.ofMagnitude l.negative x)
    | none => .outOfRange

end MediaPhases.Json
