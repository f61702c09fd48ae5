import MediaPhases.Number.Binary

/-!
# Decimal numbers

Strings of decimal digits, the numbers they stand for, and the nearest binary value of a decimal
with a power of ten.
-/

namespace MediaPhases

/-- The value of an ASCII decimal digit. -/
def digitValue (c : Char) : Nat :=
  c.toNat - '0'.toNat

/-- The number that a string of digits stands for. -/
def digitsValue (cs : List Char) : Nat :=
  cs.foldl (fun n c => n * 10 + digitValue c) 0

/-- The decimal digits of a number, without leading zeros. -/
def decimalDigits (n : Nat) : List Char :=
  Nat.toDigits 10 n

/-- The natural number written by one or more digits. -/
def natOfDigits? (cs : List Char) : Option Nat :=
  if cs ≠ [] ∧ cs.all Char.isDigit then some (digitsValue cs) else none

/-- A decimal number `digits * 10 ^ exponent`. -/
structure Decimal where
  digits : Nat
  exponent : Int
deriving DecidableEq, Repr

namespace Decimal

/-- The exact value. -/
def toRat (d : Decimal) : Rat :=
  (d.digits : Rat) * (10 : Rat) ^ d.exponent

/-- The number of decimal digits of a natural number; zero has none. -/
def size (n : Nat) : Nat :=
  if n = 0 then 0 else (decimalDigits n).length

/-- The nearest value of a binary format to a decimal number.  A decimal beyond every exponent
of the format is not expanded: it is zero or infinite by its size alone. -/
def nearest (f : BinaryFormat) (d : Decimal) : Magnitude :=
  let top : Int := (size d.digits : Int) + d.exponent
  if d.digits = 0 ∨ top < -400 then .finite 0 f.minExponent
  else if 400 < top then .infinite
  else f.nearest d.toRat

/-- The decimal written by whole digits and digits after the point. -/
def ofParts (whole fraction : List Char) : Decimal :=
  ⟨digitsValue (whole ++ fraction), -(fraction.length : Int)⟩

end Decimal

/-- The value of an unsigned decimal literal: digits with at most one point and at least one
digit.  Nothing else is read, neither signs nor exponents. -/
def plainDecimal? (cs : List Char) : Option Decimal :=
  let whole := cs.takeWhile Char.isDigit
  let fraction :=
    match cs.dropWhile Char.isDigit with
    | '.' :: rest => some rest
    | [] => some []
    | _ => none
  match fraction with
  | some digits =>
    if digits.all Char.isDigit && !(whole ++ digits).isEmpty then
      some (Decimal.ofParts whole digits)
    else
      none
  | none => none

example : digitsValue "0042".toList = 42 := by decide

example : plainDecimal? "1.50".toList = some ⟨150, -2⟩ := by decide

example : plainDecimal? "1.5.0".toList = none := by decide

example : plainDecimal? ".".toList = none := by decide

end MediaPhases
