/-!
# Binary floating-point numbers

Sizes, durations and the numbers of documents go through binary floating point.  A value is kept
as an integer significand times a power of two, every operation is the exact rational result
rounded once, and rounding goes to the nearest value of the format, a tie to the even one.
-/

namespace MediaPhases

/-- A binary floating-point format: the number of bits of a significand and the exponents of the
smallest and of the largest finite values, for significands taken as integers. -/
structure BinaryFormat where
  precision : Nat
  minExponent : Int
  maxExponent : Int

/-- The double-precision format. -/
def BinaryFormat.double : BinaryFormat := ⟨53, -1074, 971⟩

/-- The single-precision format. -/
def BinaryFormat.single : BinaryFormat := ⟨24, -149, 104⟩

/-- A nonnegative value of a format: `significand * 2 ^ exponent`, or infinite. -/
inductive Magnitude where
  | finite (significand : Nat) (exponent : Int)
  | infinite
deriving DecidableEq, Repr

/-- The exact value of a significand and an exponent. -/
def dyadicValue (significand : Nat) (exponent : Int) : Rat :=
  (significand : Rat) * (2 : Rat) ^ exponent

/-- The quotient of two natural numbers rounded to the nearest one, a tie to the even one. -/
def roundQuotient (num den : Nat) : Nat :=
  let q := num / den
  let r := num % den
  if 2 * r < den then q
  else if den < 2 * r then q + 1
  else if q % 2 = 0 then q
  else q + 1

/-- A nonnegative rational rounded to the nearest natural number, a tie to the even one. -/
def roundEven (x : Rat) : Nat :=
  roundQuotient x.num.toNat x.den

/-- The exponent of the largest power of two that is at most the positive rational `x`. -/
def floorLog2 (x : Rat) : Int :=
  let k : Int := (x.num.toNat.log2 : Int) - (x.den.log2 : Int)
  if x < (2 : Rat) ^ k then k - 1 else k

namespace BinaryFormat

/-- The exponent at which a format holds numbers of the size of `x`. -/
def exponentFor (f : BinaryFormat) (x : Rat) : Int :=
  max (floorLog2 x - ((f.precision : Int) - 1)) f.minExponent

/-- The value of the format with the given significand and exponent, which are adjusted when
rounding has carried the significand to the next power of two. -/
def carry (f : BinaryFormat) (significand : Nat) (exponent : Int) : Magnitude :=
  let m := if significand = 1 <<< f.precision then 1 <<< (f.precision - 1) else significand
  let e := if significand = 1 <<< f.precision then exponent + 1 else exponent
  if f.maxExponent < e then .infinite else .finite m e

/-- The value of the format nearest to the nonnegative rational `x`, a tie going to the even
significand; infinite when `x` rounds beyond the largest finite value. -/
def nearest (f : BinaryFormat) (x : Rat) : Magnitude :=
  if x = 0 then
    .finite 0 f.minExponent
  else
    let e := f.exponentFor x
    f.carry (roundEven (x / (2 : Rat) ^ e)) e

/-- The nearest value of the format to a natural number. -/
def ofNat (f : BinaryFormat) (n : Nat) : Magnitude :=
  f.nearest (n : Rat)

/-- The exact product of two values, rounded once. -/
def mul (f : BinaryFormat) : Magnitude → Magnitude → Magnitude
  | .finite m e, .finite m' e' => f.nearest (dyadicValue m e * dyadicValue m' e')
  | _, _ => .infinite

/-- The exact quotient of two values, rounded once; the divisor is positive. -/
def div (f : BinaryFormat) : Magnitude → Magnitude → Magnitude
  | .finite m e, .finite m' e' => f.nearest (dyadicValue m e / dyadicValue m' e')
  | .finite _ _, .infinite => .finite 0 f.minExponent
  | .infinite, _ => .infinite

/-- The exact sum of two values, rounded once. -/
def add (f : BinaryFormat) : Magnitude → Magnitude → Magnitude
  | .finite m e, .finite m' e' => f.nearest (dyadicValue m e + dyadicValue m' e')
  | _, _ => .infinite

end BinaryFormat

/-- The exact value of a finite magnitude. -/
def Magnitude.toRat? : Magnitude → Option Rat
  | .finite m e => some (dyadicValue m e)
  | .infinite => none

/-- A double-precision number as documents hold it. -/
inductive Double where
  | notANumber
  | infinite (negative : Bool)
  | finite (negative : Bool) (significand : Nat) (exponent : Int)
deriving DecidableEq, Repr

namespace Double

/-- A sign and a magnitude as a number. -/
def ofMagnitude (negative : Bool) : Magnitude → Double
  | .finite m e => .finite negative m e
  | .infinite => .infinite negative

/-- The nearest number to an integer. -/
def ofInt (n : Int) : Double :=
  ofMagnitude (decide (n < 0)) (BinaryFormat.double.ofNat n.natAbs)

/-- The exact value of a finite number. -/
def toRat? : Double → Option Rat
  | .finite true m e => some (-dyadicValue m e)
  | .finite false m e => some (dyadicValue m e)
  | _ => none

/-- Whether one number is smaller than another; nothing compares with what is not a number. -/
def lt : Double → Double → Bool
  | .notANumber, _ => false
  | _, .notANumber => false
  | .infinite true, b => b != .infinite true
  | .infinite false, _ => false
  | _, .infinite negative => !negative
  | a, b =>
    match a.toRat?, b.toRat? with
    | some x, some y => decide (x < y)
    | _, _ => false

/-- Equality of numbers as numbers: both zeros are equal, and what is not a number differs even
from itself. -/
def sameNumber : Double → Double → Bool
  | .infinite s, .infinite t => s == t
  | a, b =>
    match a.toRat?, b.toRat? with
    | some x, some y => decide (x = y)
    | _, _ => false

end Double

end MediaPhases
