import MediaPhases.Number.Decimal

/-!
# Given numbers of places

The digits of a nonnegative rational with a given number of them after the point, positionally or
with a power of ten.  Rounding goes to the nearest number, a tie to the even one.
-/

namespace MediaPhases

/-- The exponent of the largest power of ten that is at most the positive rational `x`. -/
def floorLog10 (x : Rat) : Int :=
  let k : Int := (Decimal.size x.num.toNat : Int) - (Decimal.size x.den : Int)
  if x < (10 : Rat) ^ k then k - 1 else k

/-- The digits before the point and those after it. -/
def fixedPlaces (x : Rat) (places : Nat) : List Char × List Char :=
  let digits := decimalDigits (roundEven (x * (10 : Rat) ^ (places : Int)))
  let digits := List.replicate (places + 1 - digits.length) '0' ++ digits
  digits.splitAt (digits.length - places)

/-- The digit before the point, those after it, and the exponent of the power of ten. -/
def scientificPlaces (x : Rat) (places : Nat) : List Char × List Char × Int :=
  if x = 0 then (['0'], List.replicate places '0', 0)
  else
    let exponent := floorLog10 x
    let digits := decimalDigits (roundEven (x / (10 : Rat) ^ (exponent - (places : Int))))
    let isCarried := places + 1 < digits.length
    (digits.take 1, (digits.drop 1).take places, if isCarried then exponent + 1 else exponent)

/-- The hexadecimal digit before the point, those after it, and the exponent of the power of two.
The smallest numbers of a format have no power of their own. -/
def hexadecimalPlaces (f : BinaryFormat) (x : Rat) (places : Nat) :
    List Char × List Char × Int :=
  if x = 0 then (['0'], List.replicate places '0', 0)
  else
    let exponent := max (floorLog2 x) (f.minExponent + (f.precision : Int) - 1)
    let digits := Nat.toDigits 16
      (roundEven (x / (2 : Rat) ^ exponent * (16 : Rat) ^ (places : Int)))
    let digits := List.replicate (places + 1 - digits.length) '0' ++ digits
    (digits.take 1, digits.drop 1, exponent)

example : fixedPlaces (9 / 4) 1 = (['2'], ['2']) := by decide +kernel

example : scientificPlaces (1999 / 200) 2 = (['1'], ['0', '0'], 1) := by decide +kernel

end MediaPhases
