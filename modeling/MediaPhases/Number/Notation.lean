import MediaPhases.Number.Shortest

/-!
# Number texts

The spelling of a decimal: where the point stands, when an exponent is written, and how.  One
record holds the choices of one output format.  Also whole seconds with a fixed number of places.
-/

namespace MediaPhases

/-- How a format spells a number.  A decimal `0.d₁d₂… * 10 ^ p` is written positionally when
`positionalFrom ≤ p ≤ positionalTo`, where an absent bound does not limit; otherwise with one
digit before the point and an exponent. -/
structure NumberNotation where
  tie : DecimalTie
  positionalFrom : Option Int
  positionalTo : Option Int
  /-- Whether a whole number is shown with `.0`. -/
  keepsPoint : Bool
  notANumber : String
  /-- The spelling of an infinite number, by whether it is negative. -/
  infinity : Bool → String

namespace NumberNotation

/-- Document numbers: positional from `0.00001` to below `1e16`, a whole number with `.0`. -/
def document : NumberNotation where
  tie := .toEven
  positionalFrom := some (-4)
  positionalTo := some 16
  keepsPoint := true
  notANumber := "null"
  infinity := fun _ => "null"

/-- Numbers in running text: never an exponent, and no `.0`. -/
def plain : NumberNotation where
  tie := .up
  positionalFrom := none
  positionalTo := none
  keepsPoint := false
  notANumber := "NaN"
  infinity := fun negative => if negative then "-inf" else "inf"

/-- Numbers in running text that keep `.0`, so that they can be told from integers. -/
def pointed : NumberNotation :=
  { plain with keepsPoint := true }

/-- Whether the point of a decimal at position `p` is written positionally. -/
def isPositional (n : NumberNotation) (p : Int) : Bool :=
  n.positionalFrom.all (· ≤ p) && n.positionalTo.all (p ≤ ·)

/-- The digits with the point after the first `p`, filled up with zeros on either side. -/
def positional (n : NumberNotation) (digits : List Char) (p : Int) : List Char :=
  if p ≤ 0 then
    ['0', '.'] ++ List.replicate (-p).toNat '0' ++ digits
  else if digits.length ≤ p.toNat then
    digits ++ List.replicate (p.toNat - digits.length) '0' ++
      (if n.keepsPoint then ['.', '0'] else [])
  else
    digits.take p.toNat ++ '.' :: digits.drop p.toNat

/-- One digit before the point and the power of ten after an `e`, with its sign. -/
def scientific (digits : List Char) (p : Int) : List Char :=
  let exponent := p - 1
  digits.take 1 ++ (if digits.length ≤ 1 then [] else '.' :: digits.drop 1) ++
    'e' :: (if exponent < 0 then '-' else '+') :: decimalDigits exponent.natAbs

/-- A nonnegative decimal as text. -/
def spell (n : NumberNotation) (d : Decimal) : List Char :=
  if d.digits = 0 then
    if n.keepsPoint then ['0', '.', '0'] else ['0']
  else
    let digits := decimalDigits d.digits
    let p := (digits.length : Int) + d.exponent
    if n.isPositional p then n.positional digits p else scientific digits p

/-- A double-precision number as text. -/
def text (n : NumberNotation) : Double → String
  | .notANumber => n.notANumber
  | .infinite negative => n.infinity negative
  | .finite negative m e =>
    let digits := n.spell (Decimal.shortest .double n.tie 17 m e)
    String.ofList (if negative then '-' :: digits else digits)

/-- A single-precision magnitude as text. -/
def singleText (n : NumberNotation) : Magnitude → String
  | .infinite => n.infinity false
  | .finite m e => String.ofList (n.spell (Decimal.shortest .single n.tie 9 m e))

end NumberNotation

/-- A nonnegative rational with one digit after the point, a tie going to the even digit. -/
def onePlace (x : Rat) : List Char :=
  let tenths := roundEven (x * 10)
  decimalDigits (tenths / 10) ++ '.' :: decimalDigits (tenths % 10)

/-- A double-precision number with one digit after the point. -/
def Double.onePlace : Double → String
  | .notANumber => "NaN"
  | .infinite negative => if negative then "-inf" else "inf"
  | .finite negative m e =>
    let digits := MediaPhases.onePlace (dyadicValue m e)
    String.ofList (if negative then '-' :: digits else digits)

end MediaPhases
