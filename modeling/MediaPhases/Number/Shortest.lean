import MediaPhases.Number.Decimal

/-!
# Shortest decimals

The text of a binary number shows the fewest decimal digits that read back as the same number,
and among those the decimal nearest to it.  The digits are found on the decimal grids one by
one: on the first grid where one of the value's two neighbours reads back, the nearer neighbour
that does is chosen.  Should no grid of `limit` digits do, the exact expansion is taken.
-/

namespace MediaPhases

/-- Which of two equally near decimals is shown. -/
inductive DecimalTie where
  | toEven
  | up
deriving DecidableEq, Repr

namespace Decimal

/-- The decimal without the trailing zeros of its digits, at most `fuel` of them. -/
def stripZeros : Nat → Decimal → Decimal
  | 0, d => d
  | fuel + 1, d =>
    if d.digits ≠ 0 ∧ d.digits % 10 = 0 then stripZeros fuel ⟨d.digits / 10, d.exponent + 1⟩
    else d

/-- The exponent of the largest power of ten that is at most the positive rational `x`. -/
def floorLog10 (x : Rat) : Int :=
  let k : Int := (size x.num.toNat : Int) - (size x.den : Int)
  if x < (10 : Rat) ^ k then k - 1 else k

/-- The exact decimal expansion of `m * 2 ^ e`. -/
def exact (m : Nat) (e : Int) : Decimal :=
  if 0 ≤ e then ⟨m <<< e.toNat, 0⟩ else ⟨m * Nat.pow 5 (-e).toNat, e⟩

/-- The nearer of the two neighbours of `x` on the grid of `10 ^ k` that read back as
`m * 2 ^ e`, if one does. -/
def onGrid? (f : BinaryFormat) (tie : DecimalTie) (m : Nat) (e : Int) (x : Rat) (k : Int) :
    Option Decimal :=
  let scaled := x / (10 : Rat) ^ k
  let low := scaled.floor.toNat
  let below : Decimal := ⟨low, k⟩
  let above : Decimal := ⟨low + 1, k⟩
  let distance := scaled - low
  let lowReads := decide (below.nearest f = .finite m e)
  let highReads := decide (above.nearest f = .finite m e)
  let preferLow :=
    decide (distance < 1 / 2) ||
      (decide (distance = 1 / 2) && decide (tie = .toEven) && decide (low % 2 = 0))
  match lowReads, highReads with
  | true, true => some (if preferLow then below else above)
  | true, false => some below
  | false, true => some above
  | false, false => none

/-- The fewest digits, at most `limit`, that read back as the value `m * 2 ^ e` of the format. -/
def shortest (f : BinaryFormat) (tie : DecimalTie) (limit : Nat) (m : Nat) (e : Int) : Decimal :=
  if m = 0 then
    ⟨0, 0⟩
  else
    let x := dyadicValue m e
    let top := floorLog10 x
    let grids := (List.range limit).map fun (n : Nat) => top - (n : Int)
    let found := (grids.findSome? (onGrid? f tie m e x)).getD (exact m e)
    stripZeros (size found.digits) found

end Decimal

end MediaPhases
