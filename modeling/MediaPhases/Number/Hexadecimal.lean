import MediaPhases.Number.Decimal

/-!
# Hexadecimal digits

The values of hexadecimal digits in either case, and of digits of a smaller base.
-/

namespace MediaPhases

/-- The value of a hexadecimal digit. -/
def hexValue? (c : Char) : Option Nat :=
  if c.isDigit then some (digitValue c)
  else if 'a' ≤ c ∧ c ≤ 'f' then some (c.toNat - 'a'.toNat + 10)
  else if 'A' ≤ c ∧ c ≤ 'F' then some (c.toNat - 'A'.toNat + 10)
  else none

/-- The value of a digit of a base of at most sixteen. -/
def baseValue? (base : Nat) (c : Char) : Option Nat :=
  (hexValue? c).filter (· < base)

/-- The number that digits of a base stand for. -/
def numberOfBase? (base : Nat) (cs : List Char) : Option Nat :=
  cs.foldlM (fun n c => (baseValue? base c).map fun d => n * base + d) 0

example : numberOfBase? 16 "fF".toList = some 255 := by decide

example : numberOfBase? 8 "8".toList = none := by decide

end MediaPhases
