import MediaPhases.Threshold.Amount

/-!
# File sizes

A file size is a count of bytes below `2 ^ 64`.  It is written as a number and one of the units
`B`, `KB`, `MB`, `GB` and `TB`, each 1024 times the one before; it is shown in the largest unit
that divides it.
-/

namespace MediaPhases

/-- A file size in bytes. -/
structure ByteSize where
  bytes : Nat
  bytes_lt : bytes < UInt64.size
deriving DecidableEq

namespace ByteSize

/-- The units of file sizes, the largest first, with the bytes that they stand for. -/
def units : List (String × Nat) :=
  [("TB", 1 <<< 40), ("GB", 1 <<< 30), ("MB", 1 <<< 20), ("KB", 1 <<< 10), ("B", 1)]

/-- The bytes that a unit stands for, in any letter case.  Only ASCII letters have to be
compared without case: no other letter has one of the units' letters as its capital. -/
def unitBytes? (unit : List Char) : Option Nat :=
  (units.find? fun u => unit.map Char.toUpper == u.1.toList).map (·.2)

/-- The size as text: the largest unit that divides it, and zero in bytes. -/
def render (s : ByteSize) : String :=
  match units.find? fun u => s.bytes ≠ 0 && s.bytes % u.2 == 0 with
  | some (unit, multiplier) => toString (s.bytes / multiplier) ++ unit
  | none => toString s.bytes ++ "B"

/-- The size of a double-precision product of amount and unit: whole bytes, and none beyond the
range. -/
def ofProduct : Magnitude → Except ThresholdReason ByteSize
  | .infinite => .error .tooLarge
  | .finite m e =>
    let bytes := (dyadicValue m e).floor.toNat
    if h : bytes < UInt64.size then .ok ⟨bytes, h⟩ else .error .tooLarge

/-- The size that the characters of a trimmed literal state. -/
def parseChars (cs : List Char) : Except ThresholdReason ByteSize :=
  let (number, unit) := splitAmount cs
  match unitBytes? unit with
  | none => .error .sizeUnit
  | some multiplier =>
    match amountOf number with
    | .error reason => .error reason
    | .ok (m, e) =>
      ofProduct (BinaryFormat.double.mul (.finite m e) (BinaryFormat.double.ofNat multiplier))

/-- Reads a size literal.  A refusal quotes the literal as it was written. -/
def parse (s : String) : Except ThresholdFault ByteSize :=
  (parseChars (Text.trimChars s.toList)).mapError fun reason => ⟨.fileSize, s, reason⟩

end ByteSize

end MediaPhases
