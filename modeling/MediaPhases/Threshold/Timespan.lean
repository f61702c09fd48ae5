import MediaPhases.Number.Notation
import MediaPhases.Text.Lowercase
import MediaPhases.Threshold.Amount

/-!
# Durations

A duration is a count of seconds below `2 ^ 64` and of nanoseconds.  It is written as a number
with one of the units `s`, `m` and `h`, rounded to the nearest nanosecond, or in the compound
form of whole hours and minutes, which is exact.  It is shown in hours and minutes when they
divide it, and otherwise in seconds.
-/

namespace MediaPhases

/-- A duration in seconds and nanoseconds. -/
@[ext]
structure Timespan where
  seconds : Nat
  nanos : Nat := 0
  seconds_lt : seconds < UInt64.size
  nanos_lt : nanos < 1000000000 := by decide

namespace Timespan

/-- Two durations are equal when their seconds and nanoseconds are. -/
instance : DecidableEq Timespan := fun _ _ => decidable_of_iff _ Timespan.ext_iff.symm

/-- The nearest double-precision value, from the rounded seconds and the rounded fraction. -/
def asSeconds (t : Timespan) : Magnitude :=
  let f := BinaryFormat.double
  f.add (f.ofNat t.seconds) (f.div (f.ofNat t.nanos) (f.ofNat (1000000000)))

/-- The duration in seconds as a document number. -/
def asDouble (t : Timespan) : Double :=
  Double.ofMagnitude false t.asSeconds

/-- The duration as text. -/
def render (t : Timespan) : String :=
  let hours := t.seconds / 3600
  let minutes := t.seconds % 3600 / 60
  if t.nanos ≠ 0 ∨ t.seconds = 0 then
    NumberNotation.plain.text t.asDouble ++ "s"
  else if t.seconds % 60 ≠ 0 then toString t.seconds ++ "s"
  else if hours = 0 then toString minutes ++ "m"
  else if minutes = 0 then toString hours ++ "h"
  else s!"{hours}h{minutes}m"

/-- The duration of whole seconds. -/
def ofSeconds (seconds : Fin UInt64.size) : Timespan where
  seconds := seconds
  seconds_lt := seconds.isLt

/-- The duration of a number of nanoseconds, if it is in range. -/
def ofNanos? (n : Nat) : Option Timespan :=
  if h : n / 1000000000 < UInt64.size then
    some ⟨n / 1000000000, n % 1000000000, h, Nat.mod_lt _ (by decide)⟩
  else
    none

/-- A whole number below `2 ^ 64` as digits that may follow a plus sign. -/
def wholeNumber? (cs : List Char) : Option Nat :=
  let digits :=
    match cs with
    | '+' :: rest => rest
    | _ => cs
  (natOfDigits? digits).filter (· < UInt64.size)

/-- The texts before the first `h` and between it and a final `m`, which make the compound
form. -/
def compoundParts? (cs : List Char) : Option (List Char × List Char) :=
  match cs.dropWhile (· ≠ 'h') with
  | 'h' :: rest =>
    if rest.getLast? = some 'm' then some (cs.takeWhile (· ≠ 'h'), rest.dropLast) else none
  | _ => none

/-- A result of arithmetic in 64 bits, unless it overflows. -/
def checked (n : Nat) : Option (Fin UInt64.size) :=
  if h : n < UInt64.size then some ⟨n, h⟩ else none

/-- The seconds of hours and minutes: two products and their sum, each of which may overflow. -/
def compoundSeconds? (hours minutes : Nat) : Option (Fin UInt64.size) :=
  (checked (hours * 3600)).bind fun h =>
    (checked (minutes * 60)).bind fun m =>
      checked (h.val + m.val)

/-- The duration that the compound form states, by exact arithmetic. -/
def ofCompound (hours minutes : List Char) : Except ThresholdReason Timespan :=
  match wholeNumber? (Text.trimChars hours), wholeNumber? (Text.trimChars minutes) with
  | none, _ => .error .wholeHours
  | some _, none => .error .wholeMinutes
  | some h, some m =>
    match compoundSeconds? h m with
    | some seconds => .ok (ofSeconds seconds)
    | none => .error .tooLarge

/-- The seconds that a unit of durations stands for. -/
def unitSeconds? : List Char → Option Nat
  | ['s'] => some 1
  | ['m'] => some 60
  | ['h'] => some 3600
  | _ => none

/-- The duration of a double-precision product of amount and unit, to the nearest nanosecond, a
tie going to the even one. -/
def ofProduct : Magnitude → Except ThresholdReason Timespan
  | .infinite => .error .tooLarge
  | .finite m e =>
    match ofNanos? (roundEven (dyadicValue m e * 1000000000)) with
    | some t => .ok t
    | none => .error .tooLarge

/-- The duration that a number and a unit state. -/
def ofAmount (cs : List Char) : Except ThresholdReason Timespan :=
  let (number, unit) := splitAmount cs
  match unitSeconds? unit with
  | none => .error .durationUnit
  | some multiplier =>
    match amountOf number with
    | .error reason => .error reason
    | .ok (m, e) =>
      ofProduct (BinaryFormat.double.mul (.finite m e) (BinaryFormat.double.ofNat multiplier))

/-- The duration that the characters of a trimmed literal in lower case state. -/
def parseChars (cs : List Char) : Except ThresholdReason Timespan :=
  match compoundParts? cs with
  | some (hours, minutes) => ofCompound hours minutes
  | none => ofAmount cs

/-- Reads a duration literal.  A refusal quotes the literal as it was written. -/
def parse (s : String) : Except ThresholdFault Timespan :=
  (parseChars (Text.lowerChars (Text.trimChars s.toList))).mapError fun reason =>
    ⟨.duration, s, reason⟩

end Timespan

end MediaPhases
