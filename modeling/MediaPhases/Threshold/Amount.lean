import MediaPhases.Number.Decimal
import MediaPhases.Text.Blank

/-!
# Threshold literals

The parts that size and duration literals share: why a literal is refused, how it is split into
a number and a unit, and how its number is read as a double-precision amount.
-/

namespace MediaPhases

/-- What a threshold literal was meant to state. -/
inductive ThresholdKind where
  | fileSize
  | duration
  | resolution
  /-- The value of a skip predicate. -/
  | predicate (name : String)
deriving DecidableEq, Repr

/-- Why a threshold literal is refused. -/
inductive ThresholdReason where
  | missingNumber
  | notNonnegative
  | tooLarge
  | sizeUnit
  | durationUnit
  | wholeHours
  | wholeMinutes
  | resolutionLabel
  | emptyList
  | emptyText
  | stated (text : String)
deriving DecidableEq, Repr

/-- A refused threshold literal, as it was written. -/
structure ThresholdFault where
  kind : ThresholdKind
  value : String
  reason : ThresholdReason
deriving DecidableEq, Repr

/-- The name of a kind of literal in messages. -/
def ThresholdKind.name : ThresholdKind → String
  | .fileSize => "file size"
  | .duration => "duration"
  | .resolution => "resolution"
  | .predicate name => name

/-- The wording of a reason. -/
def ThresholdReason.message : ThresholdReason → String
  | .missingNumber => "missing numeric value"
  | .notNonnegative => "value must be a non-negative number"
  | .tooLarge => "value too large"
  | .sizeUnit => "unit must be B, KB, MB, GB or TB"
  | .durationUnit => "expected a number followed by s, m or h (or the form 1h30m)"
  | .wholeHours => "expected whole hours before 'h'"
  | .wholeMinutes => "expected whole minutes before 'm'"
  | .resolutionLabel => "expected one of 480p, 720p, 1080p, 1440p, 2160p, 4k, 8k"
  | .emptyList => "list must name at least one value"
  | .emptyText => "value must not be empty"
  | .stated text => text

/-- The wording of a refused literal. -/
def ThresholdFault.message (f : ThresholdFault) : String :=
  s!"invalid {f.kind.name} '{f.value}': {f.reason.message}"

/-- The characters that may stand in the number of a literal. -/
def isAmountChar (c : Char) : Bool :=
  c.isDigit || c == '.'

/-- A literal split into its number, the longest run of digits and points at its start, and its
unit, the trimmed rest. -/
def splitAmount (cs : List Char) : List Char × List Char :=
  (cs.takeWhile isAmountChar, Text.trimChars (cs.dropWhile isAmountChar))

/-- The amount that the number of a literal states, as the nearest double-precision value. -/
def amountOf (number : List Char) : Except ThresholdReason (Nat × Int) :=
  match plainDecimal? number with
  | none => .error .missingNumber
  | some d =>
    match d.nearest .double with
    | .infinite => .error .notNonnegative
    | .finite m e => .ok (m, e)

/-- The number of a literal is followed by what the number leaves. -/
theorem splitAmount_number_append (cs : List Char) :
    (splitAmount cs).1 ++ cs.dropWhile isAmountChar = cs :=
  List.takeWhile_append_dropWhile

end MediaPhases
