import MediaPhases.Number.Decimal
import MediaPhases.Text.Blank

/-!
# Instants

The moment at which a run started, to the nanosecond, as documents hold it: a date, a time and
an offset from universal time.  It is always shown in universal time, with as many digits after
the second as three, six or nine need.
-/

namespace MediaPhases

/-- Seconds since the beginning of 1970 in universal time, and nanoseconds. -/
structure Instant where
  seconds : Int
  nanos : Nat
deriving DecidableEq, Repr

/-- Why a text is no instant. -/
inductive InstantFault where
  | invalid
  | outOfRange
  | tooShort
  | tooLong
  | impossible
deriving DecidableEq, Repr

/-- The wording of a refused instant. -/
def InstantFault.message : InstantFault → String
  | .invalid => "input contains invalid characters"
  | .outOfRange => "input is out of range"
  | .tooShort => "premature end of input"
  | .tooLong => "trailing input"
  | .impossible => "no possible date and time matching input"

namespace Instant

/-- The beginning of 1970. -/
def epoch : Instant := ⟨0, 0⟩

/-- The days from the beginning of 1970 to a date of the Gregorian calendar.  Years are counted
from March, so that the leap day is the last of its year. -/
def daysOfDate (year month day : Int) : Int :=
  let y := if month ≤ 2 then year - 1 else year
  let era := y.fdiv 400
  let yearOfEra := y - era * 400
  let shifted := if month ≤ 2 then month + 9 else month - 3
  let dayOfYear := (153 * shifted + 2) / 5 + day - 1
  let dayOfEra := yearOfEra * 365 + yearOfEra / 4 - yearOfEra / 100 + dayOfYear
  era * 146097 + dayOfEra - 719468

/-- The year, month and day of a day counted from the beginning of 1970. -/
def dateOfDays (days : Int) : Int × Int × Int :=
  let z := days + 719468
  let era := z.fdiv 146097
  let dayOfEra := z - era * 146097
  let yearOfEra := (dayOfEra - dayOfEra / 1460 + dayOfEra / 36524 - dayOfEra / 146096) / 365
  let dayOfYear := dayOfEra - (365 * yearOfEra + yearOfEra / 4 - yearOfEra / 100)
  let shifted := (5 * dayOfYear + 2) / 153
  let day := dayOfYear - (153 * shifted + 2) / 5 + 1
  let month := if shifted < 10 then shifted + 3 else shifted - 9
  let year := yearOfEra + era * 400
  (if month ≤ 2 then year + 1 else year, month, day)

/-- Whether a date exists. -/
def isDate (year month day : Int) : Bool :=
  1 ≤ month && month ≤ 12 && 1 ≤ day &&
    dateOfDays (daysOfDate year month day) == (year, month, day)

/-- Reads a number of at least one and at most `limit` digits. -/
def number (limit : Nat) : List Char → Except InstantFault (Nat × List Char)
  | [] => .error .tooShort
  | cs@(c :: _) =>
    let digits := (cs.takeWhile Char.isDigit).take limit
    if c.isDigit then .ok (digitsValue digits, cs.drop digits.length) else .error .invalid

/-- Reads a part of a date or time: one or two digits after white space, within bounds. -/
def part (low high : Nat) (cs : List Char) : Except InstantFault (Nat × List Char) := do
  let (n, rest) ← number 2 (Text.trimStart cs)
  if low ≤ n ∧ n ≤ high then .ok (n, rest) else .error .outOfRange

/-- Reads a year: up to four digits, or any number of digits after a sign as far as a signed word
of 32 bits goes. -/
def yearPart (cs : List Char) : Except InstantFault (Int × List Char) := do
  match Text.trimStart cs with
  | '-' :: rest =>
    let (n, rest) ← number rest.length rest
    if n ≤ UInt32.size / 2 then .ok (-n, rest) else .error .outOfRange
  | '+' :: rest =>
    let (n, rest) ← number rest.length rest
    if n < UInt32.size / 2 then .ok (n, rest) else .error .outOfRange
  | cs =>
    let (n, rest) ← number 4 cs
    .ok (n, rest)

/-- Reads one given character. -/
def expect (c : Char) : List Char → Except InstantFault (List Char)
  | [] => .error .tooShort
  | d :: rest => if d = c then .ok rest else .error .invalid

/-- Reads what stands between the date and the time. -/
def divider : List Char → Except InstantFault (List Char)
  | [] => .error .tooShort
  | c :: rest => if c = 'T' ∨ c = 't' ∨ c = ' ' then .ok rest else .error .invalid

/-- Reads the nanoseconds after a point, if there is one; digits beyond the ninth are dropped. -/
def fraction : List Char → Except InstantFault (Nat × List Char)
  | '.' :: rest => do
    let digits := rest.takeWhile Char.isDigit
    let _ ← number 9 rest
    .ok (digitsValue ((digits ++ List.replicate 9 '0').take 9), rest.drop digits.length)
  | rest => .ok (0, rest)

/-- Reads two digits; a character outside ASCII is long enough to be two wrong ones. -/
def twoDigits : List Char → Except InstantFault (Nat × List Char)
  | a :: b :: rest =>
    if a.isDigit && b.isDigit then .ok (digitsValue [a, b], rest) else .error .invalid
  | [a] => .error (if a.utf8Size = 1 then .tooShort else .invalid)
  | [] => .error .tooShort

/-- The sign of an offset; a minus sign proper stands for a hyphen. -/
def sign? (c : Char) : Option Int :=
  if c = '+' then some 1 else if c = '-' ∨ c = Char.ofNat 0x2212 then some (-1) else none

/-- Reads an offset from universal time in seconds.  Hours and minutes are divided by any number
of colons and white space. -/
def signedOffset : List Char → Except InstantFault (Int × List Char)
  | [] => .error .tooShort
  | c :: rest => do
    match sign? c with
    | none => .error .invalid
    | some sign =>
      let (hours, rest) ← twoDigits rest
      let (minutes, rest) ← twoDigits (rest.dropWhile fun c => c == ':' || Text.isBlank c)
      if minutes < 60 then .ok (sign * (hours * 3600 + minutes * 60), rest)
      else .error .outOfRange

/-- Reads an offset, or one of the names of universal time. -/
def offset (cs : List Char) : Except InstantFault (Int × List Char) :=
  if (cs.take 3).map Char.toLower = ['u', 't', 'c'] then .ok (0, cs.drop 3)
  else
    match cs with
    | 'Z' :: rest => .ok (0, rest)
    | 'z' :: rest => .ok (0, rest)
    | _ => signedOffset cs

/-- The first day that there is, in days from the beginning of 1970. -/
def firstDay : Int := daysOfDate (-262143) 1 1

/-- The last day that there is, in days from the beginning of 1970. -/
def lastDay : Int := daysOfDate 262142 12 31

/-- Whether a day counted from the beginning of 1970 is one that there is. -/
def isDay (days : Int) : Bool := firstDay ≤ days && days ≤ lastDay

/-- The instant of a date and a time of day in seconds, at an offset from universal time.  The
leap second of any minute is the one after its second 59. -/
def ofLocal (date : Int × Int × Int) (hour minute second nanos : Nat) (shift : Int) :
    Except InstantFault Instant :=
  let (year, month, day) := date
  let days := daysOfDate year month day
  if !isDate year month day || !isDay days || shift ≤ -86400 || 86400 ≤ shift then
    .error .outOfRange
  else
    let extra := if second = 60 then 1000000000 else 0
    let seconds : Int :=
      days * 86400 + ((hour * 3600 + minute * 60 + min second 59 : Nat) : Int) - shift
    if isDay (seconds.fdiv 86400) then .ok ⟨seconds, nanos + extra⟩ else .error .impossible

/-- Reads an instant. -/
def parse (s : String) : Except InstantFault Instant := do
  let (year, cs) ← yearPart s.toList
  let cs ← expect '-' (Text.trimStart cs)
  let (month, cs) ← part 1 12 cs
  let cs ← expect '-' (Text.trimStart cs)
  let (day, cs) ← part 1 31 cs
  let cs ← divider cs
  let (hour, cs) ← part 0 23 cs
  let cs ← expect ':' (Text.trimStart cs)
  let (minute, cs) ← part 0 59 cs
  let cs ← expect ':' (Text.trimStart cs)
  let (second, cs) ← part 0 60 cs
  let (nanos, cs) ← fraction cs
  let (shift, cs) ← offset (Text.trimStart cs)
  if Text.trimStart cs ≠ [] then .error .tooLong
  else ofLocal (year, month, day) hour minute second nanos shift

/-- The digits of a number filled up with zeros to a width. -/
def padded (width n : Nat) : List Char :=
  let digits := decimalDigits n
  List.replicate (width - digits.length) '0' ++ digits

/-- The digits after the second: none, three, six or nine. -/
def fractionText (nanos : Nat) : List Char :=
  if nanos = 0 then []
  else if nanos % 1000000 = 0 then '.' :: padded 3 (nanos / 1000000)
  else if nanos % 1000 = 0 then '.' :: padded 6 (nanos / 1000)
  else '.' :: padded 9 nanos

/-- The instant in universal time. -/
def render (t : Instant) : String :=
  let days := t.seconds.fdiv 86400
  let rest := (t.seconds - days * 86400).toNat
  let (year, month, day) := dateOfDays days
  let leap := t.nanos / 1000000000
  let yearText :=
    if 0 ≤ year ∧ year ≤ 9999 then padded 4 year.toNat
    else (if year < 0 then '-' else '+') :: padded 4 year.natAbs
  String.ofList (yearText ++ '-' :: padded 2 month.toNat ++ '-' :: padded 2 day.toNat ++
    'T' :: padded 2 (rest / 3600) ++ ':' :: padded 2 (rest % 3600 / 60) ++
    ':' :: padded 2 (rest % 60 + leap) ++ fractionText (t.nanos % 1000000000) ++ ['Z'])

end Instant

end MediaPhases
