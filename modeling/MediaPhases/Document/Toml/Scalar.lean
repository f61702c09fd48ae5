import MediaPhases.Document.Toml.Text
import MediaPhases.Document.Value
import MediaPhases.Identity.Instant

/-!
# TOML scalars

Numbers, dates and times.  An integer has to fit into 64 bits with a sign.  Dates and times are
kept as a table of one entry, whose text is the date in its standard form.
-/

namespace MediaPhases.Toml

/-- The key that marks a date or time. -/
def dateKey : String := "$__toml_private_datetime"

/-- Reads digits of a base with single underscores between them; the underscores are dropped. -/
def scanDigits (base : Nat) : List Char → List Char × List Char
  | [] => ([], [])
  | '_' :: c :: rest =>
    if (baseValue? base c).isSome then
      let (digits, rest) := scanDigits base rest
      (c :: digits, rest)
    else ([], '_' :: c :: rest)
  | c :: rest =>
    if (baseValue? base c).isSome then
      let (digits, rest) := scanDigits base rest
      (c :: digits, rest)
    else ([], c :: rest)

/-- Reads digits of which the first is no underscore; there has to be one. -/
def scanNumeral (base : Nat) (cs : List Char) : Option (List Char × List Char) :=
  if cs.head? = some '_' then none
  else
    let (digits, rest) := scanDigits base cs
    if digits.isEmpty then none else some (digits, rest)

/-- An integer with a sign of 64 bits. -/
def integer? (negative : Bool) (n : Nat) : Option Value :=
  if negative then if n ≤ UInt64.size / 2 then some (.int (-n)) else none
  else if n < UInt64.size / 2 then some (.int n) else none

/-- A floating-point number.  One beyond the largest is refused if it is positive. -/
def floating? (negative : Bool) (d : Decimal) : Option Value :=
  match d.nearest .double with
  | .infinite => if negative then some (.float (.infinite true)) else none
  | x => some (.float (Double.ofMagnitude negative x))

/-- Reads the exponent of a number, if there is one. -/
def scanExponent (cs : List Char) : Option (Option Int × List Char) :=
  match cs with
  | c :: rest =>
    if c = 'e' ∨ c = 'E' then
      let (negative, rest) :=
        match rest with
        | '-' :: rest => (true, rest)
        | '+' :: rest => (false, rest)
        | _ => (false, rest)
      (scanNumeral 10 rest).map fun (digits, rest) =>
        let n : Int := digitsValue digits
        (some (if negative then -n else n), rest)
    else some (none, cs)
  | [] => some (none, [])

/-- Reads the digits after the point of a number, if there is a point. -/
def scanFraction : List Char → Option (Option (List Char) × List Char)
  | '.' :: rest => (scanNumeral 10 rest).map fun (digits, rest) => (some digits, rest)
  | rest => some (none, rest)

/-- Reads a decimal number after its sign.  An integer part of several digits does not start with
zero. -/
def scanDecimal (negative : Bool) (cs : List Char) : Option (Value × List Char) := do
  let (whole, rest) ←
    match cs with
    | '0' :: rest => some (['0'], rest)
    | _ => scanNumeral 10 cs
  let (fraction, rest) ← scanFraction rest
  let (exponent, rest) ← scanExponent rest
  let value ←
    if fraction.isNone && exponent.isNone then integer? negative (digitsValue whole)
    else
      let places := fraction.getD []
      floating? negative ⟨digitsValue (whole ++ places), exponent.getD 0 - places.length⟩
  return (value, rest)

/-- Reads a number of a base, for which there is no sign. -/
def scanOfBase (base : Nat) (cs : List Char) : Option (Value × List Char) := do
  let (digits, rest) ← scanNumeral base cs
  let value ← integer? false (← numberOfBase? base digits)
  return (value, rest)

/-- Reads the words for numbers that are not finite. -/
def scanSpecial? (negative : Bool) : List Char → Option (Value × List Char)
  | 'i' :: 'n' :: 'f' :: rest => some (.float (.infinite negative), rest)
  | 'n' :: 'a' :: 'n' :: rest => some (.float .notANumber, rest)
  | _ => none

/-- Reads a number. -/
def scanNumber : List Char → Option (Value × List Char)
  | '0' :: 'x' :: rest => scanOfBase 16 rest
  | '0' :: 'o' :: rest => scanOfBase 8 rest
  | '0' :: 'b' :: rest => scanOfBase 2 rest
  | '-' :: rest => (scanSpecial? true rest).or (scanDecimal true rest)
  | '+' :: rest => (scanSpecial? false rest).or (scanDecimal false rest)
  | cs => (scanSpecial? false cs).or (scanDecimal false cs)

/-- Reads a number of a fixed count of digits within bounds. -/
def scanFixed (count low high : Nat) (cs : List Char) : Option (Nat × List Char) :=
  let digits := cs.take count
  if digits.length = count ∧ digits.all Char.isDigit then
    let n := digitsValue digits
    if low ≤ n ∧ n ≤ high then some (n, cs.drop count) else none
  else none

/-- The text after one given character. -/
def after? (c : Char) : List Char → Option (List Char)
  | d :: rest => if d = c then some rest else none
  | [] => none

/-- Reads a date that exists, as its standard text. -/
def scanDate (cs : List Char) : Option (List Char × List Char) := do
  let (year, rest) ← scanFixed 4 0 9999 cs
  let (month, rest) ← scanFixed 2 1 12 (← after? '-' rest)
  let (day, rest) ← scanFixed 2 1 31 (← after? '-' rest)
  if Instant.isDate year month day then
    some (Instant.padded 4 year ++ '-' :: Instant.padded 2 month ++ '-' :: Instant.padded 2 day,
      rest)
  else none

/-- The digits after the second as their standard text: at most nine, none of them a final
zero. -/
def fractionText (digits : List Char) : List Char :=
  let kept := ((digits.take 9).reverse.dropWhile (· == '0')).reverse
  if kept.isEmpty then [] else '.' :: kept

/-- Reads a time of day as its standard text. -/
def scanTime (cs : List Char) : Option (List Char × List Char) := do
  let (hour, rest) ← scanFixed 2 0 23 cs
  let (minute, rest) ← scanFixed 2 0 59 (← after? ':' rest)
  let (second, rest) ← scanFixed 2 0 60 (← after? ':' rest)
  let text :=
    Instant.padded 2 hour ++ ':' :: Instant.padded 2 minute ++ ':' :: Instant.padded 2 second
  match rest with
  | '.' :: tail =>
    let digits := tail.takeWhile Char.isDigit
    if digits.isEmpty then some (text, rest)
    else some (text ++ fractionText digits, tail.dropWhile Char.isDigit)
  | _ => some (text, rest)

/-- Reads an offset from universal time as its standard text; there may be none. -/
def scanOffset (cs : List Char) : List Char × List Char :=
  match cs with
  | 'Z' :: rest => (['Z'], rest)
  | 'z' :: rest => (['Z'], rest)
  | sign :: rest =>
    if sign = '+' ∨ sign = '-' then
      match (do
        let (hour, rest) ← scanFixed 2 0 23 rest
        let (minute, rest) ← scanFixed 2 0 59 (← after? ':' rest)
        let shown := if hour = 0 ∧ minute = 0 then '+' else sign
        some (shown :: Instant.padded 2 hour ++ ':' :: Instant.padded 2 minute, rest)) with
      | some read => read
      | none => ([], cs)
    else ([], cs)
  | [] => ([], [])

/-- A date or time as a value. -/
def dateValue (text : List Char) : Value :=
  .special .moment (.table [(dateKey, .text (String.ofList text))])

/-- Reads a date, a time, or both with or without an offset. -/
def scanDateTime (cs : List Char) : Option (Value × List Char) :=
  match scanDate cs with
  | some (date, rest) =>
    let time? :=
      match rest with
      | c :: tail => if c = 'T' ∨ c = 't' ∨ c = ' ' then scanTime tail else none
      | [] => none
    match time? with
    | some (time, rest) =>
      let (offset, rest) := scanOffset rest
      some (dateValue (date ++ 'T' :: time ++ offset), rest)
    | none => some (dateValue date, rest)
  | none => (scanTime cs).map fun (time, rest) => (dateValue time, rest)

/-- Reads a number, a date, a time or a truth value. -/
def scanScalar : List Char → Option (Value × List Char)
  | 't' :: 'r' :: 'u' :: 'e' :: rest => some (.bool true, rest)
  | 'f' :: 'a' :: 'l' :: 's' :: 'e' :: rest => some (.bool false, rest)
  | cs => (scanDateTime cs).or (scanNumber cs)

end MediaPhases.Toml
