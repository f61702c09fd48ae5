/-!
# UTF-8

Text as bytes.  Bytes that are no text can be refused or shown: the longest start of a character
that cannot be completed is shown as one replacement character.
-/

namespace MediaPhases.Text

/-- The bytes of a text. -/
def encodeUtf8 (s : String) : List UInt8 :=
  s.toUTF8.toList

/-- Whether a byte lies in a range. -/
def byteIn (low high : UInt8) (b : UInt8) : Bool :=
  low ≤ b && b ≤ high

/-- The ranges of the bytes that may follow a first byte. -/
def followers : UInt8 → List (UInt8 × UInt8)
  | b =>
    let any : UInt8 × UInt8 := (0x80, 0xBF)
    if byteIn 0xC2 0xDF b then [any]
    else if b = 0xE0 then [(0xA0, 0xBF), any]
    else if b = 0xED then [(0x80, 0x9F), any]
    else if byteIn 0xE1 0xEF b then [any, any]
    else if b = 0xF0 then [(0x90, 0xBF), any, any]
    else if b = 0xF4 then [(0x80, 0x8F), any, any]
    else if byteIn 0xF1 0xF3 b then [any, any, any]
    else []

/-- The bits of a first byte that belong to the code of a character of some more bytes. -/
def leadBits (more : Nat) (b : UInt8) : Nat :=
  b.toNat % 1 <<< (6 - more)

/-- How many of the ranges in turn are met by the bytes. -/
def metRanges : List (UInt8 × UInt8) → List UInt8 → Nat
  | (low, high) :: ranges, b :: rest =>
    if byteIn low high b then metRanges ranges rest + 1 else 0
  | _, _ => 0

/-- The character that starts with a byte, if the bytes after it complete it, and the number of
these bytes that belong to it or to its start. -/
def decodeStep (b : UInt8) (rest : List UInt8) : Option Char × Nat :=
  if b < 0x80 then (some (Char.ofNat b.toNat), 0)
  else
    let ranges := followers b
    let met := metRanges ranges rest
    if ranges ≠ [] ∧ met = ranges.length then
      let code := (rest.take met).foldl (fun n c => n * 64 + c.toNat % 64) (leadBits met b)
      (some (Char.ofNat code), met)
    else (none, met)

/-- The text of bytes, with `replace` in place of what is no character; nothing if there is such
a place and no replacement. -/
def decodeWith (replace : Option Char) : List UInt8 → Option (List Char)
  | [] => some []
  | b :: rest => do
    let step := decodeStep b rest
    let c ← step.1.or replace
    let cs ← decodeWith replace (rest.drop step.2)
    return c :: cs
termination_by bytes => bytes.length
decreasing_by simp only [List.length_drop, List.length_cons]; omega

/-- The text of bytes that are text. -/
def decodeUtf8? (bytes : List UInt8) : Option String :=
  (decodeWith none bytes).map String.ofList

/-- The text of bytes, whatever they are. -/
def decodeLossy (bytes : List UInt8) : String :=
  String.ofList ((decodeWith (some '\uFFFD') bytes).getD [])

end MediaPhases.Text
