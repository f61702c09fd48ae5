import MediaPhases.Number.Hexadecimal

/-!
# Identifiers

Runs and batches carry a 128-bit identifier.  It is read from 32 hexadecimal digits, plain or in
the five groups of the hyphenated form, which may stand in braces or after `urn:uuid:` in any
letter case; it is always shown hyphenated and in lower case.
-/

namespace MediaPhases

/-- A 128-bit identifier. -/
structure Uuid where
  value : Nat
  value_lt : value < 1 <<< 128
deriving DecidableEq

/-- Why a text is no identifier. -/
inductive UuidFault where
  | character (c : Char) (position : Nat)
  | length (count : Nat)
  | groupCount (count : Nat)
  | groupLength (group expected count : Nat)
deriving DecidableEq, Repr

/-- The wording of a refused identifier. -/
def UuidFault.message : UuidFault → String
  | .character c position => s!"invalid character: found `{c}` at {position}"
  | .length count => s!"invalid length: found {count}"
  | .groupCount count => s!"invalid group count: expected 5, found {count}"
  | .groupLength group expected count =>
    s!"invalid group length in group {group}: expected {expected}, found {count}"

namespace Uuid

/-- The identifier of all zeros. -/
def zero : Uuid := ⟨0, by decide⟩

/-- The number that hexadecimal digits stand for, if they are 32 digits. -/
def ofHex? (digits : List Char) : Option Uuid :=
  match digits.mapM hexValue? with
  | none => none
  | some values =>
    let n := values.foldl (fun n d => n * 16 + d) 0
    if h : digits.length = 32 ∧ n < 1 <<< 128 then some ⟨n, h.2⟩ else none

/-- The lengths of the groups of the hyphenated form. -/
def groupLengths : List Nat := [8, 4, 4, 4, 12]

/-- The identifier of a text in the hyphenated form. -/
def ofHyphenated? (cs : List Char) : Option Uuid :=
  let groups := cs.splitOn '-'
  if groups.map List.length = groupLengths then ofHex? groups.flatten else none

/-- The text within braces or after the scheme of names, or else the whole text, and the number of
bytes before it. -/
def body (cs : List Char) : List Char × Nat :=
  match cs with
  | '\x7b' :: rest =>
    if rest.getLast? = some '\x7d' then (rest.dropLast, 1) else (cs, 0)
  | _ =>
    let scheme := "urn:uuid:".toList
    if scheme.isPrefixOf (cs.map Char.toLower) then (cs.drop scheme.length, scheme.length)
    else (cs, 0)

/-- The number of bytes of a text. -/
def byteCount (cs : List Char) : Nat :=
  (cs.map Char.utf8Size).foldr (· + ·) 0

/-- The first character, with its position from the given one on, that is neither a hexadecimal
digit nor a hyphen; positions count the bytes of the text. -/
def strangeChar? : List Char → Nat → Option (Char × Nat)
  | [], _ => none
  | c :: rest, position =>
    if c = '-' ∨ (hexValue? c).isSome then strangeChar? rest (position + c.utf8Size)
    else some (c, position)

/-- The first of the groups whose length is wrong; when none of the first four is, the fault
lies in the last one, which counts as going on to the end of the text. -/
def groupFault (last : Nat) : Nat → List Nat → List (List Char) → UuidFault
  | i, n :: ns, g :: gs =>
    if ns = [] then .groupLength i n last
    else if g.length = n then groupFault last (i + 1) ns gs
    else .groupLength i n g.length
  | i, _, _ => .groupLength i 12 last

/-- The number of bytes of the hyphenated form. -/
def hyphenatedSize : Nat := 36

/-- The number of bytes of the longest form, the hyphenated one after the scheme. -/
def maxSize : Nat := 45

/-- The number of bytes before the last group of the hyphenated form. -/
def lastGroupStart : Nat := 24

/-- Why a text that is no identifier is refused.  Within braces or after the scheme a text of the
right size is looked at on its own; otherwise positions and the last group are counted in the
whole text. -/
def faultOf (cs : List Char) : UuidFault :=
  let (inner, before) := body cs
  let size := byteCount cs
  let isFitting := byteCount inner = hyphenatedSize
  let offset := if isFitting then 0 else before
  if maxSize < size then .length size
  else
    match strangeChar? inner offset with
    | some (c, position) => .character c position
    | none =>
      let groups := inner.splitOn '-'
      if groups.length = 1 ∧ before = 0 ∧ !isFitting then .length size
      else if groups.length ≠ groupLengths.length then .groupCount groups.length
      else
        let whole := if isFitting then hyphenatedSize else size
        groupFault (whole - lastGroupStart) 0 groupLengths groups

/-- Reads an identifier. -/
def parse (s : String) : Except UuidFault Uuid :=
  let cs := s.toList
  let (inner, before) := body cs
  match (if before = 0 then ofHex? cs else none).or (ofHyphenated? inner) with
  | some u => .ok u
  | none => .error (faultOf cs)

/-- The hexadecimal digits of the lowest `count` digits of a number. -/
def hexText : Nat → Nat → List Char
  | 0, _ => []
  | count + 1, n => hexText count (n / 16) ++ [Nat.digitChar (n % 16)]

/-- The identifier in the hyphenated form. -/
def render (u : Uuid) : String :=
  let cs := hexText 32 u.value
  String.ofList (cs.take 8 ++ '-' :: (cs.drop 8).take 4 ++ '-' :: (cs.drop 12).take 4 ++
    '-' :: (cs.drop 16).take 4 ++ '-' :: cs.drop 20)

end Uuid

end MediaPhases
