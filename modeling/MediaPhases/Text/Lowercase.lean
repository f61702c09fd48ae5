import MediaPhases.Text.CaseTable

/-!
# Lower case

Names, codecs, containers and literals are compared without regard to letter case through the
full Unicode lower-case form.  All letters but two are mapped one by one; the capital I with a
dot becomes two code points, and a capital sigma becomes a final sigma at the end of a word.
-/

namespace MediaPhases.Text

/-- Whether a code point lies in one of the ranges. -/
def inRanges (ranges : List (Nat × Nat)) (n : Nat) : Bool :=
  ranges.any fun r => r.1 ≤ n && n ≤ r.2

/-- The lower-case code point of `n`, when `n` belongs to the run. -/
def CaseRun.lower? (r : CaseRun) (n : Nat) : Option Nat :=
  if r.first ≤ n ∧ n ≤ r.last ∧ (n - r.first) % r.step = 0 then
    some ((n : Int) + r.shift).toNat
  else
    none

/-- The lower-case code point of `n`, when it differs from `n`. -/
def lowerCodePoint? (n : Nat) : Option Nat :=
  caseRuns.findSome? (·.lower? n)

/-- The lower-case form of a letter whose form does not depend on its neighbours. -/
def lowerChar (c : Char) : Char :=
  match lowerCodePoint? c.toNat with
  | some n => Char.ofNat n
  | none => c

/-- Whether the nearest character that is not passed over is a cased letter. -/
def meetsCased (cs : List Char) : Bool :=
  match cs.dropWhile (inRanges caseIgnorableRanges ·.toNat) with
  | [] => false
  | c :: _ => inRanges casedRanges c.toNat

/-- The lower-case form of one character between the characters before it, nearest first, and
the characters after it. -/
def lowerBetween (before : List Char) (c : Char) (after : List Char) : List Char :=
  if c = 'Σ' then
    [if meetsCased before && !meetsCased after then 'ς' else 'σ']
  else if c = 'İ' then
    ['i', Char.ofNat 0x307]
  else
    [lowerChar c]

/-- Lower-cases the characters that follow `before`, which is held nearest first. -/
def lowerAfter (before : List Char) : List Char → List Char
  | [] => []
  | c :: rest => lowerBetween before c rest ++ lowerAfter (c :: before) rest

/-- The lower-case form of a list of characters. -/
def lowerChars (cs : List Char) : List Char :=
  lowerAfter [] cs

/-- The lower-case form of a text. -/
def lowercase (s : String) : String :=
  String.ofList (lowerChars s.toList)

/-- The text with its ASCII capitals, and no other letters, in lower case. -/
def asciiLowercase (s : String) : String :=
  String.ofList (s.toList.map Char.toLower)

/-- Equality of texts up to the case of ASCII letters. -/
def eqIgnoringAsciiCase (s t : String) : Bool :=
  s.toList.map Char.toLower == t.toList.map Char.toLower

@[simp]
theorem lowerChars_nil : lowerChars [] = [] := rfl

end MediaPhases.Text
