import MediaPhases.Number.Places
import MediaPhases.Programs.Arithmetic
import MediaPhases.Text.Utf8

/-!
# Formats

Formats are texts with escapes and with directives, each of which takes an argument and sets it
within a field.  A format is filled again and again until the arguments are used up.
-/

namespace MediaPhases.Format

/-- The byte that a letter stands for after a backslash. -/
def letterByte? : Char → Option UInt8
  | 'a' => some 7
  | 'b' => some 8
  | 't' => some 9
  | 'n' => some 10
  | 'v' => some 11
  | 'f' => some 12
  | 'r' => some 13
  | 'e' => some 27
  | '\\' => some 92
  | _ => none

/-- The octal digits at the start of some characters, at most a given number. -/
def octalDigits (most : Nat) (cs : List Char) : List Char :=
  (cs.take most).takeWhile fun c => (baseValue? 8 c).isSome

/-- The byte of octal digits. -/
def octalByte (digits : List Char) : UInt8 :=
  UInt8.ofNat ((numberOfBase? 8 digits).getD 0)

/-- The bytes of a text with backslash escapes, which are a letter or up to three octal digits,
with a nought before them or without.  The escape `\\c` ends the text and keeps anything from
following it, which the second part of the result tells. -/
def unescape : List Char → List UInt8 × Bool
  | [] => ([], false)
  | ['\\'] => ([92], false)
  | '\\' :: c :: rest =>
    if c = 'c' then ([], true)
    else
      match letterByte? c with
      | some b =>
        let (bytes, isOver) := unescape rest
        (b :: bytes, isOver)
      | none =>
        if (baseValue? 8 c).isSome then
          let digits := octalDigits (if c = '0' then 3 else 2) rest
          let (bytes, isOver) := unescape (rest.drop digits.length)
          (octalByte (c :: digits) :: bytes, isOver)
        else
          let (bytes, isOver) := unescape (c :: rest)
          (92 :: bytes, isOver)
  | c :: rest =>
    let (bytes, isOver) := unescape rest
    (Text.encodeUtf8 (String.singleton c) ++ bytes, isOver)
termination_by cs => cs.length
decreasing_by all_goals simp only [List.length_drop, List.length_cons]; omega

/-- How a value is set within a field. -/
structure Style where
  isLeft : Bool := false
  /-- A sign stands before a number that is not negative too. -/
  hasSign : Bool := false
  /-- A blank stands where there is no sign. -/
  hasBlank : Bool := false
  /-- Noughts fill the field. -/
  hasNoughts : Bool := false
  /-- A mark tells the base of a number. -/
  hasMark : Bool := false
  width : Nat := 0
  places : Option Nat := none

namespace Style

/-- The style with a flag, if the character is one. -/
def flag? (style : Style) (c : Char) : Option Style :=
  match c with
  | '-' => some { style with isLeft := true }
  | '+' => some { style with hasSign := true }
  | ' ' => some { style with hasBlank := true }
  | '0' => some { style with hasNoughts := true }
  | '#' => some { style with hasMark := true }
  | _ => none

/-- Sets a text in a field. -/
def setText (style : Style) (bytes : List UInt8) : List UInt8 :=
  let bytes := match style.places with
    | some n => bytes.take n
    | none => bytes
  let blanks : List UInt8 := List.replicate (style.width - bytes.length) 32
  if style.isLeft then bytes ++ blanks else blanks ++ bytes

/-- Sets digits in a field, given what stands before them; noughts fill the room between. -/
def setDigits (style : Style) (head : String) (digits : List Char) : List UInt8 :=
  let least := if style.hasNoughts ∧ !style.isLeft then style.width - head.length else 0
  let noughts := List.replicate (least - digits.length) '0'
  { style with places := none }.setText
    (Text.encodeUtf8 (head ++ String.ofList (noughts ++ digits)))

/-- Sets a whole number in a field, given what stands before its digits.  Where there is a least
number of digits, no more noughts fill the field. -/
def setNumber (style : Style) (head : String) (base n : Nat) : List UInt8 :=
  let digits := if style.places = some 0 ∧ n = 0 then [] else Nat.toDigits base n
  let noughts := List.replicate (style.places.getD 0 - digits.length) '0'
  { style with hasNoughts := style.hasNoughts && style.places.isNone }.setDigits head
    (noughts ++ digits)

/-- What stands before the digits of a number. -/
def signOf (style : Style) (isNegative : Bool) : String :=
  if isNegative then "-" else if style.hasSign then "+" else if style.hasBlank then " " else ""

/-- The digits after a point, which is left out before none unless it is asked for. -/
def pointed (style : Style) (digits : List Char) : List Char :=
  if digits = [] ∧ !style.hasMark then [] else '.' :: digits

/-- An exponent after a letter, with its sign and a least number of digits. -/
def exponentText (letter : Char) (least : Nat) (exponent : Int) : List Char :=
  let digits := decimalDigits exponent.natAbs
  letter :: (if exponent < 0 then '-' else '+') ::
    (List.replicate (least - digits.length) '0' ++ digits)

/-- The digits of a nonnegative number in the form that a letter names. -/
def realDigits (style : Style) (letter : Char) (x : Rat) : List Char :=
  let places := style.places.getD 6
  let strip (digits : List Char) : List Char :=
    if style.hasMark then digits else (digits.reverse.dropWhile (· = '0')).reverse
  match letter with
  | 'f' =>
    let (whole, part) := fixedPlaces x places
    whole ++ style.pointed part
  | 'e' =>
    let (whole, part, exponent) := scientificPlaces x places
    whole ++ style.pointed part ++ exponentText 'e' 2 exponent
  | 'g' =>
    let least := Nat.max 1 places
    let (whole, part, exponent) := scientificPlaces x (least - 1)
    if exponent < -4 ∨ (least : Int) ≤ exponent then
      whole ++ style.pointed (strip part) ++ exponentText 'e' 2 exponent
    else
      let (whole, part) := fixedPlaces x ((least : Int) - 1 - exponent).toNat
      whole ++ style.pointed (strip part)
  | _ =>
    let (whole, part, exponent) := hexadecimalPlaces .double x (style.places.getD 13)
    let part := if style.places.isNone then strip part else part
    whole ++ style.pointed part ++ exponentText 'p' 1 exponent

/-- Sets a number in a field, in the form that a letter names. -/
def setReal (style : Style) (letter : Char) (x : Double) : List UInt8 :=
  let plain := { style with hasNoughts := false }
  match x with
  | .notANumber => plain.setDigits (style.signOf false) "nan".toList
  | .infinite isNegative => plain.setDigits (style.signOf isNegative) "inf".toList
  | .finite isNegative m e =>
    let head := style.signOf isNegative ++ (if letter = 'a' then "0x" else "")
    style.setDigits head (style.realDigits letter (dyadicValue m e))

end Style

/-- How a program words what it finds wrong. -/
structure Voice where
  noNumber : String → String
  noWholeNumber : String → String
  noDirective : String → String
  noLetter : String
  /-- The code after something that is no directive. -/
  flawCode : Nat
  /-- The escape that ends a text ends a format too. -/
  endsFormat : Bool

/-- A format that is being filled. -/
structure Filling where
  args : List String
  /-- What has been written, the last part first. -/
  parts : List (List UInt8) := []
  complaints : List String := []
  code : Nat := 0
  isOver : Bool := false

namespace Filling

/-- Goes on with bytes. -/
def push (f : Filling) (bytes : List UInt8) : Filling :=
  { f with parts := bytes :: f.parts }

/-- Puts the letters of the last part into upper case. -/
def raiseLast (f : Filling) : Filling :=
  match f.parts with
  | part :: parts =>
    { f with parts := part.map (fun b => if 97 ≤ b ∧ b ≤ 122 then b - 32 else b) :: parts }
  | [] => f

/-- Notes a complaint that keeps nothing from going on. -/
def complain (f : Filling) (text : String) : Filling :=
  { f with complaints := f.complaints ++ [text], code := 1 }

/-- Ends with a complaint. -/
def fail (f : Filling) (code : Nat) (text : String) : Filling :=
  { f with complaints := f.complaints ++ [text], code := code, isOver := true }

/-- What has been written. -/
def written (f : Filling) : List UInt8 :=
  f.parts.reverse.flatten

/-- The next argument, which is empty if there is none left. -/
def next (f : Filling) : String × Filling :=
  (f.args.headD "", { f with args := f.args.tail })

end Filling

/-- The integer at the start of a text, and the text after it. -/
def leadingInteger (cs : List Char) : Int × List Char :=
  let read (isNegative : Bool) (digits : List Char) : Int × List Char :=
    let (n, rest) := Arithmetic.literal digits
    if rest.length = digits.length then (0, cs) else (if isNegative then -n else n, rest)
  match cs.dropWhile fun c => c = ' ' ∨ c = '\t' ∨ c = '\n' with
  | '-' :: rest => read true rest
  | '+' :: rest => read false rest
  | rest => read false rest

/-- The number of a text that stands for the code of its second character, if the first one is a
quotation mark. -/
def quotedCode? (text : String) : Option Nat :=
  match text.toList with
  | '"' :: rest | '\'' :: rest =>
    some ((Text.encodeUtf8 (String.ofList rest)).headD 0).toNat
  | _ => none

/-- Notes what is wrong with an argument of which only a part, or nothing, is a number. -/
def checkRest (voice : Voice) (text : String) (rest : List Char) (isInRange : Bool)
    (f : Filling) : Filling :=
  if rest = [] then
    if isInRange then f else f.complain s!"{text}: Numerical result out of range"
  else if rest.length = text.length then f.complain (voice.noNumber text)
  else f.complain (voice.noWholeNumber text)

/-- The next argument as an integer within a range, which may be the code of a character.  Of one
below the range a given number is left, and of one above it the greatest. -/
def nextInteger (voice : Voice) (low high left : Int) (f : Filling) : Int × Filling :=
  let (text, f) := f.next
  match quotedCode? text with
  | some n => (n, f)
  | none =>
    let (n, rest) := leadingInteger text.toList
    let inRange := if n < low then left else min high n
    (inRange, checkRest voice text rest (decide (inRange = n)) f)

/-- The digits of a base at the start of a text, with those after a point, as a number and how
many of them stand after the point; and the text after them.  There has to be a digit. -/
def leadingDigits? (base : Nat) (cs : List Char) : Option (Nat × Nat × List Char) :=
  let digitsOf (cs : List Char) : List Char :=
    cs.takeWhile fun c => (baseValue? base c).isSome
  let whole := digitsOf cs
  let rest := cs.drop whole.length
  let (part, rest) := match rest with
    | '.' :: after => (digitsOf after, after.drop (digitsOf after).length)
    | rest => ([], rest)
  if whole = [] ∧ part = [] then none
  else some ((numberOfBase? base (whole ++ part)).getD 0, part.length, rest)

/-- The exponent after a letter at the start of a text, and the text after it. -/
def leadingExponent (letter : Char) (cs : List Char) : Int × List Char :=
  let read (isNegative : Bool) (rest : List Char) : Int × List Char :=
    match rest.takeWhile Char.isDigit with
    | [] => (0, cs)
    | digits =>
      let n : Int := digitsValue digits
      (if isNegative then -n else n, rest.drop digits.length)
  match cs with
  | c :: rest =>
    if c.toLower ≠ letter then (0, cs)
    else
      match rest with
      | '-' :: rest => read true rest
      | '+' :: rest => read false rest
      | rest => read false rest
  | [] => (0, cs)

/-- The words for what is no finite number, and whether they mean one that is infinite. -/
def unusualWords : List (String × Bool) :=
  [("infinity", true), ("inf", true), ("nan", false)]

/-- The power of two or ten to which a number has at most to be raised. -/
def exponentLimit : Int := 5000

/-- The number at the start of a text without a sign, whether it is within the range of numbers,
and the text after it. -/
def leadingMagnitude? (cs : List Char) : Option (Double × Bool × List Char) :=
  let lower := cs.map Char.toLower
  match unusualWords.find? fun w => w.1.toList.isPrefixOf lower with
  | some (word, isInfinite) =>
    some (if isInfinite then .infinite false else .notANumber, true, cs.drop word.length)
  | none =>
    let hexadecimal? :=
      if ['0', 'x'].isPrefixOf lower then leadingDigits? 16 (cs.drop 2) else none
    let finish (exact : Rat) (magnitude : Magnitude) (rest : List Char) :
        Option (Double × Bool × List Char) :=
      let isInRange := match magnitude with
        | .infinite => false
        | .finite m e =>
          exact = 0 || decide ((1 : Rat) ≤ exact * (2 : Rat) ^ (1022 : Int)) ||
            decide (dyadicValue m e = exact)
      some (.ofMagnitude false magnitude, isInRange, rest)
    match hexadecimal? with
    | some (n, places, rest) =>
      let (exponent, rest) := leadingExponent 'p' rest
      let exponent := max (-exponentLimit) (min exponentLimit exponent) - 4 * (places : Int)
      let exact := (n : Rat) * (2 : Rat) ^ exponent
      finish exact (BinaryFormat.double.nearest exact) rest
    | none =>
      match leadingDigits? 10 cs with
      | none => none
      | some (n, places, rest) =>
        let (exponent, rest) := leadingExponent 'e' rest
        let exponent := max (-exponentLimit) (min exponentLimit exponent)
        let d : Decimal := ⟨n, exponent - (places : Int)⟩
        finish d.toRat (d.nearest .double) rest

/-- The next argument as a number, which may be the code of a character. -/
def nextReal (voice : Voice) (f : Filling) : Double × Filling :=
  let (text, f) := f.next
  match quotedCode? text with
  | some n => (.ofInt n, f)
  | none =>
    let cs := text.toList.dropWhile fun c => c = ' ' ∨ c = '\t' ∨ c = '\n'
    let (isNegative, digits) := match cs with
      | '-' :: rest => (true, rest)
      | '+' :: rest => (false, rest)
      | rest => (false, rest)
    match leadingMagnitude? digits with
    | none => (.finite false 0 0, checkRest voice text text.toList true f)
    | some (x, isInRange, rest) =>
      let x : Double := match x with
        | .notANumber => .notANumber
        | .infinite _ => .infinite isNegative
        | .finite _ m e => .finite isNegative m e
      (x, checkRest voice text rest isInRange f)

/-- The flags of a directive, and the text after them. -/
def flags (style : Style) : List Char → Style × List Char
  | [] => (style, [])
  | c :: rest =>
    match style.flag? c with
    | some style => flags style rest
    | none => (style, c :: rest)

/-- A number within a directive, which may be left to an argument, and the text after it. -/
def amount (voice : Voice) (f : Filling) : List Char → Int × List Char × Filling
  | '*' :: rest =>
    let (n, f) := nextInteger voice (-2147483648) 2147483647 (-2147483648) f
    (n, rest, f)
  | cs =>
    let digits := cs.takeWhile Char.isDigit
    (digitsValue digits, cs.drop digits.length, f)

/-- Fills in one directive, of which the text after its first character is given, and gives the
text after it. -/
def fillDirective (voice : Voice) (cs : List Char) (f : Filling) : Filling × List Char :=
  let (style, rest) := flags {} cs
  let (width, rest, f) := amount voice f rest
  let style := { style with width := width.natAbs, isLeft := style.isLeft || decide (width < 0) }
  let (style, rest, f) := match rest with
    | '.' :: rest =>
      let (places, rest, f) := amount voice f rest
      ({ style with places := if places < 0 then none else some places.toNat }, rest, f)
    | _ => (style, rest, f)
  let size : Int := UInt64.size
  let whole (base : Nat) (mark : String) : Filling :=
    let (n, f) := nextInteger voice (-(size - 1)) (size - 1) (size - 1) f
    let n := (n % size).toNat
    f.push (style.setNumber (if style.hasMark ∧ n ≠ 0 then mark else "") base n)
  match rest with
  | [] => (f.fail voice.flawCode voice.noLetter, [])
  | c :: rest =>
    let filled : Filling :=
      match c with
      | 'd' | 'i' =>
        let (n, f) := nextInteger voice (-(size / 2)) (size / 2 - 1) (-(size / 2)) f
        f.push (style.setNumber (style.signOf (decide (n < 0))) 10 n.natAbs)
      | 'u' => whole 10 ""
      | 'o' => whole 8 "0"
      | 'x' => whole 16 "0x"
      | 'X' => (whole 16 "0x").raiseLast
      | 'a' | 'e' | 'f' | 'g' =>
        let (x, f) := nextReal voice f
        f.push (style.setReal c x)
      | 'A' | 'E' | 'F' | 'G' =>
        let (x, f) := nextReal voice f
        (f.push (style.setReal c.toLower x)).raiseLast
      | 'c' =>
        let (text, f) := f.next
        f.push (style.setText [(Text.encodeUtf8 text).headD 0])
      | 's' =>
        let (text, f) := f.next
        f.push (style.setText (Text.encodeUtf8 text))
      | 'b' =>
        let (text, f) := f.next
        let (bytes, isOver) := unescape text.toList
        { f.push (style.setText bytes) with isOver := isOver }
      | _ =>
        let used := cs.take (cs.length - rest.length)
        f.fail voice.flawCode (voice.noDirective (String.ofList ('%' :: used)))
    (filled, rest)

/-- Fills a format once; the number bounds the steps by its length. -/
def fillOnce (voice : Voice) : Nat → List Char → Filling → Filling
  | 0, _, f | _, [], f => f
  | steps + 1, c :: rest, f =>
    if f.isOver then f
    else
      match c, rest with
      | '%', '%' :: rest => fillOnce voice steps rest (f.push [37])
      | '%', rest =>
        let (f, rest) := fillDirective voice rest f
        fillOnce voice steps rest f
      | '\\', d :: rest =>
        if d = 'c' then
          if voice.endsFormat then { f with isOver := true }
          else fillOnce voice steps rest (f.push [92, 99])
        else if d = '"' then fillOnce voice steps rest (f.push [34])
        else
          let digits := if (baseValue? 8 d).isSome then octalDigits 2 rest else []
          fillOnce voice steps (rest.drop digits.length)
            (f.push (unescape ('\\' :: d :: digits)).1)
      | c, rest => fillOnce voice steps rest (f.push (Text.encodeUtf8 (String.singleton c)))

/-- Fills a format again and again until the arguments are used up; the number bounds the turns by
that of the arguments. -/
def fill (voice : Voice) (format : List Char) : Nat → Filling → Filling
  | 0, f => f
  | turns + 1, f =>
    let next := fillOnce voice format.length format f
    if next.isOver ∨ next.args = [] ∨ next.args.length = f.args.length then next
    else fill voice format turns next

end MediaPhases.Format
