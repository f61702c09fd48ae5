import MediaPhases.Text.Lowercase
import MediaPhases.Text.PrintableTable

/-!
# Quoted text in messages

A message that shows a text as it was given puts it between double quotes and escapes what a
reader could not see: quotes and backslashes, control characters, characters without a visible
form and characters that would attach to the quote before them.
-/

namespace MediaPhases.Text

/-- The hexadecimal digits of a number in lower case, without leading zeros. -/
def hexDigits (n : Nat) : List Char :=
  Nat.toDigits 16 n

/-- One character as it is shown between quotes. -/
def showChar (c : Char) : List Char :=
  if c = Char.ofNat 0 then ['\\', '0']
  else if c = '\t' then ['\\', 't']
  else if c = '\r' then ['\\', 'r']
  else if c = '\n' then ['\\', 'n']
  else if c = '"' then ['\\', '"']
  else if c = '\\' then ['\\', '\\']
  else if inRanges extendingRanges c.toNat || inRanges unprintableRanges c.toNat then
    ['\\', 'u', '\x7b'] ++ hexDigits c.toNat ++ ['\x7d']
  else [c]

/-- A text between double quotes. -/
def quoted (s : String) : String :=
  String.ofList ('"' :: (s.toList.flatMap showChar ++ ['"']))

example : quoted "a\"b\\é\u0301" = "\"a\\\"b\\\\é\\u\x7b301\x7d\"" := by decide +kernel

end MediaPhases.Text
