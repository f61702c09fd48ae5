import MediaPhases.Number.Notation
import MediaPhases.Text.Quoted
import MediaPhases.Threshold.Amount

/-!
# Document faults

Why a document is refused.  A fault is a cause; its wording is one function, which depends on
the document format only in how it shows a number.
-/

namespace MediaPhases

/-- What stood in a document where something else was wanted. -/
inductive Shape where
  | null
  | boolean (b : Bool)
  | integer (n : Int)
  | float (x : Double)
  | text (s : String)
  | sequence
  | table
  /-- The bare name of a choice that needs content. -/
  | bareChoice
deriving DecidableEq, Repr

/-- Why a document is refused. -/
inductive Fault where
  /-- The text is not a document of its format. -/
  | malformed
  | unknownField (name : String) (expected : List String)
  | unknownVariant (name : String) (expected : List String)
  | missingField (name : String)
  | duplicateField (name : String)
  | wrongType (got : Shape) (want : String)
  | outOfRange (got : Shape) (want : String)
  | wrongLength (count : Nat) (want : String)
  /-- A sequence goes on after its last element. -/
  | trailing
  /-- A choice is written neither as a name nor as a table of one entry. -/
  | noChoice
  | threshold (fault : ThresholdFault)
  | stated (text : String)
deriving DecidableEq, Repr

/-- A shape as it is described in messages. -/
def Shape.describe (n : NumberNotation) : Shape → String
  | .null => "null"
  | .boolean b => s!"boolean `{b}`"
  | .integer k => s!"integer `{k}`"
  | .float x => s!"floating point `{n.text x}`"
  | .text s => "string " ++ Text.quoted s
  | .sequence => "sequence"
  | .table => "map"
  | .bareChoice => "unit variant"

namespace Fault

/-- A name between backticks. -/
def ticked (name : String) : String :=
  s!"`{name}`"

/-- The names that would have been right, as a message lists them. -/
def alternatives (noun : String) : List String → String
  | [] => s!"there are no {noun}"
  | [a] => "expected " ++ ticked a
  | [a, b] => "expected " ++ ticked a ++ " or " ++ ticked b
  | names => "expected one of " ++ ", ".intercalate (names.map ticked)

/-- The wording of a fault, with numbers in the given notation. -/
def message (n : NumberNotation) : Fault → String
  | .malformed => "(syntax)"
  | .unknownField name expected => s!"unknown field `{name}`, " ++ alternatives "fields" expected
  | .unknownVariant name expected =>
    s!"unknown variant `{name}`, " ++ alternatives "variants" expected
  | .missingField name => s!"missing field `{name}`"
  | .duplicateField name => s!"duplicate field `{name}`"
  | .wrongType got want => "invalid type: " ++ got.describe n ++ ", expected " ++ want
  | .outOfRange got want => "invalid value: " ++ got.describe n ++ ", expected " ++ want
  | .wrongLength count want => s!"invalid length {count}, expected {want}"
  | .trailing => "trailing characters"
  | .noChoice => "expected value"
  | .threshold fault => fault.message
  | .stated text => text

end Fault

end MediaPhases
