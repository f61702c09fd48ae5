import MediaPhases.Number.Notation

/-!
# Document formats

The formats in which policies and settings are written.
-/

namespace MediaPhases

/-- A document format. -/
inductive DocumentFormat where
  | json
  | toml
deriving DecidableEq, Repr

namespace DocumentFormat

/-- The name of a format in messages. -/
def name : DocumentFormat → String
  | .json => "JSON"
  | .toml => "TOML"

/-- How messages about a document of a format spell numbers. -/
def numbers : DocumentFormat → NumberNotation
  | .json => .document
  | .toml => .pointed

end DocumentFormat

end MediaPhases
