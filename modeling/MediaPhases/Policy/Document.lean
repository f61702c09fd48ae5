import MediaPhases.Document.Json
import MediaPhases.Document.Toml
import MediaPhases.Failure
import MediaPhases.Files.Path
import MediaPhases.Files.Tree
import MediaPhases.Policy.Basic
import MediaPhases.Text.Lowercase

/-!
# Policy documents

A policy document is read and then checked by the rules that concern the document alone.  Policy
files whose extension says so are TOML; all others are JSON.
-/

namespace MediaPhases.Policy

/-- Reads a policy without checking it. -/
def read (format : DocumentFormat) (text : String) : Except Fault Policy :=
  match format with
  | .json => Json.decodeSound reader text
  | .toml => Toml.decode reader text

/-- Reads a policy and checks it. -/
def parse (format : DocumentFormat) (text : String) : Except Failure Policy :=
  match read format text with
  | .error fault => .error (.policy (.unreadable format fault))
  | .ok p =>
    match p.validate with
    | .error defect => .error (.validation defect)
    | .ok () => .ok p

/-- The format of a policy file, which its extension tells. -/
def formatOf (path : String) : DocumentFormat :=
  match Path.extension? path with
  | some extension => if Text.eqIgnoringAsciiCase extension "toml" then .toml else .json
  | none => .json

/-- Reads and checks a policy file. -/
def load (t : FileTree) (path : String) : Except Failure Policy :=
  match t.readText path with
  | .error fault => .error (.io fault)
  | .ok text => parse (formatOf path) text

/-- The policy as a JSON document. -/
def toJson (p : Policy) : String :=
  Json.pretty p.encode

end MediaPhases.Policy
