import MediaPhases.Document.Json.Print
import MediaPhases.Document.Json.Scan
import MediaPhases.Document.Reader

/-!
# JSON documents

How JSON writes choices and ends records, and the two ways in which a document is decoded: one
looks at all of it, the other lets unreadable values stand where they are passed over.  The same
readers serve values that are already in memory, which answer a few faults differently.
-/

namespace MediaPhases.Json

/-- A choice is a name, or a table of one entry whose key is the name.  The name and its content
are read before further entries are noticed. -/
def choice : Value → Except Fault Choice
  | .text s => .ok ⟨s, none, none⟩
  | .table ((k, v) :: rest) => .ok ⟨k, some v, if rest.isEmpty then none else some .noChoice⟩
  | .unreadable => .error .malformed
  | _ => .error .noChoice

/-- A choice without content may have null in its place. -/
def noContent : Value → Except Fault Unit
  | .null => .ok ()
  | v => .error (v.mismatch "unit")

/-- JSON text. -/
def dialect : Dialect where
  choice := choice
  noContent := noContent
  surplus := fun _ _ => some .trailing

/-- A choice in memory: a name, or a table of exactly one entry. -/
def heldChoice : Value → Except Fault Choice
  | .text s => .ok ⟨s, none, none⟩
  | .table [(k, v)] => .ok ⟨k, some v, none⟩
  | .table _ => .error (.outOfRange .table "map with a single key")
  | v => .error (v.mismatch "string or map")

/-- A value in memory. -/
def heldDialect : Dialect where
  choice := heldChoice
  noContent := noContent
  surplus := fun _ total => some (.wrongLength total "fewer elements in array")

/-- The content of a tagged choice, which is held until the tag is known. -/
def taggedDialect : Dialect where
  choice := heldChoice
  noContent := fun v =>
    match v with
    | .table [] => .ok ()
    | v => noContent v
  surplus := fun read total =>
    let noun := if read = 1 then "element" else "elements"
    some (.wrongLength total s!"{read} {noun} in sequence")

/-- Decodes a document, passing over unreadable values that no reader looks at.  When the
document is not sound as a whole, every fault in it counts as a malformed text. -/
def decode {α : Type} (r : Reader α) (s : String) : Except Fault α :=
  match scan s with
  | none => .error .malformed
  | some v =>
    match r dialect v with
    | .ok a => .ok a
    | .error fault => .error (if v.isReadable then fault else .malformed)

/-- Decodes a document all of which has to be readable. -/
def decodeSound {α : Type} (r : Reader α) (s : String) : Except Fault α :=
  match read s with
  | none => .error .malformed
  | some v => r dialect v

end MediaPhases.Json
