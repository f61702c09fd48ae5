import MediaPhases.Document.Reader

/-!
# Operations

The payload of a phase: free-form values under keys, which the engine hands to an executor
without looking at them.  Payloads are kept in canonical form, sorted by key.
-/

namespace MediaPhases

/-- The work of a phase. -/
structure Operations where
  entries : List (String × Value) := []

namespace Operations

/-- The operations of the entries of a document, of which the last with a key counts. -/
def ofEntries (entries : List (String × Value)) : Operations :=
  ⟨Value.canonicalEntries entries []⟩

/-- The keys in order. -/
def keys (o : Operations) : List String :=
  o.entries.map (·.1)

/-- The value of a key. -/
def get? (o : Operations) (key : String) : Option Value :=
  o.entries.lookup key

/-- The number of keys. -/
def size (o : Operations) : Nat :=
  o.entries.length

/-- Whether there is nothing to do. -/
def isEmpty (o : Operations) : Bool :=
  o.entries.isEmpty

/-- Equality of payloads, where numbers are compared as numbers. -/
def same (o p : Operations) : Bool :=
  Value.sameEntries o.entries p.entries

/-- Reads a payload. -/
def reader : Reader Operations := fun _ v =>
  match v.plain with
  | .table entries =>
    if Value.haveReadable entries then .ok (ofEntries entries) else .error .malformed
  | v => .error (v.mismatch "a map")

/-- Writes a payload. -/
def encode (o : Operations) : Value :=
  .table o.entries

end Operations

end MediaPhases
