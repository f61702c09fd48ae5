import MediaPhases.Proofs.Document.Record

/-!
# Which values are accepted

A list is accepted when each of its items is.  A table is accepted by a closed schema when its keys
are distinct and known, what stands under each of them is accepted by its field, and no required
key is missing.  A list of fields is accepted when it has no surplus, each item is accepted by the
field at its place, and all further fields have defaults.
-/

namespace MediaPhases

variable {α : Type} {d : Dialect} {v : Value}

namespace Reader

end Reader

namespace Schema

variable {s : Schema α} {a : α} {Accepts : String × Value → Prop}

end Schema

end MediaPhases
