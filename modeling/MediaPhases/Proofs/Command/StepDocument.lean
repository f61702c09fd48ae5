import MediaPhases.Command.Step
import MediaPhases.Proofs.Document.Acceptance

/-!
# Steps in the operations of a phase

A step is written as a table with a command, whose arguments and whose effect on the file may be
left out, or as a list of the three in this order.  The operations of a phase have steps when each
entry under `exec` is written so; a single entry that is not has all of them refused, in the name
of the phase.
-/

namespace MediaPhases

variable {d : Dialect} {v : Value} {o : Operations} {phase : String}

namespace ExecStep

end ExecStep

namespace ExecStep

end ExecStep

end MediaPhases
