import MediaPhases.Files.Fault
import MediaPhases.Number.Decimal
import MediaPhases.Text.Blank

/-!
# Tool faults

How an external command ends, and why it counts as failed: it cannot be started, it takes too
long, or it ends with anything but success.
-/

namespace MediaPhases

/-- How a command ended. -/
inductive ExitStatus where
  | exited (code : Nat)
  /-- The command was ended by a signal. -/
  | killed (signal : Nat)
deriving DecidableEq, Repr

namespace ExitStatus

/-- Whether a command ended well. -/
def isSuccess (s : ExitStatus) : Bool :=
  s == .exited 0

/-- The code for which a command interpreter takes a status. -/
def code : ExitStatus → Nat
  | .exited code => code
  | .killed signal => 128 + signal

/-- The signals by the end of their names. -/
def signals : List (String × Nat) :=
  [("HUP", 1), ("INT", 2), ("QUIT", 3), ("ILL", 4), ("TRAP", 5), ("ABRT", 6), ("BUS", 7),
    ("FPE", 8), ("KILL", 9), ("USR1", 10), ("SEGV", 11), ("USR2", 12), ("PIPE", 13), ("ALRM", 14),
    ("TERM", 15), ("STKFLT", 16), ("CHLD", 17), ("CONT", 18), ("STOP", 19), ("TSTP", 20),
    ("TTIN", 21), ("TTOU", 22), ("URG", 23), ("XCPU", 24), ("XFSZ", 25), ("VTALRM", 26),
    ("PROF", 27), ("WINCH", 28), ("IO", 29), ("PWR", 30), ("SYS", 31)]

/-- The status as text. -/
def describe : ExitStatus → String
  | .exited code => s!"exit status: {code}"
  | .killed signal =>
    match signals.find? (·.2 == signal) with
    | some (name, _) => s!"signal: {signal} (SIG" ++ name ++ ")"
    | none => s!"signal: {signal}"

end ExitStatus

/-- A time limit in milliseconds as text, in seconds from one second on. -/
def limitText (milliseconds : Nat) : String :=
  let seconds := milliseconds / 1000
  let rest := milliseconds % 1000
  if milliseconds = 0 then "0ns"
  else if seconds = 0 then s!"{rest}ms"
  else if rest = 0 then s!"{seconds}s"
  else
    let digits := decimalDigits rest
    let places := List.replicate (3 - digits.length) '0' ++ digits
    let kept := (places.reverse.dropWhile (· == '0')).reverse
    s!"{seconds}." ++ String.ofList kept ++ "s"

/-- Why a command counts as failed. -/
inductive ToolFault where
  | notStarted (fault : FileFault)
  /-- The command ran for longer than the limit in milliseconds. -/
  | timedOut (limit : Nat)
  | ended (status : ExitStatus) (stderr : String)
  | stated (text : String)
deriving DecidableEq, Repr

/-- The wording of a fault. -/
def ToolFault.message : ToolFault → String
  | .notStarted fault => "failed to spawn: " ++ fault.message
  | .timedOut limit => "timed out after " ++ limitText limit
  | .ended status stderr => s!"exited with status {status.describe}: " ++ Text.trim stderr
  | .stated text => text

end MediaPhases
