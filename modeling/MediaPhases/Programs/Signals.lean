import MediaPhases.Programs.Variables

/-!
# Signals

How signals are named, sent and received.  There are but two targets for them, the interpreter
itself and the command that it last did not wait for.
-/

namespace MediaPhases.Shell

/-- The greatest number of a signal. -/
def lastSignal : Nat := 64

/-- The signal that a word names, by its number or in any letter case.  The signals from 34 on are
counted from either end. -/
def signal? (word : String) : Option Nat :=
  match natural? word with
  | some n => if n ≤ lastSignal then some n else none
  | none =>
    let name := word.toUpper
    if name = "STKFLT" then none
    else if name = "RTMIN" then some 34
    else if name = "RTMAX" then some lastSignal
    else
      let count? := (natOfDigits? (name.toList.drop 6)).filter fun n => 1 ≤ n ∧ n ≤ 15
      if name.startsWith "RTMIN+" then count?.map fun n => 34 + n
      else if name.startsWith "RTMAX-" then (count?.filter (· < 15)).map fun n => lastSignal - n
      else ExitStatus.signals.lookup name

/-- How a signal is dealt with that reaches the interpreter itself, unless it waits for it: some
have no effect, one stops it for longer than its time, and the others end it. -/
def receive (limit : Nat) (s : Shell) (signal : Nat) : Shell :=
  match if signal = 9 ∨ signal = 19 then none else s.traps.lookup signal with
  | some "" => s
  | some _ => { s with pending := s.pending ++ [signal] }
  | none =>
    if signal = 0 ∨ [17, 18, 20, 21, 22, 23, 28].contains signal then s
    else if signal = 19 then s.exhaust limit
    else { s with jump := some (.killed signal) }

/-- The signal and the targets among the words of a call, or a complaint. -/
def signalAndTargets : List String → Except String (Nat × List String)
  | [] => .ok (15, [])
  | first :: rest =>
    match first.toList with
    | '-' :: cs =>
      let named (word : String) (targets : List String) : Except String (Nat × List String) :=
        match signal? word with
        | some n => .ok (n, targets)
        | none => .error s!"invalid signal number or name: {word}"
      match signal? (String.ofList cs), cs, rest with
      | some n, _, _ => .ok (n, rest)
      | none, ['-'], _ => .ok (15, rest)
      | none, ['s'], [] => .error "No arg for -s option"
      | none, ['s'], word :: rest => named word rest
      | none, 's' :: cs, _ => named (String.ofList cs) rest
      | none, c :: _, _ => .error ("Illegal option -" ++ String.singleton c)
      | none, [], _ => .ok (15, first :: rest)
    | _ => .ok (15, first :: rest)

/-- Whether there may still be something of the command that was last not waited for. -/
def isJobRunning (s : Shell) : Bool :=
  s.job.isSome && !s.isJobKnown && s.elapsed ≤ s.lasting

/-- How a signal is dealt with that reaches the command that was last not waited for. -/
def signalJob (s : Shell) (signal : Nat) : Shell :=
  if signal = 0 then s
  else
    { s with
      job := some (.killed signal)
      lasting := s.elapsed
      held := s.held.map fun h => (h.1, Nat.min h.2 s.elapsed) }

/-- Sends a signal to targets in order. -/
def signalTo (limit signal : Nat) : List String → Shell → Shell
  | [], s => s
  | target :: rest, s =>
    if s.isOver limit then s
    else if target = ownNumber then signalTo limit signal rest (s.receive limit signal)
    else if target = jobNumber ∧ s.isJobRunning then
      signalTo limit signal rest (s.signalJob signal)
    else if target.startsWith "%" then
      s.refuse s!"No such job: {target}"
    else
      match natural? target with
      | some _ =>
        signalTo limit signal rest (s.refuse "No such process\n" 1)
      | none => s.refuse s!"Illegal number: {target}"

/-- The name of a signal; two in the middle of the table have none but their numbers. -/
def signalName (n : Nat) : String :=
  if n = 34 then "RTMIN"
  else if n = lastSignal then "RTMAX"
  else if 34 < n ∧ n < 50 then s!"RTMIN+{n - 34}"
  else if 50 ≤ n then s!"RTMAX-{lastSignal - n}"
  else
    match ExitStatus.signals.find? fun p => n = p.2 ∧ p.1 ≠ "STKFLT" with
    | some (name, _) => name
    | none => toString n

/-- Names a signal, or the signal that has led to a code. -/
def nameSignal (s : Shell) (word : String) : Shell :=
  match (natural? word).map fun n => if 128 < n then n - 128 else n with
  | none => s.refuse s!"Illegal number: {word}"
  | some n =>
    if 1 ≤ n ∧ n ≤ lastSignal then s.say (signalName n ++ "\n")
    else s.refuse s!"invalid signal number or exit status: {word}"

/-- Sends a signal. -/
def kill (limit : Nat) (s : Shell) (args : List String) : Shell :=
  match args, signalAndTargets args with
  | "-l" :: word :: _, _ => s.nameSignal word
  | ["-l"], _ =>
    s.say ("0\n" ++ String.join ((List.range lastSignal).map fun n => signalName (n + 1) ++ "\n"))
  | _, .error text => s.refuse text
  | _, .ok (_, []) =>
    let usage := "Usage: kill [-s sigspec | -signum | -sigspec] [pid | job]... or\n" ++
      "kill -l [exitstatus]"
    s.refuse usage
  | _, .ok (signal, targets) => signalTo limit signal targets { s with status := 0 }

/-- Sets what is done at signals, or takes it back. -/
def setTraps (action : Option String) : List String → Shell → Shell
  | [], s => s
  | word :: rest, s =>
    let number? := if word = "EXIT" then some 0 else signal? word
    match number? with
    | none => { s.write 2 (Text.encodeUtf8 s!"trap: {word}: bad trap\n") with status := 1 }
    | some n =>
      let others := s.traps.filter fun t => t.1 ≠ n
      let traps := match action with
        | some text => (n, text) :: others
        | none => others
      setTraps action rest { s with traps := traps }

/-- Sets what is done at signals, or lists it in the order of their numbers. -/
def trap (s : Shell) (args : List String) : Shell :=
  let line (t : Nat × String) : String :=
    let name := if t.1 = 0 then "EXIT" else signalName t.1
    "trap -- " ++ quoted t.2 ++ " " ++ name ++ "\n"
  match splitOptions "" args with
  | .error text => s.fail text
  | .ok (_, []) =>
    s.say (String.join ((s.traps.mergeSort fun a b => a.1 ≤ b.1).map line))
  | .ok (_, [word]) => setTraps none [word] { s with status := 0 }
  | .ok (_, action :: words) =>
    let s := { s with status := 0 }
    if (natural? action).isSome then setTraps none (action :: words) s
    else setTraps (if action = "-" then none else some action) words s

end MediaPhases.Shell
