import MediaPhases.Programs.Mask
import MediaPhases.Programs.Variables

/-!
# Commands that adjust the interpreter

The built-in commands that turn options on and off, that give words a meaning at the start of
commands, and that say what files and programs may do.
-/

namespace MediaPhases.Shell

/-- Turns on or off the options of letters.  The letter of long names takes the next word, or else
shows the options; kept letters are not options and are handed back. -/
def setLetters (kept : List Char) (isOn : Bool) :
    List Char → List String → Shell → Except String (Shell × List Char × List String)
  | [], words, s => .ok (s, [], words)
  | c :: cs, words, s =>
    if kept.contains c then
      (setLetters kept isOn cs words s).map fun (s, found, words) => (s, c :: found, words)
    else
      match c, words with
      | 'o', [] =>
        let text := if isOn then ShellOption.listing s.options
          else ShellOption.commands s.options
        setLetters kept isOn cs [] (s.say text)
      | 'o', name :: words =>
        match ShellOption.ofName? name with
        | some o => setLetters kept isOn cs words { s with options := o.turn isOn s.options }
        | none => .error s!"Illegal option -o {name}"
      | c, words =>
        match ShellOption.ofLetter? c with
        | some o => setLetters kept isOn cs words { s with options := o.turn isOn s.options }
        | none => .error ("Illegal option -" ++ String.singleton c)

/-- Takes up the options at the start of words; the number bounds them.  After two dashes there are
arguments, even if there are none. -/
def takeSettings (kept : List Char) :
    Nat → List String → Shell → Except String (Shell × List Char × Option (List String))
  | _, [], s => .ok (s, [], none)
  | 0, words, s => .ok (s, [], some words)
  | steps + 1, word :: rest, s =>
    let go (isOn : Bool) (cs : List Char) :
        Except String (Shell × List Char × Option (List String)) := do
      let (s, found, rest) ← setLetters kept isOn cs rest s
      let (s, more, words) ← takeSettings kept steps rest s
      return (s, found ++ more, words)
    match word.toList with
    | ['-', '-'] => .ok (s, [], some rest)
    | ['-'] =>
      let s := if kept = [] then
          { s with options := s.options.filter fun o => o ≠ .xtrace ∧ o ≠ .verbose }
        else s
      .ok (s, [], if rest = [] then none else some rest)
    | '-' :: cs => go true cs
    | '+' :: cs => go false cs
    | _ => .ok (s, [], some (word :: rest))

/-- Gives up an option that asks for a terminal. -/
def dropMonitor (s : Shell) : Shell :=
  if s.has .monitor then
    { s.complain "can't access tty; job control turned off" with
      options := ShellOption.turn false .monitor s.options }
  else s

/-- Sets options and the arguments of the interpreter, or lists the variables. -/
def set : BuiltIn := fun s args =>
  if args = [] then
    let line (b : String × String) : String := b.1 ++ "=" ++ quoted b.2 ++ "\n"
    s.say (String.join ((s.bindings.mergeSort fun a b => a.1 ≤ b.1).map line))
  else
    match takeSettings [] args.length args { s with status := 0 } with
    | .error text => s.fail text
    | .ok (s, _, words) =>
      match words with
      | some words => s.dropMonitor.withArgs words
      | none => s.dropMonitor

/-- The row of a name in the table of aliases. -/
def aliasRow (name : String) : Nat :=
  let codes := name.toList.map Char.toNat
  codes.foldl (· + ·) (codes.headD 0 * 16) % 39

/-- The command that states an alias, without its first word. -/
def aliasText (a : String × String) : String :=
  a.1 ++ "=" ++ quoted a.2

/-- States what words at the start of commands stand for, or says what they stand for. -/
def aliasNames : BuiltIn := fun s args =>
  let step (s : Shell) (arg : String) : Shell :=
    match arg.toList with
    | [] => s
    | c :: cs =>
      let name := String.ofList (c :: cs.takeWhile (· ≠ '='))
      match (cs.drop (name.length - 1)).tail? with
      | some value =>
        let entry := (name, String.ofList value)
        { s with aliases :=
          if s.aliases.any fun a => a.1 = name then
            s.aliases.map fun a => if a.1 = name then entry else a
          else s.aliases ++ [entry] }
      | none =>
        match s.aliases.find? fun a => a.1 = name with
        | some a => s.write 1 (Text.encodeUtf8 (aliasText a ++ "\n"))
        | none =>
          { s.write 2 (Text.encodeUtf8 s!"alias: {name} not found\n") with status := 1 }
  if args = [] then
    let sorted := s.aliases.mergeSort fun a b => aliasRow a.1 ≤ aliasRow b.1
    s.say (String.join (sorted.map fun a => aliasText a ++ "\n"))
  else args.foldl step { s with status := 0 }

/-- Takes the meaning of words away. -/
def unalias : BuiltIn := fun s args =>
  let step (s : Shell) (name : String) : Shell :=
    if s.aliases.any fun a => a.1 = name then
      { s with aliases := s.aliases.filter fun a => a.1 ≠ name }
    else
      { s.write 2 (Text.encodeUtf8 s!"unalias: {name} not found\n") with status := 1 }
  match splitOptions "a" args with
  | .error text => s.refuse text
  | .ok ([], names) => names.foldl step { s with status := 0 }
  | .ok _ => { s with aliases := [], status := 0 }

/-- Says or sets which permissions new files do not get. -/
def umask : BuiltIn := fun s args =>
  match splitOptions "S" args with
  | .error text => s.refuse text
  | .ok (options, []) =>
    s.say ((if options = [] then Mask.octal s.mask else Mask.clauses s.mask) ++ "\n")
  | .ok (_, word :: _) =>
    if word.toList.head?.any Char.isDigit then
      match Mask.ofDigits? word.toList with
      | some mask => { s with mask := mask, status := 0 }
      | none => s.refuse s!"Illegal number: {word}"
    else
      match Mask.ofClauses? s.mask word.toList with
      | some mask => { s with mask := mask, status := 0 }
      | none => s.refuse s!"Illegal mode: {word}"

/-- Says how much of something programs may have. -/
def ulimit : BuiltIn := fun s args =>
  match splitOptions "HSatfdscmlpnvwr" args with
  | .error text => s.refuse text
  | .ok (_, []) => s.say "unlimited\n"
  | .ok (_, word :: rest) =>
    if rest ≠ [] then s.refuse "too many arguments"
    else if word = "unlimited" ∨ word.toList.all Char.isDigit then { s with status := 0 }
    else s.refuse "bad number"

end MediaPhases.Shell
