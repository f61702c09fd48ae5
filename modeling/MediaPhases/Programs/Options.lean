/-!
# Options

What a command interpreter can be told to do at all times, and the options that a script finds in
its own arguments: words that start with a dash and hold letters, some of which take an argument.
-/

namespace MediaPhases

/-- What an interpreter can be told to do at all times. -/
inductive ShellOption where
  /-- A failure ends it, but for a failure of what is a test. -/
  | errexit
  /-- Patterns do not stand for paths. -/
  | noglob
  | ignoreeof
  | interactive
  | monitor
  /-- It reads commands and does not run them. -/
  | noexec
  | stdin
  /-- It writes every command before it runs it. -/
  | xtrace
  | verbose
  | vi
  | emacs
  /-- It does not write over files. -/
  | noclobber
  /-- Programs get to know all variables from now on. -/
  | allexport
  | notify
  /-- A parameter without a value is a fault. -/
  | nounset
  | privileged
  | nolog
  | debug
deriving DecidableEq, Repr

namespace ShellOption

/-- The options with their names and letters; some have no letter. -/
def table : List (ShellOption × String × Option Char) :=
  [(errexit, "errexit", some 'e'), (noglob, "noglob", some 'f'),
    (ignoreeof, "ignoreeof", some 'I'), (interactive, "interactive", some 'i'),
    (monitor, "monitor", some 'm'), (noexec, "noexec", some 'n'), (stdin, "stdin", some 's'),
    (xtrace, "xtrace", some 'x'), (verbose, "verbose", some 'v'), (vi, "vi", some 'V'),
    (emacs, "emacs", some 'E'), (noclobber, "noclobber", some 'C'),
    (allexport, "allexport", some 'a'), (notify, "notify", some 'b'),
    (nounset, "nounset", some 'u'), (privileged, "privileged", some 'p'),
    (nolog, "nolog", none), (debug, "debug", none)]

/-- The option of a name. -/
def ofName? (name : String) : Option ShellOption :=
  (table.find? fun row => row.2.1 = name).map (·.1)

/-- The option of a letter. -/
def ofLetter? (c : Char) : Option ShellOption :=
  (table.find? fun row => row.2.2 = some c).map (·.1)

/-- The letters of options, the last one of the table first. -/
def letters (options : List ShellOption) : String :=
  String.ofList ((table.filter fun row => options.contains row.1).filterMap (·.2.2)).reverse

/-- Whether one of two options takes the place of the other. -/
def replaces : ShellOption → ShellOption → Bool
  | vi, emacs | emacs, vi => true
  | _, _ => false

/-- The options with one more, or with one less. -/
def turn (isOn : Bool) (o : ShellOption) (options : List ShellOption) : List ShellOption :=
  let others := options.filter (· ≠ o)
  if isOn then o :: others.filter (!o.replaces ·) else others

/-- Whether each option is on, a line for each. -/
def listing (options : List ShellOption) : String :=
  let line (row : ShellOption × String × Option Char) : String :=
    let name := row.2.1
    name ++ "".pushn ' ' (16 - name.length) ++ (if options.contains row.1 then "on" else "off") ++
      "\n"
  "Current option settings\n" ++ String.join (table.map line)

/-- The commands that bring the options about. -/
def commands (options : List ShellOption) : String :=
  String.join (table.map fun row =>
    (if options.contains row.1 then "set -o " else "set +o ") ++ row.2.1 ++ "\n")

end ShellOption

/-- A place between the letters of arguments. -/
structure OptionCursor where
  /-- The number of the next word, counted from one. -/
  index : Nat := 1
  /-- The number of letters that have been taken from the word before that one, if it has more. -/
  offset : Option Nat := none
deriving DecidableEq, Repr

/-- What a look at the next option comes to. -/
structure OptionFound where
  /-- The letter, or the sign of a fault or of the end. -/
  letter : Char := '?'
  /-- What goes with the letter, if anything does. -/
  argument : Option String := none
  /-- The fault, if there is one that is not left to the script. -/
  complaint : Option String := none
  isEnd : Bool := false
  next : OptionCursor
deriving DecidableEq, Repr

namespace OptionCursor

/-- Whether a list of letters has a letter, and then whether a colon after it asks for an
argument. -/
def takesArgument? (c : Char) : List Char → Option Bool
  | [] => none
  | d :: ':' :: rest => if d = c then some true else takesArgument? c rest
  | d :: rest => if d = c then some false else takesArgument? c rest

/-- The letters that are left of the word before the next one. -/
def pending (k : OptionCursor) (args : List String) : List Char :=
  match k.offset, args[k.index - 2]? with
  | some n, some word => if k.index ≤ 1 then [] else word.toList.drop n
  | _, _ => []

/-- The letters to look at and the number of the word after them, or else the place of the end. -/
def letters (k : OptionCursor) (args : List String) : Except OptionCursor (List Char × Nat) :=
  match k.pending args with
  | c :: cs => .ok (c :: cs, k.index)
  | [] =>
    match (args[k.index - 1]?).map String.toList with
    | some ['-', '-'] => .error ⟨k.index + 1, none⟩
    | some ('-' :: c :: cs) => .ok (c :: cs, k.index + 1)
    | _ => .error ⟨k.index, none⟩

/-- Looks at the next option.  A colon at the start of the list of letters leaves faults to the
script. -/
def find (k : OptionCursor) (letters : String) (args : List String) : OptionFound :=
  let isSilent := letters.toList.head? = some ':'
  let wanted := if isSilent then letters.toList.tail else letters.toList
  let k := if args.length + 1 < k.index then {} else k
  let fault (sign c : Char) (complaint : String) (next : OptionCursor) : OptionFound :=
    if isSilent then { letter := sign, argument := some (String.singleton c), next := next }
    else { complaint := some complaint, next := next }
  match k.letters args with
  | .error next => { isEnd := true, next := next }
  | .ok ([], index) => { isEnd := true, next := ⟨index, none⟩ }
  | .ok (c :: rest, index) =>
    let within : OptionCursor :=
      ⟨index, (args[index - 2]?).map fun word => word.length - rest.length⟩
    match takesArgument? c wanted, rest, args[index - 1]? with
    | none, _, _ => fault '?' c ("Illegal option -" ++ String.singleton c) within
    | some false, _, _ => { letter := c, argument := some "", next := within }
    | some true, [], some word => { letter := c, argument := some word, next := ⟨index + 1, none⟩ }
    | some true, [], none =>
      fault ':' c s!"No arg for -{String.singleton c} option" ⟨index, none⟩
    | some true, rest, _ =>
      { letter := c, argument := some (String.ofList rest), next := ⟨index, none⟩ }

/-- The options of words from a place on, with their arguments, and the words after them; the number
bounds the options. -/
def findAll (letters : String) (words : List String) :
    Nat → OptionCursor → Except String (List (Char × String) × List String)
  | 0, k => .ok ([], words.drop (k.index - 1))
  | steps + 1, k =>
    let found := k.find letters words
    match found.complaint with
    | some text => .error text
    | none =>
      if found.isEnd then .ok ([], words.drop (found.next.index - 1))
      else
        (findAll letters words steps found.next).map fun (more, rest) =>
          ((found.letter, found.argument.getD "") :: more, rest)

end OptionCursor

/-- The options at the start of words, with their arguments, and the words after them. -/
def splitOptions (letters : String) (words : List String) :
    Except String (List (Char × String) × List String) :=
  OptionCursor.findAll letters words (words.foldl (fun n word => n + word.length) 1) {}

end MediaPhases
