import MediaPhases.Programs.Grammar
import MediaPhases.Programs.Shell

/-!
# Commands for variables

The built-in commands that give variables values, mark them or take them away: by their names, from
a line of the input, or from the options among the arguments.
-/

namespace MediaPhases.Shell

/-- A command that is part of the interpreter. -/
abbrev BuiltIn := Shell → List String → Shell

/-- A text between quotes, as a word that stands for it. -/
def quoted (text : String) : String :=
  let parts := text.toList.splitBy fun a b => (a == '\'') == (b == '\'')
  let part (cs : List Char) : List Char :=
    if cs.head? = some '\'' then ['"'] ++ cs ++ ['"'] else ['\''] ++ cs ++ ['\'']
  let head := if text.toList.head?.all (· = '\'') then "''" else ""
  head ++ String.ofList (parts.flatMap part)

/-- The commands that give variables their values, in the order of their names. -/
def listing (command : String) (names : List String) (s : Shell) : Shell :=
  let line (name : String) : String :=
    match s.bindings.lookup name with
    | some value => command ++ " " ++ name ++ "=" ++ quoted value ++ "\n"
    | none => command ++ " " ++ name ++ "\n"
  s.say (String.join ((names.eraseDups.mergeSort fun a b => a ≤ b).map line))

/-- The name and the value that a word states, if it states a value. -/
def nameAndValue (word : String) : String × Option String :=
  let name := word.toList.takeWhile (· ≠ '=')
  let value? := (word.toList.drop name.length).tail?
  (String.ofList name, value?.map String.ofList)

/-- Gives variables values and marks them. -/
def declare (mark : Shell → String → Shell) : List String → Shell → Shell
  | [], s => s
  | word :: rest, s =>
    let (name, value) := nameAndValue word
    if !Script.isName name.toList then s.fail s!"{name}: bad variable name"
    else
      let s := match value with
        | some value => s.bind name value
        | none => s
      if s.jump.isSome then s else declare mark rest (mark s name)

/-- Gives variables values and marks them, or lists those with the mark. -/
def declareOrList (command : String) (marked : List String) (mark : Shell → String → Shell) :
    BuiltIn := fun s args =>
  match splitOptions "p" args with
  | .error text => s.fail text
  | .ok ([], word :: words) => declare mark (word :: words) { s with status := 0 }
  | .ok _ => s.listing command marked

/-- Gives variables values and lets programs know them. -/
def exportNames : BuiltIn := fun s args =>
  declareOrList "export" s.exported
    (fun s name => { s with exported := name :: s.exported }) s args

/-- Gives variables values for good. -/
def freeze : BuiltIn := fun s args =>
  declareOrList "readonly" s.frozen (fun s name => { s with frozen := name :: s.frozen }) s args

/-- Keeps what a variable is for the end of the function at work. -/
def keepVariable (s : Shell) (name : String) : Shell :=
  let entry := (name, s.bindings.lookup name, s.exported.contains name)
  { s with locals := s.locals.map fun f => { f with values := entry :: f.values } }

/-- Gives variables values until the function at work ends; a dash stands for the options. -/
def localNames : BuiltIn := fun s args =>
  if s.locals.isNone then s.fail "not in a function"
  else
    let s := if !args.contains "-" then s
      else { s with locals := s.locals.map fun f =>
        { f with options := f.options.or (some s.options) } }
    let step (s : Shell) (word : String) : Shell :=
      if s.jump.isSome then s
      else
        let name := (nameAndValue word).1
        declare (fun s _ => s) [word]
          (if Script.isName name.toList then s.keepVariable name else s)
    (args.filter (· ≠ "-")).foldl step { s with status := 0 }

/-- The interpreter after a function has put back what it changed for its own time only. -/
def putBack (f : CallFrame) (s : Shell) : Shell :=
  let step (s : Shell) (entry : String × Option String × Bool) : Shell :=
    let (name, value, isExported) := entry
    let s := s.restore name value
    { s with exported :=
      if isExported then name :: s.exported else s.exported.filter (· ≠ name) }
  let s := f.values.foldl step s
  { s with options := f.options.getD s.options }

/-- Takes variables or functions away. -/
def unset : BuiltIn := fun s args =>
  let drop (s : Shell) (name : String) : Shell :=
    if s.jump.isSome then s
    else if !Script.isName name.toList then s.fail s!"{name}: bad variable name"
    else if s.frozen.contains name then s.fail s!"{name}: is read only"
    else s.unbind name
  let s := { s with status := 0 }
  match splitOptions "fv" args with
  | .error text => s.fail text
  | .ok (options, names) =>
    if options.getLast?.any fun o => o.1 = 'f' then
      { s with functions := s.functions.filter fun f => !names.contains f.1 }
    else names.foldl drop s

/-- The characters of a line, of which a backslash may protect some, and the bytes after the line;
the line may lack its end. -/
def lineOf (isRaw : Bool) : List Char → List Pattern.Mark × Option (List Char)
  | [] => ([], none)
  | '\n' :: rest => ([], some rest)
  | '\\' :: c :: rest =>
    if isRaw then
      let (marks, left) := lineOf isRaw (c :: rest)
      (('\\', false) :: marks, left)
    else
      let (marks, left) := lineOf isRaw rest
      (if c = '\n' then marks else (c, true) :: marks, left)
  | c :: rest =>
    let (marks, left) := lineOf isRaw rest
    ((c, false) :: marks, left)

/-- A line that is being split at separators. -/
structure LineParts where
  /-- The parts that are finished, the last one first. -/
  finished : List (List Pattern.Mark) := []
  /-- The marks of the part that is not, the last one first. -/
  current : List Pattern.Mark := []
  /-- What that part is if nothing but blanks and one other separator follows. -/
  kept : Option (List Pattern.Mark) := none
  /-- The number of parts that may still be finished; the last part goes on to the end. -/
  left : Nat
  /-- The last separator was a blank, and the next one belongs to it. -/
  isAfterBlank : Bool := false

namespace LineParts

/-- Goes on with a mark. -/
def push (separators : List Char) (k : LineParts) (m : Pattern.Mark) : LineParts :=
  let longer := { k with current := m :: k.current }
  let isSeparator := separators.contains m.1
  let isBlank := isSeparator && [' ', '\t', '\n'].contains m.1
  if m.2 then { longer with isAfterBlank := false }
  else if k.left = 0 then
    if isBlank then { longer with kept := k.kept.or (some k.current) }
    else { longer with
      kept := if isSeparator && k.isAfterBlank then k.kept else none
      isAfterBlank := false }
  else if !isSeparator then { longer with isAfterBlank := false }
  else if k.isAfterBlank then { k with isAfterBlank := isBlank }
  else if isBlank ∧ k.current = [] then k
  else if k.left = 1 then
    { longer with kept := some k.current, left := 0, isAfterBlank := isBlank }
  else { k with
    finished := k.current :: k.finished
    current := []
    left := k.left - 1
    isAfterBlank := isBlank }

/-- The parts of a line, at most a number of them. -/
def split (separators : List Char) (count : Nat) (line : List Pattern.Mark) :
    List (List Pattern.Mark) :=
  let k := line.foldl (push separators) { left := count }
  let rest := k.kept.getD k.current
  let parts := if rest = [] then k.finished else rest :: k.finished
  parts.reverse.map List.reverse

end LineParts

/-- Gives variables the parts of a line in order, or nothing if there are too few. -/
def bindParts : List String → List (List Pattern.Mark) → Shell → Shell
  | [], _, s => s
  | name :: names, parts, s =>
    let s := s.bind name (textOf (parts.headD []))
    if s.jump.isSome then s else bindParts names parts.tail s

/-- Reads a line of the input into variables. -/
def read : BuiltIn := fun s args =>
  match splitOptions "rp:" args with
  | .error text => s.refuse text
  | .ok (_, []) => s.refuse "arg count"
  | .ok (options, names) =>
    let text := Text.decodeLossy ((s.unread? 0).getD [])
    let (marks, left) := lineOf (options.any fun o => o.1 = 'r') text.toList
    let s := bindParts names (LineParts.split s.separators names.length marks) s
    { s.leaveUnread 0 (Text.encodeUtf8 (String.ofList (left.getD []))) with
      status := if left.isSome then 0 else 1 }

/-- Looks for the next option among the arguments and puts what it finds into variables. -/
def findOption : BuiltIn := fun s args =>
  match args with
  | letters :: name :: words =>
    let found := s.cursor.find letters (if words = [] then s.args else words)
    let s := match found.isEnd, found.argument with
      | true, _ => s
      | false, some text => s.bind "OPTARG" text
      | false, none => s.unbind "OPTARG"
    let s := match found.complaint with
      | some text => s.write 2 (Text.encodeUtf8 (text ++ "\n"))
      | none => s
    let s := { s with bindings := s.bindings.set "OPTIND" (toString found.next.index) }
    { s.bind name (String.singleton found.letter) with
      cursor := found.next
      status := if found.isEnd then 1 else 0 }
  | _ => s.refuse "Usage: getopts optstring var [arg...]"

end MediaPhases.Shell
