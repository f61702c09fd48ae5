import MediaPhases.Programs.Script

/-!
# Reading scripts

The text of a script is read from left to right without looking back.  Every step within a
construct starts further on in the text, so the length of the text bounds their number.
-/

namespace MediaPhases.Script

/-- What is known about a text that is being read. -/
structure Source where
  /-- The number of the last line. -/
  lines : Nat
  /-- What stands for words at the start of commands. -/
  aliases : List (String × String) := []
  /-- How much text is left where the next word may be an alias too. -/
  more : Option Nat := none

/-- What is left in a text of a line that has been taken out of it. -/
def goneLine : Char := '\x00'

/-- The number of line ends in a text, with those that have been taken out of it. -/
def lineEnds (cs : List Char) : Nat :=
  (cs.filter fun c => c = '\n' ∨ c = goneLine).length

/-- The number of the line on which a rest of the text starts. -/
def Source.lineOf (src : Source) (rest : List Char) : Nat :=
  src.lines - lineEnds rest

/-- A flaw that shows where a rest of the text starts. -/
def Source.flaw (src : Source) (kind : FlawKind) (rest : List Char) : Flaw :=
  ⟨kind, src.lineOf rest⟩

/-- A character that ends a word. -/
def isMeta (c : Char) : Bool :=
  [' ', '\t', '\n', ';', '&', '|', '<', '>', '(', ')', goneLine].contains c

/-- A character that keeps a word from being taken as it stands. -/
def isQuoting (c : Char) : Bool :=
  ['\'', '"', '\\', '$', Char.ofNat 96].contains c

/-- The text after blanks and a comment, and perhaps after whole lines of them. -/
def skip (overLines isComment : Bool) : List Char → List Char
  | [] => []
  | '\\' :: '\n' :: rest => skip overLines isComment rest
  | c :: rest =>
    if c = '\n' then if overLines then skip true false rest else c :: rest
    else if isComment ∨ c = ' ' ∨ c = '\t' ∨ c = goneLine then skip overLines isComment rest
    else if c = '#' then skip overLines true rest
    else c :: rest

/-- The text after blanks. -/
def skipBlanks : List Char → List Char :=
  skip false false

/-- The text after blanks and line ends. -/
def skipLines : List Char → List Char :=
  skip true false

/-- The names of commands that are part of every interpreter: a failure of one of them ends it, and
no function takes its name. -/
def specialNames : List String :=
  [":", ".", "break", "continue", "eval", "exec", "exit", "export", "readonly", "return", "set",
    "shift", "times", "trap", "unset"]

/-- The words that have a meaning of their own at the start of a command. -/
def keywords : List String :=
  ["if", "then", "elif", "else", "fi", "while", "until", "do", "done", "for", "case", "esac", "in",
    "\x7b", "\x7d", "!"]

/-- The keywords that end a list of commands. -/
def closingKeywords : List String :=
  ["then", "elif", "else", "fi", "do", "done", "esac", "\x7d"]

/-- The word at the start of a text, if nothing in it is quoted. -/
def bareWord (cs : List Char) : String :=
  String.ofList (cs.takeWhile fun c => !isMeta c && !isQuoting c)

/-- A text without the ends of lines at its start that a backslash takes away. -/
def joinedLine : List Char → List Char
  | '\\' :: '\n' :: rest => joinedLine rest
  | cs => cs

/-- The keyword at the start of a text. -/
def keyword? (cs : List Char) : Option String :=
  let word := bareWord cs
  if keywords.contains word ∧ (joinedLine (cs.drop word.length)).head?.all isMeta then some word
  else none

/-- The tokens that are no words, longer ones before those that they start with. -/
def symbols : List String :=
  [";;", "&&", "||", ";", "&", "|", "(", ")"]

/-- What the reader of a word is inside of. -/
inductive Mode where
  | plain
  | quoted
  /-- Braces around a parameter, within quotes or not. -/
  | braces (isQuoted : Bool)
  /-- An expression within a number of brackets of its own. -/
  | expression (depth : Nat)
  /-- A text that is read up to its end. -/
  | document
deriving DecidableEq, Repr

/-- Whether nothing splits what stands in a place. -/
def Mode.isQuoted : Mode → Bool
  | .plain | .braces false => false
  | _ => true

/-- Whether a character ends what is being read. -/
def Mode.endsAt (m : Mode) (c : Char) : Bool :=
  match m with
  | .plain => isMeta c
  | .quoted => c == '"'
  | .braces _ => c == '\x7d'
  | .expression depth => c == ')' && depth == 0
  | .document => false

/-- Whether a quotation mark starts a part that is quoted. -/
def Mode.opensQuotes : Mode → Bool
  | .plain | .braces _ => true
  | _ => false

/-- The flaw of a text that ends within what is being read. -/
def Mode.flaw : Mode → FlawKind
  | .braces false => .missing "\x7d"
  | .expression _ => .missing "))"
  | _ => .unterminatedQuote

/-- Whether a backslash in quotes keeps a character from having a meaning. -/
def Mode.protects (m : Mode) (c : Char) : Bool :=
  c == '$' || c == '\\' || c == Char.ofNat 96 || (m.endsAt c && c != ')') ||
    (c == '"' && m != .document)

/-- Puts a text before the pieces of a word. -/
def addText (cs : List Char) (isQuoted : Bool) (w : Word) : Word :=
  match w with
  | .text ds q :: rest => if q = isQuoted then .text (cs ++ ds) q :: rest
    else .text cs isQuoted :: w
  | _ => .text cs isQuoted :: w

/-- A parameter whose name is one character. -/
def isSpecial (c : Char) : Bool :=
  c.isDigit || ['$', '?', '#', '@', '*', '!', '-'].contains c

/-- A word that gives a variable a value, with the name and the word of the value. -/
def assignment? : Word → Option (String × Word)
  | .text cs false :: rest =>
    let name := cs.takeWhile (· ≠ '=')
    if name.length < cs.length ∧ isName name then
      let value := cs.drop (name.length + 1)
      some (String.ofList name, if value = [] then rest else .text value false :: rest)
    else none
  | _ => none

/-- The name that a word gives to a function. -/
def functionName? : Word → Option String
  | [.text cs false] =>
    let name := String.ofList cs
    if isName cs ∧ !specialNames.contains name then some name else none
  | _ => none

/-- The name of the parameter at the start of a text; digits go on only between braces. -/
def parameterName (inBraces : Bool) (cs : List Char) : List Char :=
  match cs with
  | [] => []
  | c :: rest =>
    if c.isDigit then if inBraces then cs.takeWhile Char.isDigit else [c]
    else if isNameChar c then c :: rest.takeWhile isNameChar
    else if isSpecial c then [c]
    else []

/-- The text up to a closing backquote, with the backslashes before what they protect taken away,
and the text after the backquote. -/
def backquoted (isQuoted : Bool) : List Char → Option (List Char × List Char)
  | [] => none
  | '\\' :: c :: rest =>
    let isProtected := c = '$' ∨ c = '\\' ∨ c = Char.ofNat 96 ∨ (isQuoted ∧ c = '"')
    (backquoted isQuoted rest).map fun (inner, rest) =>
      (if isProtected then c :: inner else '\\' :: c :: inner, rest)
  | c :: rest =>
    if c = Char.ofNat 96 then some ([], rest)
    else (backquoted isQuoted rest).map fun (inner, rest) => (c :: inner, rest)

/-- The kind of substitute that a character announces. -/
def substitute? : Char → Option Substitute
  | '-' => some .usual
  | '=' => some .assigned
  | '?' => some .complaint
  | '+' => some .instead
  | _ => none

/-- The stream and the direction of a redirection at the start of a text, and the text after it. -/
def redirection? (cs : List Char) : Option (Nat × Direction × List Char) :=
  let digits := cs.takeWhile Char.isDigit
  let stream (usual : Nat) : Nat :=
    if digits = [] then usual else digits.foldl (fun n c => n * 10 + (c.toNat - '0'.toNat)) 0
  match if digits.length ≤ 1 then cs.drop digits.length else [] with
  | '>' :: '>' :: rest => some (stream 1, .append, rest)
  | '>' :: '&' :: rest => some (stream 1, .stream, rest)
  | '>' :: '|' :: rest => some (stream 1, .over, rest)
  | '>' :: rest => some (stream 1, .output, rest)
  | '<' :: '&' :: rest => some (stream 0, .stream, rest)
  | '<' :: '<' :: rest => some (stream 0, .document, rest)
  | '<' :: '>' :: rest => some (stream 0, .both, rest)
  | '<' :: rest => some (stream 0, .input, rest)
  | _ => none

/-- What messages call the token at the start of a text, if it is no word. -/
def symbolName? (cs : List Char) : Option String :=
  match cs with
  | [] => some "end of file"
  | '\n' :: _ => some "newline"
  | _ =>
    if (redirection? cs).isSome then some "redirection"
    else (symbols.find? fun s => s.toList.isPrefixOf cs).map fun s => "\"" ++ s ++ "\""

/-- What messages call the token at the start of a text, which may be a keyword. -/
def tokenName (mayBeKeyword : Bool) (cs : List Char) : String :=
  let keyword := (keyword? cs).filter fun _ => mayBeKeyword
  (symbolName? cs).getD ((keyword.map fun k => "\"" ++ k ++ "\"").getD "word")

/-- The text of a word that stands for itself. -/
def plainText (w : Word) : List Char :=
  w.flatMap fun
    | .text cs _ => cs
    | _ => []

/-- Whether no part of a word is quoted. -/
def isPlain (w : Word) : Bool :=
  w.all fun
    | .text _ isQuoted => !isQuoted
    | _ => true

/-- The lines of a text up to a closing one, and the text from the end of that line on; the number
bounds the steps by the length of the text. -/
def linesUntil (losesTabs : Bool) (closing : List Char) : Nat → List Char → List Char × List Char
  | 0, cs => ([], cs)
  | _, [] => ([], [])
  | steps + 1, cs =>
    let line := cs.takeWhile (· ≠ '\n')
    let rest := cs.drop line.length
    let line := if losesTabs then line.dropWhile (· = '\t') else line
    if line = closing then ([], rest)
    else
      let (more, after) := linesUntil losesTabs closing steps rest.tail
      (line ++ rest.take 1 ++ more, after)

/-- The document that starts on the next line of a text, and the text without it. -/
def takeDocument (losesTabs : Bool) (closing cs : List Char) : List Char × List Char :=
  let line := cs.takeWhile (· ≠ '\n')
  let rest := cs.drop line.length
  let (content, after) := linesUntil losesTabs closing rest.length rest.tail
  (content, line ++ List.replicate (lineEnds rest - lineEnds after) goneLine ++ after)

/-- A text with what an alias stands for at its start, if the word at its start is one.  The alias
does not stand for anything within that. -/
def unaliased? (src : Source) (cs : List Char) : Option (Source × List Char) :=
  let word := bareWord cs
  let rest := cs.drop word.length
  if rest.head?.any isQuoting then none
  else
    (src.aliases.lookup word).map fun value =>
      let isOpen := value.toList.getLast?.any fun c => c = ' ' ∨ c = '\t'
      ({ src with
        lines := src.lines + lineEnds value.toList
        aliases := src.aliases.filter fun a => a.1 ≠ word
        more := if isOpen then some rest.length else none }, value.toList ++ rest)

/-- The commands on which those after them do not wait, as one. -/
def inBackground (line : Nat) (clauses : List Clause) : List Clause :=
  [.pipeline .always false [.compound line (.background clauses) []]]

/-- A command that is made of words, with the number of the line on which its first one ends. -/
structure SimpleCommand where
  line : Nat
  words : List Word
  redirections : List Redirection

/-- The text after the token at its start, which is no word. -/
def afterSymbol (cs : List Char) : List Char :=
  match redirection? cs, symbols.find? fun s => s.toList.isPrefixOf cs with
  | some (_, _, rest), _ => rest
  | none, some symbol => cs.drop symbol.length
  | none, none => cs.tail

mutual

/-- Reads the pieces of a word up to what ends it. -/
def pieces (src : Source) : Nat → Mode → List Char → Except Flaw (Word × List Char)
  | 0, _, _ => .error (src.flaw .unterminatedQuote [])
  | _, m, [] =>
    if m = .plain ∨ m = .document then .ok ([], []) else .error (src.flaw m.flaw [])
  | fuel + 1, m, c :: rest =>
    if m.endsAt c ∧ (m ≠ .expression 0 ∨ rest.head? = some ')') then .ok ([], c :: rest)
    else
      let plainly (cs : List Char) (isQuoted : Bool) (next : Mode) (rest : List Char) :
          Except Flaw (Word × List Char) :=
        (pieces src fuel next rest).map fun (w, rest) => (addText cs isQuoted w, rest)
      match c, rest with
      | '\\', '\n' :: rest => pieces src fuel m rest
      | '\\', d :: rest =>
        if !m.isQuoted ∨ m.protects d then plainly [d] true m rest
        else plainly ['\\', d] true m rest
      | '$', rest => do
        match ← dollar src fuel m.isQuoted rest with
        | (none, rest) => plainly ['$'] m.isQuoted m rest
        | (some piece, rest) =>
          let (w, rest) ← pieces src fuel m rest
          return (piece :: w, rest)
      | '"', rest =>
        if m.opensQuotes then do
          let (inner, rest) ← pieces src fuel .quoted rest
          let (w, rest) ← pieces src fuel m rest.tail
          return ((if inner.isEmpty then [.text [] true] else inner) ++ w, rest)
        else plainly ['"'] true m rest
      | '\'', rest =>
        if m.isQuoted then plainly ['\''] true m rest
        else
          let inner := rest.takeWhile (· ≠ '\'')
          match rest.drop inner.length with
          | [] => .error (src.flaw .unterminatedQuote [])
          | _ :: rest => plainly inner true m rest
      | c, rest =>
        if c = Char.ofNat 96 then
          match backquoted m.isQuoted rest with
          | none => .error (src.flaw .openBackquote [])
          | some (inner, rest) => do
            let within := { src with lines := lineEnds inner + 1, more := none }
            let (body, left) ← list within fuel (skipLines inner)
            match misplaced within fuel left none true with
            | ⟨.unexpected _ _, _⟩ =>
              let (w, rest) ← pieces src fuel m rest
              return (.output body m.isQuoted :: w, rest)
            | flaw => .error flaw
        else
          match m, c with
          | .expression depth, '(' => plainly [c] true (.expression (depth + 1)) rest
          | .expression depth, ')' => plainly [c] true (.expression (depth - 1)) rest
          | _, _ => plainly [c] m.isQuoted m rest

/-- The flaw of a text that starts with a token for which there is no place.  A word is read before
that shows, and may have a flaw of its own. -/
def misplaced (src : Source) : Nat → List Char → Option String → Bool → Flaw
  | 0, _, _, _ => src.flaw .unterminatedQuote []
  | fuel + 1, cs, wanted, mayBeKeyword =>
    let kind : FlawKind := .unexpected (tokenName mayBeKeyword cs) wanted
    if cs.head? = some '\n' then src.flaw kind cs.tail
    else if (symbolName? cs).isSome then src.flaw kind cs
    else
      match pieces src fuel .plain cs with
      | .ok (_, rest) => src.flaw kind rest
      | .error flaw => flaw

/-- The text after a keyword. -/
def after (src : Source) : Nat → String → List Char → Except Flaw (List Char)
  | 0, _, _ => .error (src.flaw .unterminatedQuote [])
  | fuel + 1, word, cs =>
    if keyword? cs = some word then .ok (cs.drop word.length)
    else .error (misplaced src fuel cs (some ("\"" ++ word ++ "\"")) true)

/-- The text after a closing bracket, before which there may be a place for a keyword. -/
def afterBracket (src : Source) : Nat → Bool → List Char → Except Flaw (List Char)
  | 0, _, _ => .error (src.flaw .unterminatedQuote [])
  | _, _, ')' :: rest => .ok rest
  | fuel + 1, mayBeKeyword, cs =>
    .error (misplaced src fuel cs (some "\")\"") mayBeKeyword)

/-- Reads what stands after a dollar sign, which may stand for itself. -/
def dollar (src : Source) : Nat → Bool → List Char → Except Flaw (Option Piece × List Char)
  | 0, _, _ => .error (src.flaw .unterminatedQuote [])
  | fuel + 1, isQuoted, cs =>
    match cs with
    | '(' :: '(' :: rest => do
      let (w, rest) ← pieces src fuel (.expression 0) rest
      match rest with
      | ')' :: ')' :: rest => return (some (.number w isQuoted), rest)
      | _ => .error (src.flaw (.missing "))") [])
    | '(' :: rest => do
      let (body, rest) ← list src fuel (skipLines rest)
      let rest ← afterBracket src fuel true rest
      return (some (.output body isQuoted), rest)
    | '\x7b' :: rest => do
      let (piece, rest) ← braced src fuel isQuoted rest
      return (some piece, rest)
    | _ =>
      match parameterName false cs with
      | [] => .ok (none, cs)
      | name => .ok (some (.parameter (String.ofList name) .plain isQuoted), cs.drop name.length)

/-- Reads a parameter between braces. -/
def braced (src : Source) : Nat → Bool → List Char → Except Flaw (Piece × List Char)
  | 0, _, _ => .error (src.flaw (.missing "\x7d") [])
  | fuel + 1, isQuoted, cs =>
    let piece (name : List Char) (use : Use) : Piece :=
      .parameter (String.ofList name) use isQuoted
    let withWord (name : List Char) (use : Word → Use) (rest : List Char) :
        Except Flaw (Piece × List Char) := do
      let (w, rest) ← pieces src fuel (.braces isQuoted) rest
      return (piece name (use w), rest.tail)
    let trimmed (name : List Char) (atEnd isLongest : Bool) (rest : List Char) :
        Except Flaw (Piece × List Char) := do
      let (w, rest) ← pieces src fuel (.braces false) rest
      return (piece name (.trimmed atEnd isLongest w), rest.tail)
    let counted := parameterName true cs.tail
    let isCount := cs.head? = some '#' ∧
      (cs.tail.head?.any isNameChar ∨ (cs[1]? ≠ some '\x7d' ∧ cs[2]? = some '\x7d'))
    if isCount ∧ counted ≠ [] ∧ cs[counted.length + 1]? = some '\x7d' then
      .ok (piece counted .length, cs.drop (counted.length + 2))
    else if isCount then withWord [] (fun _ => .meaningless) (cs.drop 2)
    else
      let name := parameterName true cs
      let emptyCounts := cs[name.length]? == some ':'
      let rest := cs.drop (name.length + if emptyCounts then 1 else 0)
      match name, rest with
      | [], _ => withWord name (fun _ => .meaningless)
          (if cs.head? = some '\x7d' then cs else cs.tail)
      | _, '\x7d' :: rest' =>
        .ok (piece name (if emptyCounts then .meaningless else .plain), rest')
      | _, c :: rest' =>
        match substitute? c, emptyCounts, c, rest' with
        | some kind, _, _, _ => withWord name (.substitute kind emptyCounts) rest'
        | none, false, '%', '%' :: rest => trimmed name true true rest
        | none, false, '%', _ => trimmed name true false rest'
        | none, false, '#', '#' :: rest => trimmed name false true rest
        | none, false, '#', _ => trimmed name false false rest'
        | _, _, _, _ => withWord name (fun _ => .meaningless) rest'
      | _, [] => .error (src.flaw (.missing "\x7d") [])

/-- Reads redirections. -/
def redirections (src : Source) : Nat → List Char → Except Flaw (List Redirection × List Char)
  | 0, _ => .error (src.flaw .unterminatedQuote [])
  | fuel + 1, cs =>
    match redirection? (skipBlanks cs) with
    | none => .ok ([], cs)
    | some (stream, direction, rest) => do
      let losesTabs := direction = .document ∧ rest.head? = some '-'
      let start := skipBlanks (if losesTabs then rest.tail else rest)
      let (w, rest) ← pieces src fuel .plain start
      if (symbolName? start).isSome then .error (misplaced src fuel start none true)
      else if direction = .document then
        let (content, rest) := takeDocument losesTabs (plainText w) rest
        let w ← if isPlain w then (pieces src fuel .document content).map (·.1)
          else pure [.text content true]
        let (more, rest) ← redirections src fuel rest
        return ((stream, direction, w) :: more, rest)
      else
        let (more, rest) ← redirections src fuel rest
        return ((stream, direction, w) :: more, rest)

/-- Reads the words and redirections of a command; at its start a word may be an alias. -/
def simple (src : Source) :
    Nat → Bool → List Char → Except Flaw (SimpleCommand × List Char)
  | 0, _, _ => .error (src.flaw .unterminatedQuote [])
  | fuel + 1, isStart, cs => do
    let (rs, rest) ← redirections src fuel cs
    let start := skipBlanks rest
    let lineAt (text : List Char) : Nat := src.lineOf (if rs = [] then text else cs)
    if start.head?.all isMeta then
      return (⟨lineAt start, [], rs⟩, start)
    else
      let isNext := src.more.any fun n => start.length ≤ n
      match if isStart ∨ isNext then unaliased? src start else none with
      | some (src, rest) =>
        let (more, rest) ← simple src fuel isStart rest
        return ({ more with redirections := rs ++ more.redirections }, rest)
      | none =>
        let (w, rest) ← pieces src fuel .plain start
        let src := if isNext then { src with more := none } else src
        let (more, after) ← simple src fuel (isStart && (assignment? w).isSome) rest
        return (⟨lineAt rest, w :: more.words, rs ++ more.redirections⟩, after)

/-- Reads words up to the end of a line or command. -/
def words (src : Source) : Nat → List Char → Except Flaw (List Word × List Char)
  | 0, _ => .error (src.flaw .unterminatedQuote [])
  | fuel + 1, cs => do
    let start := skipBlanks cs
    if start.head?.all isMeta then return ([], start)
    else
      let (w, rest) ← pieces src fuel .plain start
      let (ws, rest) ← words src fuel rest
      return (w :: ws, rest)

/-- Reads commands up to something that can only end them. -/
def list (src : Source) : Nat → List Char → Except Flaw (List Clause × List Char)
  | 0, _ => .error (src.flaw .unterminatedQuote [])
  | fuel + 1, cs => do
    let cs := skipLines cs
    if cs = [] ∨ cs.head? = some ')' ∨ [';', ';'].isPrefixOf cs ∨
        (keyword? cs).any closingKeywords.contains then
      return ([], cs)
    else
      let (clauses, rest) ← chain src fuel .always cs
      match rest with
      | ';' :: ';' :: _ => return (clauses, rest)
      | c :: rest' =>
        if c = ';' ∨ c = '&' ∨ c = '\n' then
          let clauses := if c = '&' then inBackground (src.lineOf cs) clauses else clauses
          let (more, rest) ← list src fuel rest'
          return (clauses ++ more, rest)
        else return (clauses, rest)
      | [] => return (clauses, rest)

/-- Reads pipelines of which each one depends on the one before. -/
def chain (src : Source) : Nat → Connector → List Char → Except Flaw (List Clause × List Char)
  | 0, _, _ => .error (src.flaw .unterminatedQuote [])
  | fuel + 1, connector, cs => do
    let (clause, rest) ← pipeline src fuel connector cs
    match skipBlanks rest with
    | '&' :: '&' :: rest =>
      let (more, rest) ← chain src fuel .onSuccess (skipLines rest)
      return (clause :: more, rest)
    | '|' :: '|' :: rest =>
      let (more, rest) ← chain src fuel .onFailure (skipLines rest)
      return (clause :: more, rest)
    | rest => return ([clause], rest)

/-- Reads a pipeline. -/
def pipeline (src : Source) : Nat → Connector → List Char → Except Flaw (Clause × List Char)
  | 0, _, _ => .error (src.flaw .unterminatedQuote [])
  | fuel + 1, connector, cs => do
    let isNegated := keyword? cs = some "!"
    let start := if isNegated then skipBlanks cs.tail else cs
    let (commands, rest) ← piped src fuel start
    return (.pipeline connector isNegated commands, rest)

/-- Reads commands of which each one reads what the one before writes. -/
def piped (src : Source) : Nat → List Char → Except Flaw (List Command × List Char)
  | 0, _ => .error (src.flaw .unterminatedQuote [])
  | fuel + 1, cs => do
    let (first, rest) ← command src fuel cs
    match skipBlanks rest with
    | '|' :: '|' :: rest => return ([first], '|' :: '|' :: rest)
    | '|' :: rest =>
      let (more, rest) ← piped src fuel (skipLines rest)
      return (first :: more, rest)
    | rest => return ([first], rest)

/-- Reads a list that has to have commands. -/
def body (src : Source) : Nat → List Char → Except Flaw (List Clause × List Char)
  | 0, _ => .error (src.flaw .unterminatedQuote [])
  | fuel + 1, cs => do
    let (clauses, rest) ← list src fuel cs
    if clauses.isEmpty ∧ rest ≠ [] then .error (misplaced src fuel rest none true) else return (clauses, rest)

/-- Reads a command. -/
def command (src : Source) : Nat → List Char → Except Flaw (Command × List Char)
  | 0, _ => .error (src.flaw .unterminatedQuote [])
  | fuel + 1, cs => do
    let line := src.lineOf cs
    let compound (form : Compound) (rest : List Char) : Except Flaw (Command × List Char) := do
      let (rs, rest) ← redirections src fuel rest
      return (.compound line form rs, rest)
    match keyword? cs with
    | some "if" => do
      let (form, rest) ← branch src fuel (cs.drop 2)
      compound form rest
    | some "while" | some "until" =>
      let isUntil := keyword? cs = some "until"
      let (test, rest) ← body src fuel (cs.drop 5)
      let (inner, rest) ← body src fuel (← after src fuel "do" rest)
      compound (.loop isUntil test inner) (← after src fuel "done" rest)
    | some "for" =>
      let (form, rest) ← forEach src fuel (skipBlanks (cs.drop 3))
      compound form rest
    | some "case" =>
      let start := skipBlanks (cs.drop 4)
      let (w, rest) ← pieces src fuel .plain start
      let rest := skipLines rest
      if (symbolName? start).isSome then .error (misplaced src fuel start (some "word") true)
      else if bareWord rest ≠ "in" then .error (misplaced src fuel rest (some "\"in\"") true)
      else
        let (arms, rest) ← caseArms src fuel (skipLines (rest.drop 2))
        compound (.choose w arms) rest
    | some "\x7b" =>
      let (inner, rest) ← body src fuel cs.tail
      let (rs, rest) ← redirections src fuel (← after src fuel "\x7d" rest)
      match inner, rs with
      | [.pipeline .always false [.compound line (.inner inner) _]], _ :: _ =>
        return (.compound line (.inner inner) rs, rest)
      | _, _ => return (.compound line (.group inner) rs, rest)
    | some _ => .error (misplaced src fuel cs none true)
    | none =>
      match cs, unaliased? src cs with
      | _, some (src, rest) => command src fuel (skipBlanks rest)
      | '(' :: rest, none =>
        let (inner, rest) ← body src fuel rest
        compound (.inner inner) (← afterBracket src fuel true rest)
      | _, none =>
        let (found, rest) ← simple src fuel true cs
        match found.words, found.redirections, rest with
        | [], [], _ => .error (misplaced src fuel rest none true)
        | [w], [], '(' :: rest' =>
          if (assignment? w).isSome then return (.simple found.line [w] [], rest)
          else
            let rest ← afterBracket src fuel false (skipBlanks rest')
            match functionName? w with
            | none => .error (src.flaw (.badName "function name") rest)
            | some name =>
              let (inner, rest) ← command src fuel (skipLines rest)
              return (.define name inner, rest)
        | ws, rs, _ => return (.simple found.line ws rs, rest)

/-- Reads the rest of a branch after its first keyword. -/
def branch (src : Source) : Nat → List Char → Except Flaw (Compound × List Char)
  | 0, _ => .error (src.flaw .unterminatedQuote [])
  | fuel + 1, cs => do
    let (test, rest) ← body src fuel cs
    let (yes, rest) ← body src fuel (← after src fuel "then" rest)
    match keyword? rest with
    | some "elif" =>
      let (form, after) ← branch src fuel (rest.drop 4)
      let line := src.lineOf rest
      return (.branch test yes [.pipeline .always false [.compound line form []]], after)
    | some "else" =>
      let (no, rest) ← body src fuel (rest.drop 4)
      return (.branch test yes no, ← after src fuel "fi" rest)
    | _ => return (.branch test yes [], ← after src fuel "fi" rest)

/-- Reads the rest of a loop over words. -/
def forEach (src : Source) : Nat → List Char → Except Flaw (Compound × List Char)
  | 0, _ => .error (src.flaw .unterminatedQuote [])
  | fuel + 1, cs => do
    let name := bareWord cs
    if !isName name.toList then
      match misplaced src fuel cs none false with
      | ⟨.unexpected _ _, line⟩ => .error ⟨.badName "for loop variable", line⟩
      | flaw => .error flaw
    else
      let rest := skipLines (cs.drop name.length)
      let (values, rest) ←
        if bareWord rest = "in" then do
          let (ws, rest) ← words src fuel (rest.drop 2)
          match rest with
          | ';' :: rest | '\n' :: rest => pure (some ws, rest)
          | _ => .error (misplaced src fuel rest none true)
        else
          match rest with
          | ';' :: rest => pure (none, rest)
          | _ => pure (none, rest)
      let (inner, rest) ← body src fuel (← after src fuel "do" (skipLines rest))
      return (.each name values inner, ← after src fuel "done" rest)

/-- Reads the arms of a choice and the keyword after them. -/
def caseArms (src : Source) :
    Nat → List Char → Except Flaw (List (List Word × List Clause) × List Char)
  | 0, _ => .error (src.flaw .unterminatedQuote [])
  | fuel + 1, cs => do
    if keyword? cs = some "esac" then return ([], cs.drop 4)
    else
      let start := if cs.head? = some '(' then skipBlanks cs.tail else cs
      let (patterns, rest) ← alternatives src fuel start
      let (inner, rest) ← list src fuel rest
      match rest with
      | ';' :: ';' :: rest =>
        let (more, rest) ← caseArms src fuel (skipLines rest)
        return ((patterns, inner) :: more, rest)
      | _ =>
        if keyword? rest = some "esac" then return ([(patterns, inner)], rest.drop 4)
        else .error (misplaced src fuel rest (some "\";;\"") true)

/-- Reads the patterns of an arm and the bracket after them.  In the place of a pattern anything
passes. -/
def alternatives (src : Source) : Nat → List Char → Except Flaw (List Word × List Char)
  | 0, _ => .error (src.flaw .unterminatedQuote [])
  | fuel + 1, cs => do
    let (w, rest) ←
      if (symbolName? cs).isSome then pure ([], afterSymbol cs) else pieces src fuel .plain cs
    match skipBlanks rest with
    | '|' :: '|' :: _ => .error (misplaced src fuel (skipBlanks rest) (some "\")\"") true)
    | '|' :: rest =>
      let (more, rest) ← alternatives src fuel (skipBlanks rest)
      return (w :: more, rest)
    | rest => return ([w], ← afterBracket src fuel false rest)

end

/-- The steps that are enough for a text. -/
def Source.stepsFor (src : Source) (cs : List Char) : Nat :=
  let longest := src.aliases.foldl (fun n a => n + a.2.length) 1
  16 * cs.length * longest + 32

/-- Reads the commands of the next line that has any, and the text after the line. -/
def nextLine (src : Source) (cs : List Char) : Except Flaw (List Clause × List Char) := do
  let steps := src.stepsFor cs
  let rec line : Nat → List Char → Except Flaw (List Clause × List Char)
    | 0, _ => .error (src.flaw .unterminatedQuote [])
    | fuel + 1, cs => do
      let (clauses, rest) ← chain src steps .always cs
      match rest with
      | c :: rest' =>
        if [';', ';'].isPrefixOf rest then .error (misplaced src steps rest none true)
        else if c = ';' ∨ c = '&' then
          let clauses :=
            if c = '&' then inBackground (src.lineOf cs) clauses else clauses
          match skipBlanks rest' with
          | [] => return (clauses, [])
          | '\n' :: rest => return (clauses, rest)
          | rest =>
            let (more, rest) ← line fuel rest
            return (clauses ++ more, rest)
        else if c = '\n' then return (clauses, rest')
        else .error (misplaced src steps rest none true)
      | [] => return (clauses, [])
  match skipLines cs with
  | [] => return ([], [])
  | cs => line (src.stepsFor cs) cs

/-- Reads what a text stands for that has the form of a document. -/
def readDocument (cs : List Char) : Except Flaw Word :=
  let src : Source := ⟨lineEnds cs + 1, [], none⟩
  (pieces src (src.stepsFor cs) .document cs).map (·.1)

end MediaPhases.Script
