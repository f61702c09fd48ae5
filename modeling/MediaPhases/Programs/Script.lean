/-!
# Scripts

What the text of a script says: commands, joined by what has to become of the one before, which
are made of words.  A word is a sequence of pieces, some of which stand for the value of a
parameter, for what another script writes or for a number.
-/

namespace MediaPhases.Script

/-- Where a stream of a command goes to or comes from. -/
inductive Direction where
  | output
  /-- Output that may take the place of what there is, whatever the options say. -/
  | over
  | append
  | input
  /-- Input from a file that is made if it does not exist. -/
  | both
  /-- The stream that the word names by its number. -/
  | stream
  /-- What the word says is itself what is read. -/
  | document
deriving DecidableEq, Repr

/-- When a pipeline is run: whatever came before, or after a success or a failure of it. -/
inductive Connector where
  | always
  | onSuccess
  | onFailure
deriving DecidableEq, Repr

/-- What a word beside a parameter is for. -/
inductive Substitute where
  /-- It stands for a value that is not there. -/
  | usual
  /-- It becomes the value that is not there. -/
  | assigned
  /-- It is the complaint about a value that is not there. -/
  | complaint
  /-- It stands for a value that is there. -/
  | instead
deriving DecidableEq, Repr

mutual

/-- A piece of a word.  What stands for a piece that is not quoted is split at blanks. -/
inductive Piece where
  | text (cs : List Char) (isQuoted : Bool)
  | parameter (name : String) (use : Use) (isQuoted : Bool)
  /-- What a script writes. -/
  | output (body : List Clause) (isQuoted : Bool)
  /-- The value of an expression. -/
  | number (expression : List Piece) (isQuoted : Bool)

/-- What becomes of the value of a parameter. -/
inductive Use where
  | plain
  | length
  /-- A word is for a value that is there, or that is not; an empty one may count as either. -/
  | substitute (kind : Substitute) (emptyCounts : Bool) (word : List Piece)
  /-- A part that a pattern matches is cut off. -/
  | trimmed (atEnd isLongest : Bool) (pattern : List Piece)
  /-- The braces hold something that has no meaning. -/
  | meaningless

/-- A command with the number of its line. -/
inductive Command where
  | simple (line : Nat) (words : List (List Piece))
      (redirections : List (Nat × Direction × List Piece))
  | compound (line : Nat) (form : Compound) (redirections : List (Nat × Direction × List Piece))
  /-- Gives a command a name. -/
  | define (name : String) (body : Command)

/-- A command made of scripts. -/
inductive Compound where
  | group (body : List Clause)
  /-- A group that leaves nothing behind in the interpreter. -/
  | inner (body : List Clause)
  /-- An inner group that the commands after it do not wait for. -/
  | background (body : List Clause)
  | branch (test yes no : List Clause)
  | loop (isUntil : Bool) (test body : List Clause)
  /-- A body for every word, or else for every argument. -/
  | each (name : String) (words : Option (List (List Piece))) (body : List Clause)
  /-- The first arm one of whose patterns matches the word. -/
  | choose (word : List Piece) (arms : List (List (List Piece) × List Clause))

/-- Commands of which each one reads what the one before writes. -/
inductive Clause where
  | pipeline (connector : Connector) (isNegated : Bool) (commands : List Command)

end

/-- A character of a parameter's name. -/
def isNameChar (c : Char) : Bool :=
  c.isAlphanum || c == '_'

/-- Whether a text is the name of a variable. -/
def isName (cs : List Char) : Bool :=
  cs != [] && cs.all isNameChar && !(cs.head?.any Char.isDigit)

/-- A word of a script. -/
abbrev Word := List Piece

/-- Where one stream of a command goes to or comes from. -/
abbrev Redirection := Nat × Direction × Word

/-- When a clause is run. -/
def Clause.connector : Clause → Connector
  | .pipeline connector _ _ => connector

/-- What is wrong with a text that is no script. -/
inductive FlawKind where
  | unterminatedQuote
  | openBackquote
  | missing (closing : String)
  | badName (owner : String)
  /-- A token stands where there is no place for it, and perhaps one place for another. -/
  | unexpected (token : String) (wanted : Option String)
deriving DecidableEq, Repr

/-- Why a text is no script, and the number of the line on which that shows. -/
structure Flaw where
  kind : FlawKind
  line : Nat
deriving DecidableEq, Repr

/-- The wording of a flaw. -/
def Flaw.message (f : Flaw) : String :=
  match f.kind with
  | .unterminatedQuote => "Syntax error: Unterminated quoted string"
  | .openBackquote => "Syntax error: EOF in backquote substitution"
  | .missing closing => s!"Syntax error: Missing '{closing}'"
  | .badName owner => s!"Syntax error: Bad {owner}"
  | .unexpected token none => s!"Syntax error: {token} unexpected"
  | .unexpected token (some wanted) => s!"Syntax error: {token} unexpected (expecting {wanted})"

end MediaPhases.Script
