import MediaPhases.Programs.Pattern

/-!
# Fields

The arguments that words come to.  A word is one field until a value within it is split, and what
comes of nothing but values may be no field at all.
-/

namespace MediaPhases

/-- What of a word is split: nothing, the values in it, or what stands in it as text too. -/
inductive Splitting where
  | never
  | values
  | all
deriving DecidableEq, Repr

/-- Fields that are being built: those that are complete, the last one first, and the one that is
not, in reverse. -/
structure Fields where
  complete : List (List Pattern.Mark) := []
  current : Option (List Pattern.Mark) := none

namespace Fields

/-- Goes on with the current field. -/
def push (f : Fields) (cs : List Char) (isQuoted : Bool) : Fields :=
  { f with current := some (cs.foldl (fun marks c => (c, isQuoted) :: marks) (f.current.getD [])) }

/-- Ends the current field, if there is one. -/
def cut (f : Fields) : Fields :=
  match f.current with
  | some marks => ⟨marks.reverse :: f.complete, none⟩
  | none => f

/-- Goes on with a text that is split at separators.  A separator that is no blank ends a field
even if there is nothing in it. -/
def pushSplit (separators : List Char) (f : Fields) : List Char → Fields
  | [] => f
  | c :: rest =>
    if !separators.contains c then (f.push [c] false).pushSplit separators rest
    else if c = ' ' ∨ c = '\t' ∨ c = '\n' then f.cut.pushSplit separators rest
    else (f.push [] false).cut.pushSplit separators rest

/-- Goes on with a value. -/
def pushValue (f : Fields) (separators : List Char) (splitting : Splitting) (isQuoted : Bool)
    (text : String) : Fields :=
  if isQuoted ∨ splitting = .never then f.push text.toList isQuoted
  else f.pushSplit separators text.toList

/-- Goes on with several values, of which each starts a field of its own. -/
def pushEach (f : Fields) (push : Fields → String → Fields) : List String → Fields
  | [] => f
  | [value] => push f value
  | value :: rest => (push f value).cut.pushEach push rest

/-- The fields in order. -/
def all (f : Fields) : List (List Pattern.Mark) :=
  f.cut.complete.reverse

/-- What there is as one field. -/
def whole (f : Fields) : List Pattern.Mark :=
  f.all.flatten

end Fields

end MediaPhases
