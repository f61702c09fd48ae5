import MediaPhases.Text.Blank
import MediaPhases.Text.Lowercase

/-!
# Containers

Container names as tools report them, such as `matroska,webm`, are brought to a short form.
Exact names come first, then parts of names in a fixed order; a name that no rule knows is its
own short form.
-/

namespace MediaPhases.Container

/-- Names with a short form of their own. -/
def exactNames : List (String × String) :=
  [("matroska", "mkv"), ("matroska,webm", "mkv"), ("webm", "mkv"),
    ("mov,mp4,m4a,3gp,3g2,mj2", "mp4"), ("quicktime", "mov")]

/-- Parts of names that decide the short form, the first that occurs. -/
def nameParts : List (String × String) :=
  [("matroska", "mkv"), ("mp4", "mp4"), ("m4a", "mp4"), ("m4v", "mp4"), ("mov", "mov"),
    ("quicktime", "mov"), ("avi", "avi")]

/-- Whether `part` occurs in a list of characters. -/
def occursIn (part : List Char) : List Char → Bool
  | [] => part.isEmpty
  | c :: rest => part.isPrefixOf (c :: rest) || occursIn part rest

/-- The short form of a trimmed name in lower case. -/
def shortForm (name : String) : String :=
  match exactNames.find? (·.1 == name) with
  | some (_, short) => short
  | none =>
    match nameParts.find? fun p => occursIn p.1.toList name.toList with
    | some (_, short) => short
    | none => name

/-- The short form of a container name. -/
def normalize (name : String) : String :=
  shortForm (String.ofList (Text.lowerChars (Text.trimChars name.toList)))

/-- Whether two names denote the same container format. -/
def isSame (current target : String) : Bool :=
  normalize current == normalize target

end MediaPhases.Container
