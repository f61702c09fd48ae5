import MediaPhases.Files.Path

/-!
# Templates

The arguments of commands may hold placeholders: the name of a variable between braces.  A
template is filled in one pass from left to right, so that the text put in is not looked at
again.  A name that is not defined, and an opening brace that is never closed, stay as they are.
-/

namespace MediaPhases

/-- Variables with their values; the first entry of a name counts. -/
structure TemplateContext where
  entries : List (String × String) := []
deriving DecidableEq, Repr

namespace TemplateContext

/-- The value of a variable. -/
def get? (c : TemplateContext) (name : String) : Option String :=
  c.entries.lookup name

/-- The context with a variable set to a value. -/
def set (c : TemplateContext) (name value : String) : TemplateContext :=
  ⟨(name, value) :: c.entries⟩

/-- The context with a variable set if there is a value. -/
def setSome (c : TemplateContext) (name : String) : Option String → TemplateContext
  | some value => c.set name value
  | none => c

/-- The variables that describe a file as a phase sees it. -/
def ofFile (path phase : String) : TemplateContext :=
  (({} : TemplateContext).set "input" path).set "phase" phase
    |>.setSome "filename" (Path.fileName? path)
    |>.setSome "filestem" (Path.fileStem? path)
    |>.setSome "extension" (Path.extension? path)
    |>.setSome "dirname" (Path.parent? path)

/-- What stands for a placeholder. -/
def placeholder (c : TemplateContext) (name : List Char) : List Char :=
  match c.get? (String.ofList name) with
  | some value => value.toList
  | none => '{' :: name ++ ['}']

/-- Fills the rest of a template.  Within a placeholder, the characters of its name so far are
held in reverse. -/
def fill (c : TemplateContext) : Option (List Char) → List Char → List Char
  | none, [] => []
  | some name, [] => '{' :: name.reverse
  | none, x :: rest => if x = '{' then fill c (some []) rest else x :: fill c none rest
  | some name, x :: rest =>
    if x = '}' then c.placeholder name.reverse ++ fill c none rest
    else fill c (some (x :: name)) rest

/-- Fills a template. -/
def substitute (c : TemplateContext) (template : String) : String :=
  String.ofList (c.fill none template.toList)

end TemplateContext

end MediaPhases
