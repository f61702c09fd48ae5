/-!
# Paths

The parts of a file path.  What stands before the first segment is a slash, a point or nothing;
slashes at the end, repeated slashes and segments that are a point do not count.  The segment of
two points is no name.
-/

namespace MediaPhases

/-- A path in parts. -/
structure PathParts where
  /-- What stands before the segments: a slash, a point or nothing. -/
  lead : List Char
  /-- The segments with the empty ones between slashes. -/
  segments : List (List Char)
deriving DecidableEq, Repr

namespace PathParts

/-- A segment that does not count. -/
def isIdle (segment : List Char) : Bool :=
  segment == [] || segment == ['.']

/-- The segments without the idle ones at the end. -/
def dropIdleEnd (segments : List (List Char)) : List (List Char) :=
  (segments.reverse.dropWhile isIdle).reverse

/-- The segments of a text without the idle ones at the end. -/
def segmentsOf (cs : List Char) : List (List Char) :=
  dropIdleEnd (cs.splitOn '/')

/-- The parts of a path. -/
def ofChars (cs : List Char) : PathParts :=
  match cs with
  | '/' :: rest => ⟨['/'], segmentsOf rest⟩
  | ['.'] => ⟨['.'], []⟩
  | '.' :: '/' :: rest => ⟨['.'], segmentsOf ('/' :: rest)⟩
  | _ => ⟨[], segmentsOf cs⟩

/-- The path of parts. -/
def toChars (p : PathParts) : List Char :=
  p.lead ++ ['/'].intercalate p.segments

/-- The last segment, if it is a name. -/
def name? (p : PathParts) : Option (List Char) :=
  p.segments.getLast?.filter (· ≠ ['.', '.'])

/-- The path without its last segment, if there is one. -/
def parent? (p : PathParts) : Option PathParts :=
  if p.segments ≠ [] then some { p with segments := dropIdleEnd p.segments.dropLast }
  else if p.lead = ['.'] then some ⟨[], []⟩
  else none

/-- A name split at its last point, if there is one after the first character. -/
def splitName (name : List Char) : List Char × Option (List Char) :=
  let extension := name.reverse.takeWhile (· ≠ '.')
  match name.reverse.drop extension.length with
  | [] => (name, none)
  | _ :: stem => if stem = [] then (name, none) else (stem.reverse, some extension.reverse)

end PathParts

namespace Path

/-- The last segment of a path, if it is a name. -/
def fileName? (path : String) : Option String :=
  (PathParts.ofChars path.toList).name?.map String.ofList

/-- The name without its extension. -/
def fileStem? (path : String) : Option String :=
  (PathParts.ofChars path.toList).name?.map fun n => String.ofList (PathParts.splitName n).1

/-- The part of the name after its last point. -/
def extension? (path : String) : Option String :=
  (PathParts.ofChars path.toList).name?.bind fun n => (PathParts.splitName n).2.map String.ofList

/-- The path without its last segment. -/
def parent? (path : String) : Option String :=
  (PathParts.ofChars path.toList).parent?.map fun p => String.ofList p.toChars

end Path

end MediaPhases
