import MediaPhases.Files.Fault
import MediaPhases.Text.Utf8

/-!
# File trees

Files and directories as a value.  A path is followed segment by segment from the root or from
the working directory; every segment, an empty one at the end included, asks for a directory
before it.
-/

namespace MediaPhases

/-- What stands at a path. -/
inductive FileNode where
  | file (content : List UInt8)
  | directory (entries : List (String × FileNode))
  /-- The device that gives nothing and keeps nothing. -/
  | null

namespace FileNode

/-- The entries of a directory; nothing else has any. -/
def entries : FileNode → List (String × FileNode)
  | .directory entries => entries
  | _ => []

/-- The node under a name. -/
def child? (name : String) (n : FileNode) : Option FileNode :=
  n.entries.lookup name

/-- The node to which names lead. -/
def at? : List String → FileNode → Option FileNode
  | [], n => some n
  | name :: rest, n => (n.child? name).bind (at? rest)

/-- Puts a node where names lead, making the directories on the way. -/
def put (node : FileNode) : List String → FileNode → FileNode
  | [], _ => node
  | name :: rest, n =>
    let inner := put node rest ((n.child? name).getD (.directory []))
    if (n.child? name).isSome then
      .directory (n.entries.map fun e => if e.1 = name then (name, inner) else e)
    else .directory (n.entries ++ [(name, inner)])

mutual

/-- The files below a node, with the names that lead to them. -/
def files : FileNode → List (List String × List UInt8)
  | .file content => [([], content)]
  | .directory entries => filesOf entries
  | .null => []

/-- The files below the entries of a directory. -/
def filesOf : List (String × FileNode) → List (List String × List UInt8)
  | [] => []
  | (name, n) :: rest => (files n).map (fun f => (name :: f.1, f.2)) ++ filesOf rest

end

end FileNode

/-- A tree of files with a working directory. -/
structure FileTree where
  root : FileNode := .directory []
  /-- The names that lead from the root to the working directory. -/
  working : List String := []

namespace FileTree

/-- The greatest length of a name in bytes. -/
def nameLimit : Nat := 255

/-- The greatest length of a path in bytes. -/
def pathLimit : Nat := 4095

/-- Follows segments from a place in the tree, which is given by the names that lead to it in
reverse. -/
def follow (t : FileTree) : List String → List String → Except FileFault (List String)
  | place, [] => .ok place
  | place, segment :: rest =>
    match t.root.at? place.reverse with
    | none => .error .notFound
    | some (.file _) | some .null => .error .notDirectory
    | some (.directory entries) =>
      if segment = "" ∨ segment = "." then t.follow place rest
      else if segment = ".." then t.follow place.tail rest
      else if nameLimit < segment.utf8ByteSize then .error .nameTooLong
      else if (entries.lookup segment).isSome then t.follow (segment :: place) rest
      else .error .notFound

/-- The place at which a path starts, in reverse, and the segments of the path. -/
def start (t : FileTree) (path : String) : List String × List String :=
  let segments := (path.toList.splitOn '/').map String.ofList
  (if path.toList.head? = some '/' then [] else t.working.reverse, segments)

/-- The names that lead to an existing path. -/
def locate (t : FileTree) (path : String) : Except FileFault (List String) :=
  if path = "" then .error .notFound
  else if path.contains '\x00' then .error .holdsNul
  else if pathLimit < path.utf8ByteSize then .error .nameTooLong
  else
    let (place, segments) := t.start path
    (t.follow place segments).map List.reverse

/-- The node of a path. -/
def node (t : FileTree) (path : String) : Except FileFault FileNode := do
  let names ← t.locate path
  match t.root.at? names with
  | some n => .ok n
  | none => .error .notFound

/-- Whether a path exists. -/
def hasPath (t : FileTree) (path : String) : Bool :=
  match t.node path with
  | .ok _ => true
  | .error _ => false

/-- Whether a path is that of a file. -/
def isFile (t : FileTree) (path : String) : Bool :=
  match t.node path with
  | .ok (.file _) => true
  | _ => false

/-- Whether a path is that of a directory. -/
def isDirectory (t : FileTree) (path : String) : Bool :=
  match t.node path with
  | .ok (.directory _) => true
  | _ => false

/-- The entries of the directory at a path, if there is one. -/
def entriesOf (t : FileTree) (path : String) : List (String × FileNode) :=
  match t.node path with
  | .ok n => n.entries
  | .error _ => []

/-- The content of a file. -/
def read (t : FileTree) (path : String) : Except FileFault (List UInt8) := do
  match ← t.node path with
  | .file content => .ok content
  | .directory _ => .error .isDirectory
  | .null => .ok []

/-- The content of a file that holds text. -/
def readText (t : FileTree) (path : String) : Except FileFault String := do
  match Text.decodeUtf8? (← t.read path) with
  | some text => .ok text
  | none => .error .notText

/-- The size that is reported for directories. -/
def directorySize : Nat := 4096

/-- The size of what stands at a path, if anything does. -/
def sizeOf? (t : FileTree) (path : String) : Option Nat :=
  match t.node path with
  | .ok (.file content) => some content.length
  | .ok (.directory _) => some directorySize
  | .ok .null => some 0
  | .error _ => none

/-- The names that lead to a path whose last segment need not exist. -/
def target (t : FileTree) (path : String) : Except FileFault (List String) :=
  match t.locate path with
  | .ok names => .ok names
  | .error .notFound =>
    let (place, segments) := t.start path
    match segments.getLast? with
    | none => .error .notFound
    | some name =>
      if name = "" ∨ name = "." ∨ name = ".." then .error .notFound
      else do
        let place ← t.follow place segments.dropLast
        match t.root.at? place.reverse with
        | some (.directory _) => .ok (name :: place).reverse
        | some _ => .error .notDirectory
        | none => .error .notFound
  | .error fault => .error fault

/-- Writes a file, which is made if it does not exist. -/
def write (t : FileTree) (path : String) (content : List UInt8) : Except FileFault FileTree := do
  let names ← t.target path
  match t.root.at? names with
  | some (.directory _) => .error .isDirectory
  | some .null => .ok t
  | _ => .ok { t with root := FileNode.put (.file content) names t.root }

/-- Walks along segments without looking at the tree; the names passed so far are held in
reverse. -/
def walk : List String → List String → List String
  | place, [] => place
  | place, segment :: rest =>
    if segment = "" ∨ segment = "." then walk place rest
    else if segment = ".." then walk place.tail rest
    else walk (segment :: place) rest

/-- The names that a path spells out. -/
def spelled (t : FileTree) (path : String) : List String :=
  let (place, segments) := t.start path
  (walk place segments).reverse

/-- The tree with a file at a path, and with the directories on the way. -/
def add (t : FileTree) (path : String) (content : List UInt8) : FileTree :=
  { t with root := FileNode.put (.file content) (t.spelled path) t.root }

/-- The directories that there are on every machine. -/
def usualDirectories : List (List String) :=
  [["bin"], ["dev"], ["etc"], ["home"], ["proc"], ["root"], ["sys"], ["tmp"], ["usr"],
    ["usr", "bin"], ["usr", "lib"], ["var"]]

/-- The root of a machine without files. -/
def usualRoot : FileNode :=
  FileNode.put .null ["dev", "null"]
    (usualDirectories.foldl (fun n names => .put (.directory []) names n) (.directory []))

/-- The tree of a working directory without files. -/
def ofWorking (working : List String) : FileTree where
  root := FileNode.put (.directory []) working usualRoot
  working := working

/-- The tree of files given by their paths, around a working directory. -/
def ofFiles (working : List String) (files : List (String × List UInt8)) : FileTree :=
  files.foldl (fun t f => t.add f.1 f.2) (ofWorking working)

/-- The files of a tree that another tree does not hold in the same way. -/
def changedFrom (t before : FileTree) : List (List String × List UInt8) :=
  t.root.files.filter fun f =>
    match before.root.at? f.1 with
    | some (.file content) => content != f.2
    | _ => true

end FileTree

end MediaPhases
