import MediaPhases.CommandLine.Session
import MediaPhases.Programs.Launch

/-!
# The program

Reads what a command line may need into a tree of files, has the session do its work on the tree,
and writes back what has changed.  Commands are programs of this library.
-/

namespace MediaPhases.CommandLine

/-- The tree with the file at a path, if there is one that can be read. -/
def withFile (t : FileTree) (path : String) : IO FileTree := do
  match ← (IO.FS.readBinFile path).toBaseIO with
  | .ok content => return t.add path content.toList
  | .error _ => return t

/-- The tree with the files that stand beside a path. -/
def withNeighbours (t : FileTree) (path : String) : IO FileTree := do
  let directory := match Path.parent? path with
    | some "" | none => "."
    | some parent => parent
  match ← (do (← IO.FS.realPath directory).readDir).toBaseIO with
  | .error _ => return t
  | .ok entries =>
    entries.foldlM (fun t entry => withFile t (directory ++ "/" ++ entry.fileName)) t

/-- The tree of what the words of a command line may name. -/
def loadTree (home : String) (words : List String) : IO FileTree := do
  let working := (← IO.currentDir).components.filter (· ≠ "/")
  let t ← (Settings.usualPaths home).foldlM withFile (.ofWorking working)
  (words.filter (!isOption ·)).foldlM withNeighbours t

/-- Writes the files that a session has changed. -/
def store (before after : FileTree) : IO Unit :=
  (after.changedFrom before).forM fun (names, content) =>
    IO.FS.writeBinFile ("/" ++ "/".intercalate names) ⟨content.toArray⟩

end MediaPhases.CommandLine

open MediaPhases CommandLine in
/-- Runs a session on the files of the machine. -/
def main (words : List String) : IO UInt32 := do
  let home := (← IO.getEnv "HOME").getD "~"
  let tree ← loadTree home words
  let ending := session ⟨id, Programs.launch, home⟩ words tree
  IO.print ending.stdout
  ending.stderr.forM IO.eprintln
  store tree ending.world
  return ending.code.toUInt32
