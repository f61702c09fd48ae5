import MediaPhases.Files.Tree
import MediaPhases.JobFault

/-!
# Settings files

Where the settings are looked for when no file is named: the first of the usual paths that exists
counts, and without any of them everything keeps its default.
-/

namespace MediaPhases

namespace Settings

/-- The paths of settings files in the order in which they are looked for. -/
def usualPaths (home : String) : List String :=
  ["./phaseforged.toml", home ++ "/.config/phaseforged/config.toml",
    "/etc/phaseforged/config.toml"]

/-- Reads a settings file. -/
def load (t : FileTree) (path : String) : Except JobFault Settings :=
  match t.readText path with
  | .error fault =>
    .error (.context s!"Failed to read config file: {Text.quoted path}" (.root (.file fault)))
  | .ok text =>
    (parse text).mapError fun fault =>
      .context s!"Failed to parse config file: {Text.quoted path}" (.root (.settings fault))

/-- Reads the named settings file, or else the first usual one, or else none. -/
def find (t : FileTree) (home : String) (named : Option String) :
    Except JobFault Settings :=
  match named with
  | some path => load t path
  | none =>
    match (usualPaths home).find? t.hasPath with
    | some path => load t path
    | none => .ok {}

end Settings

end MediaPhases
