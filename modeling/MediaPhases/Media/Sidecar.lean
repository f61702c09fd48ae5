import MediaPhases.Failure
import MediaPhases.Files.Tree
import MediaPhases.Media.Document

/-!
# Sidecar files

The snapshot of a media file stands in a file beside it, whose name is that of the media file, a
point and a suffix.  What the snapshot does not say about path and size is taken from the media
file itself.
-/

namespace MediaPhases

/-- Where the snapshots of media files stand. -/
structure Sidecar where
  /-- What follows the point after the name of the media file. -/
  suffix : String
deriving DecidableEq, Repr

namespace Sidecar

/-- The sidecar files with a suffix, whose leading points do not count. -/
def ofSuffix (suffix : String) : Sidecar where
  suffix := String.ofList (suffix.toList.dropWhile (· == '.'))

/-- The usual suffix. -/
def standardSuffix : String := "probe.json"

/-- The path of the sidecar of a media file. -/
def path (s : Sidecar) (media : String) : String :=
  media ++ "." ++ s.suffix

/-- Whether a media file has a sidecar. -/
def supports (s : Sidecar) (t : FileTree) (media : String) : Bool :=
  t.isFile (s.path media)

/-- Reads the snapshot of a media file. -/
def probe (s : Sidecar) (t : FileTree) (media : String) : Except Failure MediaInfo :=
  match t.readText (s.path media) with
  | .error fault => .error (.probe (.unreadable (s.path media) fault))
  | .ok text =>
    match Json.decode MediaInfo.reader text with
    | .error fault => .error (.probe (.invalid (s.path media) fault))
    | .ok info =>
      .ok { info with
        filePath := if info.filePath = "" then media else info.filePath
        fileSize := info.fileSize.or (t.sizeOf? media) }

end Sidecar

end MediaPhases
