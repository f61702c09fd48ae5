import MediaPhases.Text.Blank
import MediaPhases.Text.Lowercase

/-!
# Video codecs

Probing tools and people spell codecs differently.  Spellings that denote one codec form a
group; two spellings match when they are equal, or of one group, after trimming and
lower-casing.
-/

namespace MediaPhases.Codec

/-- Spellings of one codec each; no spelling stands in two groups. -/
def groups : List (List String) :=
  [["hevc", "h265", "h.265", "x265", "hvc1", "hev1"],
    ["h264", "h.264", "avc", "avc1", "x264"],
    ["vp9", "vp09"],
    ["av1", "av01", "libaom-av1"],
    ["mpeg4", "mp4v"]]

/-- A codec spelling without white space around it and in lower case. -/
def fold (codec : String) : String :=
  String.ofList (Text.lowerChars (Text.trimChars codec.toList))

/-- The position of the group that holds a folded spelling. -/
def groupIndex? (codec : String) : Option Nat :=
  groups.findIdx? (·.contains codec)

/-- Whether two spellings denote the same codec. -/
def isSame (current target : String) : Bool :=
  let a := fold current
  let b := fold target
  a == b ||
    match groupIndex? a, groupIndex? b with
    | some i, some j => i == j
    | _, _ => false

end MediaPhases.Codec
