import MediaPhases.Number.Binary

/-!
# Media snapshots

What probing a file has found: its size, container and duration and its tracks.  The primary
video track is the first one marked as default, or else the first one; the duration of the file
is the container's, or else that of the primary video track.
-/

namespace MediaPhases

/-- A video track. -/
structure VideoTrack where
  codec : Option String := none
  width : Option Nat := none
  height : Option Nat := none
  frameRate : Option Double := none
  durationSecs : Option Double := none
  isDefault : Bool := false
  language : Option String := none
deriving DecidableEq

/-- An audio track. -/
structure AudioTrack where
  codec : Option String := none
  channels : Option Nat := none
  language : Option String := none
  isDefault : Bool := false
deriving DecidableEq

/-- A subtitle track. -/
structure SubtitleTrack where
  codec : Option String := none
  language : Option String := none
  isForced : Bool := false
  isDefault : Bool := false
deriving DecidableEq

/-- The metadata of one media file. -/
structure MediaInfo where
  filePath : String := ""
  fileSize : Option Nat := none
  container : Option String := none
  durationSecs : Option Double := none
  videoTracks : List VideoTrack := []
  audioTracks : List AudioTrack := []
  subtitleTracks : List SubtitleTrack := []
deriving DecidableEq

namespace MediaInfo

/-- The first video track marked as default, or else the first one. -/
def primaryVideo (m : MediaInfo) : Option VideoTrack :=
  (m.videoTracks.find? (·.isDefault)).or m.videoTracks.head?

/-- The duration in seconds: the container's, or else that of the primary video track. -/
def duration (m : MediaInfo) : Option Double :=
  m.durationSecs.or (m.primaryVideo.bind (·.durationSecs))

end MediaInfo

end MediaPhases
