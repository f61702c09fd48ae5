import MediaPhases.Media.Snapshot
import MediaPhases.Outcome.Document

/-!
# Snapshot documents

How media snapshots stand in documents.  Every field may be missing and unknown fields are
passed over, so that a snapshot of a partial probe can be read.
-/

namespace MediaPhases

namespace VideoTrack

/-- The fields of a video track. -/
def schema : Schema VideoTrack where
  name := "struct VideoTrack"
  fields := [
    .of "codec" .defaulted (.optional .text) fun s t => { t with codec := s },
    .of "width" .defaulted (.optional .nat32) fun n t => { t with width := n },
    .of "height" .defaulted (.optional .nat32) fun n t => { t with height := n },
    .of "frame_rate" .defaulted (.optional .double) fun x t => { t with frameRate := x },
    .of "duration_secs" .defaulted (.optional .double) fun x t => { t with durationSecs := x },
    .of "default" .defaulted .bool fun b t => { t with isDefault := b },
    .of "language" .defaulted (.optional .text) fun s t => { t with language := s }]
  isClosed := false
  blank := {}

/-- Writes a video track. -/
def encode (t : VideoTrack) : Value :=
  .table <|
    optionalEntry "codec" .text t.codec ++
    optionalEntry "width" (fun (n : Nat) => .int n) t.width ++
    optionalEntry "height" (fun (n : Nat) => .int n) t.height ++
    optionalEntry "frame_rate" .float t.frameRate ++
    optionalEntry "duration_secs" .float t.durationSecs ++
    [("default", .bool t.isDefault)] ++
    optionalEntry "language" .text t.language

end VideoTrack

namespace AudioTrack

/-- The fields of an audio track. -/
def schema : Schema AudioTrack where
  name := "struct AudioTrack"
  fields := [
    .of "codec" .defaulted (.optional .text) fun s t => { t with codec := s },
    .of "channels" .defaulted (.optional .nat32) fun n t => { t with channels := n },
    .of "language" .defaulted (.optional .text) fun s t => { t with language := s },
    .of "default" .defaulted .bool fun b t => { t with isDefault := b }]
  isClosed := false
  blank := {}

/-- Writes an audio track. -/
def encode (t : AudioTrack) : Value :=
  .table <|
    optionalEntry "codec" .text t.codec ++
    optionalEntry "channels" (fun (n : Nat) => .int n) t.channels ++
    optionalEntry "language" .text t.language ++
    [("default", .bool t.isDefault)]

end AudioTrack

namespace SubtitleTrack

/-- The fields of a subtitle track. -/
def schema : Schema SubtitleTrack where
  name := "struct SubtitleTrack"
  fields := [
    .of "codec" .defaulted (.optional .text) fun s t => { t with codec := s },
    .of "language" .defaulted (.optional .text) fun s t => { t with language := s },
    .of "forced" .defaulted .bool fun b t => { t with isForced := b },
    .of "default" .defaulted .bool fun b t => { t with isDefault := b }]
  isClosed := false
  blank := {}

/-- Writes a subtitle track. -/
def encode (t : SubtitleTrack) : Value :=
  .table <|
    optionalEntry "codec" .text t.codec ++
    optionalEntry "language" .text t.language ++
    [("forced", .bool t.isForced), ("default", .bool t.isDefault)]

end SubtitleTrack

namespace MediaInfo

/-- The fields of a snapshot. -/
def schema : Schema MediaInfo where
  name := "struct MediaInfo"
  fields := [
    .of "file_path" .defaulted .path fun s m => { m with filePath := s },
    .of "file_size" .defaulted (.optional .nat64) fun n m => { m with fileSize := n },
    .of "container" .defaulted (.optional .text) fun s m => { m with container := s },
    .of "duration_secs" .defaulted (.optional .double) fun x m => { m with durationSecs := x },
    .of "video_tracks" .defaulted (.listOf VideoTrack.schema.read) fun ts m =>
      { m with videoTracks := ts },
    .of "audio_tracks" .defaulted (.listOf AudioTrack.schema.read) fun ts m =>
      { m with audioTracks := ts },
    .of "subtitle_tracks" .defaulted (.listOf SubtitleTrack.schema.read) fun ts m =>
      { m with subtitleTracks := ts }]
  isClosed := false
  blank := {}

/-- Reads a snapshot. -/
def reader : Reader MediaInfo :=
  schema.read

/-- Writes a snapshot. -/
def encode (m : MediaInfo) : Value :=
  .table <|
    [("file_path", .text m.filePath)] ++
    optionalEntry "file_size" (fun (n : Nat) => .int n) m.fileSize ++
    optionalEntry "container" .text m.container ++
    optionalEntry "duration_secs" .float m.durationSecs ++
    [("video_tracks", .list (m.videoTracks.map VideoTrack.encode)),
      ("audio_tracks", .list (m.audioTracks.map AudioTrack.encode)),
      ("subtitle_tracks", .list (m.subtitleTracks.map SubtitleTrack.encode))]

end MediaInfo

end MediaPhases
