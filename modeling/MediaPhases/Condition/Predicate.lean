import MediaPhases.Media.Codec
import MediaPhases.Media.Container
import MediaPhases.Media.Resolution
import MediaPhases.Media.Snapshot
import MediaPhases.Number.Notation
import MediaPhases.Threshold.ByteSize
import MediaPhases.Threshold.Timespan

/-!
# Predicates

A predicate is one test over the metadata of a file.  It matches on a value found in the metadata,
which the explanation of a skip shows; where the metadata is absent, the test has no answer.
Limits are strict on both sides.
-/

namespace MediaPhases

/-- One test over a media snapshot. -/
inductive Predicate where
  /-- The primary video track has one of the codecs. -/
  | videoCodec (targets : List String)
  /-- Some audio track has the codec. -/
  | audioCodec (target : String)
  /-- Some subtitle track has the language. -/
  | subtitleLanguage (target : String)
  /-- The container is one of the formats. -/
  | container (targets : List String)
  /-- The primary video track is of the label. -/
  | resolution (label : Resolution)
  /-- The primary video track is lower than the label. -/
  | resolutionUnder (label : Resolution)
  | fileSizeUnder (threshold : ByteSize)
  | fileSizeOver (threshold : ByteSize)
  | durationUnder (threshold : Timespan)
  | durationOver (threshold : Timespan)
deriving DecidableEq

/-- What made a predicate, or several at once, match. -/
structure SkipMatch where
  /-- The predicates that matched. -/
  condition : String
  /-- The values on which they matched. -/
  value : String
  detail : String
deriving DecidableEq, Repr

/-- The result of testing one predicate. -/
inductive Evaluation where
  | matched (s : SkipMatch)
  | noMatch
  /-- The metadata that the predicate reads is absent. -/
  | unknown
deriving DecidableEq, Repr

namespace Predicate

/-- The word of a policy for a predicate. -/
def name : Predicate → String
  | .videoCodec _ => "video_codec"
  | .audioCodec _ => "audio_codec_exists"
  | .subtitleLanguage _ => "subtitle_language_exists"
  | .container _ => "container"
  | .resolution _ => "resolution"
  | .resolutionUnder _ => "resolution_under"
  | .fileSizeUnder _ => "file_size_under"
  | .fileSizeOver _ => "file_size_over"
  | .durationUnder _ => "duration_under"
  | .durationOver _ => "duration_over"

/-- The listed alternatives between brackets. -/
def bracketed (targets : List String) : String :=
  "[" ++ ", ".intercalate targets ++ "]"

/-- The predicate in one line. -/
def describe (p : Predicate) : String :=
  p.name ++ " " ++
    match p with
    | .videoCodec targets | .container targets => "in " ++ bracketed targets
    | .audioCodec target | .subtitleLanguage target => target
    | .resolution label | .resolutionUnder label => label.render
    | .fileSizeUnder t | .fileSizeOver t => t.render
    | .durationUnder t | .durationOver t => t.render

/-- What a match says about the value. -/
def detail : Predicate → String
  | .videoCodec targets | .container targets => "in " ++ bracketed targets
  | .audioCodec _ => "audio track present"
  | .subtitleLanguage _ => "subtitle track present"
  | .resolution label => "equals " ++ label.render
  | .resolutionUnder label => "under " ++ label.render
  | .fileSizeUnder t => "under " ++ t.render
  | .fileSizeOver t => "over " ++ t.render
  | .durationUnder t => "under " ++ t.render
  | .durationOver t => "over " ++ t.render

/-- The match of the predicate on a value. -/
def matched (p : Predicate) (value : String) : Evaluation :=
  .matched ⟨p.name, value, p.detail⟩

/-- The result of a predicate that reads one value, with the test on it and how it is shown. -/
def examine {α : Type} (p : Predicate) (read : Option α) (test : α → Bool)
    (render : α → String) : Evaluation :=
  match read with
  | none => .unknown
  | some a => if test a then p.matched (render a) else .noMatch

/-- The result of a predicate that looks for a name, up to the case of ASCII letters, in those of
the tracks. -/
def lookFor (p : Predicate) (target : String) (names : List String) : Evaluation :=
  if names.isEmpty then
    .unknown
  else
    match names.find? (Text.eqIgnoringAsciiCase · target) with
    | some name => p.matched name
    | none => .noMatch

/-- The test of a predicate on a snapshot. -/
def evaluate (p : Predicate) (m : MediaInfo) : Evaluation :=
  let codec := m.primaryVideo.bind (·.codec)
  let height := m.primaryVideo.bind (·.height)
  match p with
  | .videoCodec targets => p.examine codec (fun c => targets.any (Codec.isSame c)) id
  | .audioCodec target => p.lookFor target (m.audioTracks.filterMap (·.codec))
  | .subtitleLanguage target => p.lookFor target (m.subtitleTracks.filterMap (·.language))
  | .container targets =>
    p.examine m.container (fun c => targets.any (Container.isSame c)) Container.normalize
  | .resolution label =>
    p.examine height (Resolution.ofHeight · = label) fun lines =>
      (Resolution.ofHeight lines).render
  | .resolutionUnder label =>
    p.examine height (· < label.height) fun lines => (Resolution.ofHeight lines).render
  | .fileSizeUnder t => p.examine m.fileSize (· < t.bytes) fun n => s!"{n} bytes"
  | .fileSizeOver t => p.examine m.fileSize (t.bytes < ·) fun n => s!"{n} bytes"
  | .durationUnder t => p.examine m.duration (·.lt t.asDouble) fun x => x.onePlace ++ "s"
  | .durationOver t => p.examine m.duration (t.asDouble.lt ·) fun x => x.onePlace ++ "s"

end Predicate

end MediaPhases
