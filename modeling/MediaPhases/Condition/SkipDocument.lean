import MediaPhases.Condition.Skip
import MediaPhases.Document.Reader

/-!
# Skip conditions in documents

A document writes a skip condition as a table with at most one entry for each kind of predicate.
The predicates come out in a fixed order, whatever the order of the entries.  Names are trimmed
and must not be empty; this is checked when the whole table has been read.
-/

namespace MediaPhases

/-- A skip condition as a document writes it. -/
structure SkipForm where
  videoCodec : Option (List String) := none
  audioCodec : Option String := none
  subtitleLanguage : Option String := none
  container : Option (List String) := none
  resolution : Option Resolution := none
  resolutionUnder : Option Resolution := none
  fileSizeUnder : Option ByteSize := none
  fileSizeOver : Option ByteSize := none
  durationUnder : Option Timespan := none
  durationOver : Option Timespan := none
  mode : Option MatchMode := none
deriving DecidableEq

namespace SkipForm

/-- Reads a literal with its parser. -/
def literal {α : Type} (parse : String → Except ThresholdFault α) : Reader α :=
  .checked .text fun s => (parse s).mapError .threshold

/-- Reads a match mode. -/
def modeReader : Reader MatchMode :=
  .oneOf ([.any, .all].map fun m => (m.name, m))

/-- The fields of a skip condition. -/
def schema : Schema SkipForm where
  name := "struct SkipConditionDef"
  fields := [
    .of "video_codec" .defaulted (.optional (.listOf .text)) fun x f => { f with videoCodec := x },
    .of "audio_codec_exists" .defaulted (.optional .text) fun x f => { f with audioCodec := x },
    .of "subtitle_language_exists" .defaulted (.optional .text) fun x f =>
      { f with subtitleLanguage := x },
    .of "container" .defaulted (.optional (.listOf .text)) fun x f => { f with container := x },
    .of "resolution" .defaulted (.optional (literal Resolution.parse)) fun x f =>
      { f with resolution := x },
    .of "resolution_under" .defaulted (.optional (literal Resolution.parse)) fun x f =>
      { f with resolutionUnder := x },
    .of "file_size_under" .defaulted (.optional (literal ByteSize.parse)) fun x f =>
      { f with fileSizeUnder := x },
    .of "file_size_over" .defaulted (.optional (literal ByteSize.parse)) fun x f =>
      { f with fileSizeOver := x },
    .of "duration_under" .defaulted (.optional (literal Timespan.parse)) fun x f =>
      { f with durationUnder := x },
    .of "duration_over" .defaulted (.optional (literal Timespan.parse)) fun x f =>
      { f with durationOver := x },
    .of "mode" .defaulted (.optional modeReader) fun x f => { f with mode := x }]
  isClosed := true
  blank := {}

/-- The trimmed names of a list without the blank ones; at least one has to remain. -/
def nameList (field : String) (names : List String) : Except ThresholdFault (List String) :=
  match (names.map Text.trim).filter (· ≠ "") with
  | [] => .error ⟨.predicate field, "[]", .emptyList⟩
  | kept => .ok kept

/-- A trimmed name, which must not be empty. -/
def nonBlank (field : String) (name : String) : Except ThresholdFault String :=
  if Text.trim name = "" then .error ⟨.predicate field, name, .emptyText⟩ else .ok (Text.trim name)

/-- The predicate of a field whose content has to be checked. -/
def checkedPredicate {α β : Type} (field : String) (check : String → α → Except ThresholdFault β)
    (make : β → Predicate) : Option α → Except ThresholdFault (List Predicate)
  | none => .ok []
  | some a => (check field a).map fun b => [make b]

/-- The predicates of the names in a form, in their fixed order. -/
def namePredicates (f : SkipForm) : Except ThresholdFault (List Predicate) := do
  let video ← checkedPredicate "video_codec" nameList .videoCodec f.videoCodec
  let audio ← checkedPredicate "audio_codec_exists" nonBlank .audioCodec f.audioCodec
  let subtitle ←
    checkedPredicate "subtitle_language_exists" nonBlank .subtitleLanguage f.subtitleLanguage
  let container ← checkedPredicate "container" nameList .container f.container
  return video ++ audio ++ subtitle ++ container

/-- The predicates of the thresholds in a form, in their fixed order. -/
def thresholdPredicates (f : SkipForm) : List Predicate :=
  (f.resolution.map .resolution).toList ++ (f.resolutionUnder.map .resolutionUnder).toList ++
    (f.fileSizeUnder.map .fileSizeUnder).toList ++ (f.fileSizeOver.map .fileSizeOver).toList ++
    (f.durationUnder.map .durationUnder).toList ++ (f.durationOver.map .durationOver).toList

/-- The condition that a form states. -/
def condition (f : SkipForm) : Except ThresholdFault SkipCondition := do
  let names ← f.namePredicates
  return ⟨names ++ f.thresholdPredicates, f.mode.getD .any⟩

/-- The form with one more predicate, in place of one of the same kind. -/
def put (f : SkipForm) : Predicate → SkipForm
  | .videoCodec x => { f with videoCodec := some x }
  | .audioCodec x => { f with audioCodec := some x }
  | .subtitleLanguage x => { f with subtitleLanguage := some x }
  | .container x => { f with container := some x }
  | .resolution x => { f with resolution := some x }
  | .resolutionUnder x => { f with resolutionUnder := some x }
  | .fileSizeUnder x => { f with fileSizeUnder := some x }
  | .fileSizeOver x => { f with fileSizeOver := some x }
  | .durationUnder x => { f with durationUnder := some x }
  | .durationOver x => { f with durationOver := some x }

/-- The form of a condition.  Of several predicates of one kind the last is kept, and the mode is
written only when it is not `any`. -/
def ofCondition (c : SkipCondition) : SkipForm :=
  c.predicates.foldl put { mode := if c.mode = .any then none else some c.mode }

/-- Writes a form. -/
def encode (f : SkipForm) : Value :=
  let names (xs : List String) : Value := .list (xs.map .text)
  .table <|
    optionalEntry "video_codec" names f.videoCodec ++
    optionalEntry "audio_codec_exists" .text f.audioCodec ++
    optionalEntry "subtitle_language_exists" .text f.subtitleLanguage ++
    optionalEntry "container" names f.container ++
    optionalEntry "resolution" (.text ·.render) f.resolution ++
    optionalEntry "resolution_under" (.text ·.render) f.resolutionUnder ++
    optionalEntry "file_size_under" (.text ·.render) f.fileSizeUnder ++
    optionalEntry "file_size_over" (.text ·.render) f.fileSizeOver ++
    optionalEntry "duration_under" (.text ·.render) f.durationUnder ++
    optionalEntry "duration_over" (.text ·.render) f.durationOver ++
    optionalEntry "mode" (.text ·.name) f.mode

end SkipForm

namespace SkipCondition

/-- Reads a skip condition. -/
def reader : Reader SkipCondition :=
  .checked SkipForm.schema.read fun f => f.condition.mapError .threshold

/-- Writes a skip condition. -/
def encode (c : SkipCondition) : Value :=
  (SkipForm.ofCondition c).encode

end SkipCondition

end MediaPhases
