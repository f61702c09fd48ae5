import MediaPhases.Condition.Predicate
import Mathlib.Data.List.Basic

/-!
# When predicates match

The metadata that satisfies a predicate, and the metadata without which its test has no answer.
Codecs and heights are those of the primary video track, names of audio and subtitle tracks are
looked for in the order of the tracks, and every limit is strict.
-/

namespace MediaPhases

/-! ## Numbers in order -/

/-- One number is strictly smaller than another: by their exact values, or because one of them is
beyond all finite ones. -/
inductive Double.Precedes : Double → Double → Prop where
  | finite {x y : Double} {a b : Rat} (hx : x.toRat? = some a) (hy : y.toRat? = some b)
      (h : a < b) : Precedes x y
  | negative {y : Double} (hnumber : y ≠ .notANumber) (h : y ≠ .infinite true) :
      Precedes (.infinite true) y
  | positive {x : Double} (hnumber : x ≠ .notANumber) (h : x ≠ .infinite false) :
      Precedes x (.infinite false)

theorem Double.exists_toRat? (negative : Bool) (significand : Nat) (exponent : Int) :
    ∃ a, (Double.finite negative significand exponent).toRat? = some a := by
  cases negative
  · exact ⟨_, rfl⟩
  · exact ⟨_, rfl⟩

theorem Double.lt_of_toRat? {x y : Double} {a b : Rat} (hx : x.toRat? = some a)
    (hy : y.toRat? = some b) : x.lt y = decide (a < b) := by
  cases x with
  | notANumber => cases hx
  | infinite negative => cases hx
  | finite negative m e =>
      cases y with
      | notANumber => cases hy
      | infinite negative => cases hy
      | finite negative' m' e' => simp only [lt, hx, hy]

theorem Double.lt_iff_precedes {x y : Double} : x.lt y = true ↔ x.Precedes y := by
  constructor
  · intro h
    rcases x with _ | (_ | _) | ⟨s, m, e⟩
    · cases h
    · cases y <;> cases h
    · rcases y with _ | (_ | _) | ⟨s', m', e'⟩
      · cases h
      · exact .negative nofun nofun
      · cases h
      · exact .negative nofun nofun
    · obtain ⟨a, ha⟩ := exists_toRat? s m e
      rcases y with _ | (_ | _) | ⟨s', m', e'⟩
      · cases h
      · exact .positive nofun nofun
      · cases h
      · obtain ⟨b, hb⟩ := exists_toRat? s' m' e'
        rw [lt_of_toRat? ha hb, decide_eq_true_eq] at h
        exact .finite ha hb h
  · rintro (⟨hx, hy, h⟩ | ⟨hnumber, h⟩ | ⟨hnumber, h⟩)
    · rw [lt_of_toRat? hx hy, decide_eq_true h]
    · cases y with
      | notANumber => exact absurd rfl hnumber
      | infinite negative =>
          cases negative
          · rfl
          · exact absurd rfl h
      | finite negative m e => rfl
    · cases x with
      | notANumber => exact absurd rfl hnumber
      | infinite negative =>
          cases negative
          · exact absurd rfl h
          · rfl
      | finite negative m e => rfl

namespace MediaInfo

variable {m : MediaInfo} {t : VideoTrack} {x : Double}

/-! ## Primary tracks -/

/-- The track is the first one marked as default or, when there is none, the first one. -/
inductive IsPrimary (m : MediaInfo) (t : VideoTrack) : Prop where
  | marked {before after : List VideoTrack} (htracks : m.videoTracks = before ++ t :: after)
      (hdefault : t.isDefault = true) (hfirst : ∀ u ∈ before, u.isDefault = false)
  | unmarked {after : List VideoTrack} (htracks : m.videoTracks = t :: after)
      (hnone : ∀ u ∈ m.videoTracks, u.isDefault = false)

theorem primaryVideo_eq_some_iff : m.primaryVideo = some t ↔ m.IsPrimary t := by
  rw [primaryVideo, Option.or_eq_some_iff]
  constructor
  · rintro (hfound | ⟨hnone, hhead⟩)
    · obtain ⟨hdefault, before, after, htracks, hfirst⟩ := List.find?_eq_some_iff_append.mp hfound
      exact .marked htracks hdefault fun u hu => by simpa using hfirst u hu
    · obtain ⟨after, htracks⟩ := List.head?_eq_some_iff.mp hhead
      exact .unmarked htracks fun u hu => by simpa using List.find?_eq_none.mp hnone u hu
  · rintro (⟨htracks, hdefault, hfirst⟩ | ⟨htracks, hnone⟩)
    · refine .inl (List.find?_eq_some_iff_append.mpr ⟨hdefault, _, _, htracks, ?_⟩)
      exact fun u hu => by simpa using hfirst u hu
    · refine .inr ⟨List.find?_eq_none.mpr fun u hu => by simpa using hnone u hu, ?_⟩
      exact List.head?_eq_some_iff.mpr ⟨_, htracks⟩

theorem primaryVideo_bind_eq_some_iff {α : Type} {field : VideoTrack → Option α} {a : α} :
    m.primaryVideo.bind field = some a ↔ ∃ t, m.IsPrimary t ∧ field t = some a := by
  rw [Option.bind_eq_some_iff]
  exact exists_congr fun t => and_congr_left' primaryVideo_eq_some_iff

theorem primaryVideo_bind_eq_none_iff {α : Type} {field : VideoTrack → Option α} :
    m.primaryVideo.bind field = none ↔ ∀ t, m.IsPrimary t → field t = none := by
  rw [Option.bind_eq_none_iff]
  exact forall_congr' fun t => imp_congr_left primaryVideo_eq_some_iff

/-! ## Durations -/

/-- The duration of the file is the container's, or that of the primary track when the container
states none. -/
inductive HasDuration (m : MediaInfo) (x : Double) : Prop where
  | stated (h : m.durationSecs = some x)
  | ofTrack {t : VideoTrack} (hnone : m.durationSecs = none) (ht : m.IsPrimary t)
      (h : t.durationSecs = some x)

theorem duration_eq_some_iff : m.duration = some x ↔ m.HasDuration x := by
  rw [duration, Option.or_eq_some_iff, primaryVideo_bind_eq_some_iff]
  constructor
  · rintro (h | ⟨hnone, t, ht, h⟩)
    · exact .stated h
    · exact .ofTrack hnone ht h
  · rintro (h | ⟨hnone, ht, h⟩)
    · exact .inl h
    · exact .inr ⟨hnone, _, ht, h⟩

theorem duration_eq_none_iff : m.duration = none ↔ ∀ x, ¬m.HasDuration x := by
  rw [Option.eq_none_iff_forall_ne_some]
  exact forall_congr' fun x => not_congr duration_eq_some_iff

end MediaInfo

/-! ## Names in tracks -/

/-- The value is the first name in the tracks that is the target up to the case of ASCII
letters. -/
def IsFirstNamed {α : Type} (tracks : List α) (name? : α → Option String) (target value : String) :
    Prop :=
  ∃ before t after, tracks = before ++ t :: after ∧ name? t = some value ∧
    Text.eqIgnoringAsciiCase value target = true ∧
    ∀ u ∈ before, ∀ other ∈ name? u, Text.eqIgnoringAsciiCase other target = false

theorem find?_filterMap_eq_some_iff {α : Type} {tracks : List α} {name? : α → Option String}
    {target value : String} :
    (tracks.filterMap name?).find? (Text.eqIgnoringAsciiCase · target) = some value ↔
      IsFirstNamed tracks name? target value := by
  rw [List.find?_filterMap, Option.bind_eq_some_iff]
  constructor
  · rintro ⟨t, hfound, hname⟩
    obtain ⟨hsame, before, after, htracks, hfirst⟩ := List.find?_eq_some_iff_append.mp hfound
    rw [hname, Option.any_some] at hsame
    refine ⟨before, t, after, htracks, hname, hsame, fun u hu other hother => ?_⟩
    simpa [Option.mem_def.mp hother] using hfirst u hu
  · rintro ⟨before, t, after, htracks, hname, hsame, hfirst⟩
    refine ⟨t, List.find?_eq_some_iff_append.mpr ⟨?_, before, after, htracks, ?_⟩, hname⟩
    · rw [hname, Option.any_some, hsame]
    · intro u hu
      cases hother : name? u with
      | none => rfl
      | some other => simpa using hfirst u hu other hother

namespace Predicate

variable {m : MediaInfo} {p : Predicate} {value : String}

/-! ## Satisfied predicates -/

/-- The predicate is satisfied, by a value that explanations show as the given text. -/
inductive SatisfiedBy (m : MediaInfo) : Predicate → String → Prop where
  | videoCodec {targets : List String} {t : VideoTrack} {codec target : String}
      (ht : m.IsPrimary t) (hcodec : t.codec = some codec) (htarget : target ∈ targets)
      (hsame : Codec.isSame codec target = true) : SatisfiedBy m (.videoCodec targets) codec
  | audioCodec {target codec : String}
      (h : IsFirstNamed m.audioTracks (·.codec) target codec) :
      SatisfiedBy m (.audioCodec target) codec
  | subtitleLanguage {target language : String}
      (h : IsFirstNamed m.subtitleTracks (·.language) target language) :
      SatisfiedBy m (.subtitleLanguage target) language
  | container {targets : List String} {container target : String}
      (hcontainer : m.container = some container) (htarget : target ∈ targets)
      (hsame : Container.isSame container target = true) :
      SatisfiedBy m (.container targets) (Container.normalize container)
  | resolution {t : VideoTrack} {lines : Nat} (ht : m.IsPrimary t)
      (hheight : t.height = some lines) :
      SatisfiedBy m (.resolution (Resolution.ofHeight lines)) (Resolution.ofHeight lines).render
  | resolutionUnder {label : Resolution} {t : VideoTrack} {lines : Nat} (ht : m.IsPrimary t)
      (hheight : t.height = some lines) (hunder : lines < label.height) :
      SatisfiedBy m (.resolutionUnder label) (Resolution.ofHeight lines).render
  | fileSizeUnder {threshold : ByteSize} {size : Nat} (hsize : m.fileSize = some size)
      (hunder : size < threshold.bytes) : SatisfiedBy m (.fileSizeUnder threshold) s!"{size} bytes"
  | fileSizeOver {threshold : ByteSize} {size : Nat} (hsize : m.fileSize = some size)
      (hover : threshold.bytes < size) : SatisfiedBy m (.fileSizeOver threshold) s!"{size} bytes"
  | durationUnder {threshold : Timespan} {x : Double} (hx : m.HasDuration x)
      (hunder : x.Precedes threshold.asDouble) :
      SatisfiedBy m (.durationUnder threshold) (x.onePlace ++ "s")
  | durationOver {threshold : Timespan} {x : Double} (hx : m.HasDuration x)
      (hover : threshold.asDouble.Precedes x) :
      SatisfiedBy m (.durationOver threshold) (x.onePlace ++ "s")

/-- The snapshot lacks the metadata of which the predicate is a test. -/
def LacksMetadata (m : MediaInfo) : Predicate → Prop
  | .videoCodec _ => ∀ t, m.IsPrimary t → t.codec = none
  | .audioCodec _ => ∀ t ∈ m.audioTracks, t.codec = none
  | .subtitleLanguage _ => ∀ t ∈ m.subtitleTracks, t.language = none
  | .container _ => m.container = none
  | .resolution _ | .resolutionUnder _ => ∀ t, m.IsPrimary t → t.height = none
  | .fileSizeUnder _ | .fileSizeOver _ => m.fileSize = none
  | .durationUnder _ | .durationOver _ => ∀ x, ¬m.HasDuration x

/-! ## The two kinds of tests -/

section Tests

variable {α : Type} {read : Option α} {test : α → Bool} {render : α → String} {target : String}
  {names : List String} {s : SkipMatch}

theorem examine_eq_matched_iff :
    p.examine read test render = .matched s ↔
      ∃ a, read = some a ∧ test a = true ∧ s = ⟨p.name, render a, p.detail⟩ := by
  cases read with
  | none => simp [examine]
  | some a =>
      by_cases htest : test a = true
      · simp [examine, matched, htest, eq_comm (a := s)]
      · simp [examine, htest]

theorem examine_eq_unknown_iff : p.examine read test render = .unknown ↔ read = none := by
  cases read with
  | none => simp [examine]
  | some a =>
      by_cases htest : test a = true
      · simp [examine, matched, htest]
      · simp [examine, htest]

/-- Without names there is nothing to find, so that the test comes down to the search. -/
theorem lookFor_eq_matched_iff :
    p.lookFor target names = .matched s ↔
      ∃ name, names.find? (Text.eqIgnoringAsciiCase · target) = some name ∧
        s = ⟨p.name, name, p.detail⟩ := by
  cases names with
  | nil => simp [lookFor]
  | cons first rest =>
      cases hfind : (first :: rest).find? (Text.eqIgnoringAsciiCase · target) with
      | none => simp [lookFor, hfind]
      | some name => simp [lookFor, matched, hfind, eq_comm (a := s)]

theorem lookFor_eq_unknown_iff : p.lookFor target names = .unknown ↔ names = [] := by
  cases names with
  | nil => simp [lookFor]
  | cons first rest =>
      cases hfind : (first :: rest).find? (Text.eqIgnoringAsciiCase · target) with
      | none => simp [lookFor, hfind]
      | some name => simp [lookFor, matched, hfind]

end Tests

/-! ## The results -/

/-- The match that a satisfied predicate makes. -/
def Makes (m : MediaInfo) (p : Predicate) (s : SkipMatch) : Prop :=
  ∃ value, p.SatisfiedBy m value ∧ s = ⟨p.name, value, p.detail⟩

theorem SatisfiedBy.evaluate_eq (h : p.SatisfiedBy m value) :
    p.evaluate m = .matched ⟨p.name, value, p.detail⟩ := by
  cases h with
  | videoCodec ht hcodec htarget hsame =>
      exact examine_eq_matched_iff.mpr
        ⟨_, MediaInfo.primaryVideo_bind_eq_some_iff.mpr ⟨_, ht, hcodec⟩,
          List.any_eq_true.mpr ⟨_, htarget, hsame⟩, rfl⟩
  | audioCodec h =>
      exact lookFor_eq_matched_iff.mpr ⟨_, find?_filterMap_eq_some_iff.mpr h, rfl⟩
  | subtitleLanguage h =>
      exact lookFor_eq_matched_iff.mpr ⟨_, find?_filterMap_eq_some_iff.mpr h, rfl⟩
  | container hcontainer htarget hsame =>
      exact examine_eq_matched_iff.mpr
        ⟨_, hcontainer, List.any_eq_true.mpr ⟨_, htarget, hsame⟩, rfl⟩
  | resolution ht hheight =>
      exact examine_eq_matched_iff.mpr
        ⟨_, MediaInfo.primaryVideo_bind_eq_some_iff.mpr ⟨_, ht, hheight⟩, decide_eq_true rfl, rfl⟩
  | resolutionUnder ht hheight hunder =>
      exact examine_eq_matched_iff.mpr
        ⟨_, MediaInfo.primaryVideo_bind_eq_some_iff.mpr ⟨_, ht, hheight⟩, decide_eq_true hunder,
          rfl⟩
  | fileSizeUnder hsize hunder =>
      exact examine_eq_matched_iff.mpr ⟨_, hsize, decide_eq_true hunder, rfl⟩
  | fileSizeOver hsize hover =>
      exact examine_eq_matched_iff.mpr ⟨_, hsize, decide_eq_true hover, rfl⟩
  | durationUnder hx hunder =>
      exact examine_eq_matched_iff.mpr
        ⟨_, MediaInfo.duration_eq_some_iff.mpr hx, Double.lt_iff_precedes.mpr hunder, rfl⟩
  | durationOver hx hover =>
      exact examine_eq_matched_iff.mpr
        ⟨_, MediaInfo.duration_eq_some_iff.mpr hx, Double.lt_iff_precedes.mpr hover, rfl⟩

theorem makes_of_evaluate {s : SkipMatch} (h : p.evaluate m = .matched s) : p.Makes m s := by
  cases p with
  | videoCodec targets =>
      obtain ⟨codec, hread, hany, rfl⟩ := examine_eq_matched_iff.mp h
      obtain ⟨t, ht, hcodec⟩ := MediaInfo.primaryVideo_bind_eq_some_iff.mp hread
      obtain ⟨target, htarget, hsame⟩ := List.any_eq_true.mp hany
      exact ⟨_, .videoCodec ht hcodec htarget hsame, rfl⟩
  | audioCodec target =>
      obtain ⟨codec, hfind, rfl⟩ := lookFor_eq_matched_iff.mp h
      exact ⟨_, .audioCodec (find?_filterMap_eq_some_iff.mp hfind), rfl⟩
  | subtitleLanguage target =>
      obtain ⟨language, hfind, rfl⟩ := lookFor_eq_matched_iff.mp h
      exact ⟨_, .subtitleLanguage (find?_filterMap_eq_some_iff.mp hfind), rfl⟩
  | container targets =>
      obtain ⟨container, hcontainer, hany, rfl⟩ := examine_eq_matched_iff.mp h
      obtain ⟨target, htarget, hsame⟩ := List.any_eq_true.mp hany
      exact ⟨_, .container hcontainer htarget hsame, rfl⟩
  | resolution label =>
      obtain ⟨lines, hread, hlabel, rfl⟩ := examine_eq_matched_iff.mp h
      obtain ⟨t, ht, hheight⟩ := MediaInfo.primaryVideo_bind_eq_some_iff.mp hread
      obtain rfl := of_decide_eq_true hlabel
      exact ⟨_, .resolution ht hheight, rfl⟩
  | resolutionUnder label =>
      obtain ⟨lines, hread, hunder, rfl⟩ := examine_eq_matched_iff.mp h
      obtain ⟨t, ht, hheight⟩ := MediaInfo.primaryVideo_bind_eq_some_iff.mp hread
      exact ⟨_, .resolutionUnder ht hheight (of_decide_eq_true hunder), rfl⟩
  | fileSizeUnder threshold =>
      obtain ⟨size, hsize, hunder, rfl⟩ := examine_eq_matched_iff.mp h
      exact ⟨_, .fileSizeUnder hsize (of_decide_eq_true hunder), rfl⟩
  | fileSizeOver threshold =>
      obtain ⟨size, hsize, hover, rfl⟩ := examine_eq_matched_iff.mp h
      exact ⟨_, .fileSizeOver hsize (of_decide_eq_true hover), rfl⟩
  | durationUnder threshold =>
      obtain ⟨x, hread, hunder, rfl⟩ := examine_eq_matched_iff.mp h
      have hx := MediaInfo.duration_eq_some_iff.mp hread
      exact ⟨_, .durationUnder hx (Double.lt_iff_precedes.mp hunder), rfl⟩
  | durationOver threshold =>
      obtain ⟨x, hread, hover, rfl⟩ := examine_eq_matched_iff.mp h
      have hx := MediaInfo.duration_eq_some_iff.mp hread
      exact ⟨_, .durationOver hx (Double.lt_iff_precedes.mp hover), rfl⟩

/-- The test of a predicate matches on the value that satisfies the predicate. -/
theorem evaluate_eq_matched_iff {s : SkipMatch} : p.evaluate m = .matched s ↔ p.Makes m s := by
  constructor
  · exact makes_of_evaluate
  · rintro ⟨value, hvalue, rfl⟩
    exact hvalue.evaluate_eq

/-- The test of a predicate has no answer exactly where the metadata is absent. -/
theorem evaluate_eq_unknown_iff : p.evaluate m = .unknown ↔ p.LacksMetadata m := by
  cases p with
  | videoCodec targets => exact examine_eq_unknown_iff.trans MediaInfo.primaryVideo_bind_eq_none_iff
  | audioCodec target => exact lookFor_eq_unknown_iff.trans List.filterMap_eq_nil_iff
  | subtitleLanguage target => exact lookFor_eq_unknown_iff.trans List.filterMap_eq_nil_iff
  | container targets => exact examine_eq_unknown_iff
  | resolution label => exact examine_eq_unknown_iff.trans MediaInfo.primaryVideo_bind_eq_none_iff
  | resolutionUnder label =>
      exact examine_eq_unknown_iff.trans MediaInfo.primaryVideo_bind_eq_none_iff
  | fileSizeUnder threshold => exact examine_eq_unknown_iff
  | fileSizeOver threshold => exact examine_eq_unknown_iff
  | durationUnder threshold => exact examine_eq_unknown_iff.trans MediaInfo.duration_eq_none_iff
  | durationOver threshold => exact examine_eq_unknown_iff.trans MediaInfo.duration_eq_none_iff

/-- A predicate is satisfied by no snapshot without its metadata. -/
theorem LacksMetadata.not_satisfiedBy (h : p.LacksMetadata m) : ¬p.SatisfiedBy m value := by
  intro hvalue
  have hunknown := evaluate_eq_unknown_iff.mpr h
  rw [hvalue.evaluate_eq] at hunknown
  cases hunknown

end Predicate

end MediaPhases
