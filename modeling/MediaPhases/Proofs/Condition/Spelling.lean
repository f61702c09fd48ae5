import MediaPhases.Proofs.Condition.Skip
import MediaPhases.Proofs.Condition.SkipDocument
import MediaPhases.Proofs.Media.Codec
import MediaPhases.Proofs.Media.Container

/-!
# Spellings and skip conditions

Tools spell the codec of a video track and the container of a file in their own ways.  Which
condition matches does not depend on the spelling, and the container that a match reports may be
written into a policy.
-/

namespace MediaPhases

/-! ## Spelled otherwise -/

/-- A track that is the other one up to the spelling of its codec. -/
structure VideoTrack.Respells (t t' : VideoTrack) : Prop where
  codec : Option.Rel (fun a b => Codec.isSame a b = true) t.codec t'.codec
  rest : t' = { t with codec := t'.codec }

/-- A snapshot that is the other one up to the spelling of the container and of the codecs of its
video tracks. -/
structure MediaInfo.Respells (m m' : MediaInfo) : Prop where
  container : Option.Rel (fun a b => Container.isSame a b = true) m.container m'.container
  videoTracks : List.Forall₂ VideoTrack.Respells m.videoTracks m'.videoTracks
  rest : m' = { m with container := m'.container, videoTracks := m'.videoTracks }

section Relations

variable {α : Type} {R : α → α → Prop} {o o' q q' : Option α} {xs ys : List α}

theorem rel_or (h : Option.Rel R o o') (hq : Option.Rel R q q') :
    Option.Rel R (o.or q) (o'.or q') := by
  cases h with
  | none => exact hq
  | some hab => exact .some hab

theorem rel_head? (h : List.Forall₂ R xs ys) : Option.Rel R xs.head? ys.head? := by
  cases h with
  | nil => exact .none
  | cons hab _ => exact .some hab

theorem rel_find? {test : α → Bool} (h : List.Forall₂ R xs ys)
    (htest : ∀ a b, R a b → test a = test b) : Option.Rel R (xs.find? test) (ys.find? test) := by
  induction h with
  | nil => exact .none
  | @cons a b xs ys hab _ ih =>
      rw [List.find?_cons, List.find?_cons, ← htest a b hab]
      cases test a with
      | false => exact ih
      | true => exact .some hab

theorem rel_symm (hR : ∀ a b, R a b → R b a) (h : Option.Rel R o o') : Option.Rel R o' o := by
  cases h with
  | none => exact .none
  | some hab => exact .some (hR _ _ hab)

theorem exists_of_rel {a : α} (h : Option.Rel R o o') (ho : o = some a) :
    ∃ b, o' = some b ∧ R a b := by
  cases h with
  | none => cases ho
  | some hab =>
      cases ho
      exact ⟨_, rfl, hab⟩

end Relations

theorem VideoTrack.Respells.symm {t t' : VideoTrack} (h : t.Respells t') : t'.Respells t := by
  refine ⟨rel_symm (fun _ _ => Codec.isSame_equivalence.symm) h.codec, ?_⟩
  rw [h.rest]

namespace MediaInfo.Respells

variable {m m' : MediaInfo} {t : VideoTrack} {p : Predicate} {x : Double}

theorem symm (h : m.Respells m') : m'.Respells m := by
  refine ⟨rel_symm (fun _ _ => Container.isSame_equivalence.symm) h.container, ?_, ?_⟩
  · exact (h.videoTracks.imp fun _ _ => VideoTrack.Respells.symm).flip
  · rw [h.rest]

/-- Spelling has no part in which track is the primary one. -/
theorem exists_isPrimary (h : m.Respells m') (ht : m.IsPrimary t) :
    ∃ t', m'.IsPrimary t' ∧ t.Respells t' := by
  have hdefault : ∀ t t' : VideoTrack, t.Respells t' → t.isDefault = t'.isDefault :=
    fun _ _ hspelled => (congrArg (·.isDefault) hspelled.rest).symm
  have hprimary : Option.Rel VideoTrack.Respells m.primaryVideo m'.primaryVideo :=
    rel_or (rel_find? h.videoTracks hdefault) (rel_head? h.videoTracks)
  obtain ⟨t', ht', hspelled⟩ := exists_of_rel hprimary (MediaInfo.primaryVideo_eq_some_iff.mpr ht)
  exact ⟨t', MediaInfo.primaryVideo_eq_some_iff.mp ht', hspelled⟩

theorem hasDuration (h : m.Respells m') (hx : m.HasDuration x) : m'.HasDuration x := by
  have hstated : m'.durationSecs = m.durationSecs := congrArg (·.durationSecs) h.rest
  cases hx with
  | stated hsecs => exact .stated (hstated.trans hsecs)
  | ofTrack hnone ht hsecs =>
      obtain ⟨t', ht', hspelled⟩ := h.exists_isPrimary ht
      have htrack : t'.durationSecs = _ := congrArg (·.durationSecs) hspelled.rest
      exact .ofTrack (hstated.trans hnone) ht' (htrack.trans hsecs)

theorem exists_height (h : m.Respells m') {lines : ℕ} (ht : m.IsPrimary t)
    (hheight : t.height = some lines) : ∃ t', m'.IsPrimary t' ∧ t'.height = some lines := by
  obtain ⟨t', ht', hspelled⟩ := h.exists_isPrimary ht
  have htrack : t'.height = _ := congrArg (·.height) hspelled.rest
  exact ⟨t', ht', htrack.trans hheight⟩

theorem isSatisfied (h : m.Respells m') (hp : p.IsSatisfied m) : p.IsSatisfied m' := by
  have hsize : m'.fileSize = m.fileSize := congrArg (·.fileSize) h.rest
  have haudio : m'.audioTracks = m.audioTracks := congrArg (·.audioTracks) h.rest
  have hsubtitles : m'.subtitleTracks = m.subtitleTracks := congrArg (·.subtitleTracks) h.rest
  obtain ⟨value, hvalue⟩ := hp
  cases hvalue with
  | videoCodec ht hcodec htarget hsame =>
      obtain ⟨t', ht', hspelled⟩ := h.exists_isPrimary ht
      obtain ⟨codec', hcodec', hrel⟩ := exists_of_rel hspelled.codec hcodec
      have hsame' := Codec.isSame_equivalence.trans (Codec.isSame_equivalence.symm hrel) hsame
      exact ⟨_, .videoCodec ht' hcodec' htarget hsame'⟩
  | audioCodec hnamed => exact ⟨_, .audioCodec (haudio ▸ hnamed)⟩
  | subtitleLanguage hnamed => exact ⟨_, .subtitleLanguage (hsubtitles ▸ hnamed)⟩
  | container hcontainer htarget hsame =>
      obtain ⟨container', hcontainer', hrel⟩ := exists_of_rel h.container hcontainer
      have hsame' :=
        Container.isSame_equivalence.trans (Container.isSame_equivalence.symm hrel) hsame
      exact ⟨_, .container hcontainer' htarget hsame'⟩
  | resolution ht hheight =>
      obtain ⟨t', ht', hheight'⟩ := h.exists_height ht hheight
      exact ⟨_, .resolution ht' hheight'⟩
  | resolutionUnder ht hheight hunder =>
      obtain ⟨t', ht', hheight'⟩ := h.exists_height ht hheight
      exact ⟨_, .resolutionUnder ht' hheight' hunder⟩
  | fileSizeUnder hfile hunder => exact ⟨_, .fileSizeUnder (hsize.trans hfile) hunder⟩
  | fileSizeOver hfile hover => exact ⟨_, .fileSizeOver (hsize.trans hfile) hover⟩
  | durationUnder hx hunder => exact ⟨_, .durationUnder (h.hasDuration hx) hunder⟩
  | durationOver hx hover => exact ⟨_, .durationOver (h.hasDuration hx) hover⟩

theorem isSatisfied_iff (h : m.Respells m') : p.IsSatisfied m ↔ p.IsSatisfied m' :=
  ⟨h.isSatisfied, h.symm.isSatisfied⟩

end MediaInfo.Respells

namespace SkipCondition

variable {c : SkipCondition} {m m' : MediaInfo} {ps : List Predicate} {s : SkipMatch}

/-! ## One decision for all spellings -/

theorem map_condition_of_forall₂_makes {parts : List SkipMatch}
    (h : List.Forall₂ (Predicate.Makes m) ps parts) :
    parts.map (·.condition) = ps.map Predicate.name := by
  induction h with
  | nil => rfl
  | cons hp _ ih =>
      obtain ⟨value, -, rfl⟩ := hp
      rw [List.map_cons, List.map_cons, ih]

/-- A match is found, and names the same predicates, in every snapshot that satisfies the same
predicates. -/
theorem Justifies.exists_of_isSatisfied_iff
    (hsame : ∀ p : Predicate, p.IsSatisfied m ↔ p.IsSatisfied m') (h : c.Justifies m s) :
    ∃ s', c.Justifies m' s' ∧ s'.condition = s.condition := by
  cases h with
  | first hbefore hp =>
      obtain ⟨s', hp'⟩ :=
        Predicate.exists_makes_iff.mpr ((hsame _).mp (Predicate.exists_makes_iff.mp ⟨_, hp⟩))
      have hbefore' := fun q hq => mt (hsame q).mpr (hbefore q hq)
      refine ⟨s', .first hbefore' hp', ?_⟩
      obtain ⟨-, -, rfl⟩ := hp
      obtain ⟨-, -, rfl⟩ := hp'
      rfl
  | @every ps parts hne hparts =>
      have hall : ∀ p ∈ ps, p.IsSatisfied m' := fun p hp =>
        (hsame p).mp (exists_forall₂_makes_iff.mp ⟨parts, hparts⟩ p hp)
      obtain ⟨parts', hparts'⟩ := exists_forall₂_makes_iff.mpr hall
      refine ⟨_, .every hne hparts', congrArg (" and ".intercalate ·) ?_⟩
      rw [map_condition_of_forall₂_makes hparts', map_condition_of_forall₂_makes hparts]

/-- The spellings of a codec and those of a container fall into classes, and within these a
snapshot may be spelled in any way: a condition then matches or not as it did, and for the same
predicates. -/
theorem evaluate_respelled :
    (Equivalence fun a b => Codec.isSame a b = true) ∧
      (Equivalence fun a b => Container.isSame a b = true) ∧
      ∀ (c : SkipCondition) (m m' : MediaInfo), m.Respells m' →
        (c.evaluate m).map (·.condition) = (c.evaluate m').map (·.condition) := by
  refine ⟨Codec.isSame_equivalence, Container.isSame_equivalence, ?_⟩
  intro c m m' h
  have hsame : ∀ p : Predicate, p.IsSatisfied m ↔ p.IsSatisfied m' := fun _ => h.isSatisfied_iff
  cases hm : c.evaluate m with
  | some s =>
      obtain ⟨s', hs', heq⟩ := ((evaluate_eq_some_iff c).mp hm).exists_of_isSatisfied_iff hsame
      rw [(evaluate_eq_some_iff c).mpr hs', Option.map_some, Option.map_some, heq]
  | none =>
      -- A match in the other spelling would be one in this spelling.
      cases hm' : c.evaluate m' with
      | none => rfl
      | some s' =>
          obtain ⟨s, hs, -⟩ :=
            ((evaluate_eq_some_iff c).mp hm').exists_of_isSatisfied_iff fun p => (hsame p).symm
          rw [(evaluate_eq_some_iff c).mpr hs] at hm
          cases hm

/-- A snapshot with the given spellings of its container and of the codec of its video track. -/
def spelled (container codec : String) : MediaInfo where
  container := some container
  videoTracks := [{ codec := some codec, height := some 1080 }]

theorem evaluate_spelled_webm_avc :
    let c : SkipCondition := ⟨[.container ["mkv"], .videoCodec ["x264"]], .all⟩
    (c.evaluate (spelled "webm" "AVC ")).map (·.condition) = some "container and video_codec" := by
  have hspelled : (spelled " Matroska,WebM" "h264").Respells (spelled "webm" "AVC ") :=
    ⟨.some (by decide +kernel), .cons ⟨.some (by decide +kernel), rfl⟩ .nil, rfl⟩
  exact (evaluate_respelled.2.2 _ _ _ hspelled).symm.trans (by decide +kernel)

/-! ## Copied values -/

variable {d : Dialect} {v : Value} {targets : List String} {value : String}

/-- The short form that a container predicate reports satisfies the predicate of that one name in
the same way. -/
theorem container_satisfiedBy_copied (h : (Predicate.container targets).SatisfiedBy m value) :
    (Predicate.container [value]).SatisfiedBy m value := by
  cases h with
  | @container _ written _ hcontainer _ _ =>
      have hcopy := Container.isSame_iff.mpr (Container.normalize_idem written).symm
      exact .container hcontainer List.mem_cons_self hcopy

theorem nameList_of_reader (h : reader d v = .ok c) (hmem : .container targets ∈ c.predicates) :
    SkipForm.nameList "container" targets = .ok targets := by
  obtain ⟨g, hnormal, -, -, hpredicates⟩ := exists_isNormal_of_reader h
  have htargets : g.container = some targets := by
    simpa [hpredicates, SkipForm.predicates, SkipForm.thresholdPredicates] using hmem
  exact hnormal.container targets htargets

/-- What a container predicate from a document reports is not empty, since its targets are not. -/
theorem ne_empty_of_container_satisfiedBy (hread : reader d v = .ok c)
    (hmem : .container targets ∈ c.predicates)
    (h : (Predicate.container targets).SatisfiedBy m value) : value ≠ "" := by
  cases h with
  | container hcontainer htarget hsame =>
      obtain ⟨htrim, hne⟩ :=
        SkipForm.trim_eq_of_mem_nameList (nameList_of_reader hread hmem) htarget
      rw [Container.isSame_iff.mp hsame]
      exact Container.normalize_ne_empty (htrim.symm ▸ hne)

theorem reader_container (htrim : Text.trim value = value) (hne : value ≠ "") :
    reader d (.table [("container", .list [.text value])]) = .ok ⟨[.container [value]], .any⟩ := by
  have hform : SkipForm.IsNormal { container := some [value] } := by
    refine ⟨nofun, nofun, nofun, ?_, nofun⟩
    rintro names ⟨⟩
    exact SkipForm.nameList_eq_self_iff.mpr
      ⟨List.cons_ne_nil _ _, List.forall_mem_singleton.mpr ⟨htrim, hne⟩⟩
  exact Reader.checked_eq_ok_iff.mpr ⟨_, rfl, mapError_eq_ok_iff.mpr hform.condition_eq⟩

/-- The short form of a container is its own short form and denotes the container.  The one that a
match of a document's container predicate reports is a target in its own right: a document that
names it is accepted, and its condition matches the same file with the same value. -/
theorem evaluate_container_copied :
    (∀ name, Container.normalize (Container.normalize name) = Container.normalize name) ∧
      (∀ name, Container.isSame name (Container.normalize name) = true) ∧
      ∀ (c : SkipCondition) (d : Dialect) (v : Value) (targets : List String) (m : MediaInfo)
        (s : SkipMatch), reader d v = .ok c → .container targets ∈ c.predicates →
        (Predicate.container targets).evaluate m = .matched s →
        ∃ copy, reader d (.table [("container", .list [.text s.value])]) = .ok copy ∧
          copy.evaluate m = some ⟨"container", s.value, "in [" ++ s.value ++ "]"⟩ := by
  refine ⟨Container.normalize_idem, ?_, ?_⟩
  · intro name
    exact Container.isSame_iff.mpr (Container.normalize_idem name).symm
  · intro c d v targets m s hread hmem h
    obtain ⟨value, hvalue, rfl⟩ := Predicate.evaluate_eq_matched_iff.mp h
    have hne : value ≠ "" := ne_empty_of_container_satisfiedBy hread hmem hvalue
    have htrim : Text.trim value = value := by
      cases hvalue with
      | container _ _ _ => exact Container.trim_normalize _
    have hdetail : "in " ++ Predicate.bracketed [value] = "in [" ++ value ++ "]" := by
      simp [Predicate.bracketed, ← String.append_assoc]
    have hcopied : Justifies m ⟨[] ++ [.container [value]], .any⟩
        ⟨"container", value, "in " ++ Predicate.bracketed [value]⟩ :=
      .first nofun ⟨value, container_satisfiedBy_copied hvalue, rfl⟩
    refine ⟨_, reader_container htrim hne, ?_⟩
    rw [← hdetail]
    exact evaluate_any_eq_some_iff.mpr hcopied

/-- An Ogg file, found by a condition with two targets. -/
theorem evaluate_container_ogg :
    ∃ copy, reader Json.dialect (.table [("container", .list [.text "ogg"])]) = .ok copy ∧
      copy.evaluate (spelled " OGG" "theora") = some ⟨"container", "ogg", "in [ogg]"⟩ :=
  evaluate_container_copied.2.2 ⟨[.container ["webm", "Ogg"]], .any⟩ Json.dialect
    (.table [("container", .list [.text " webm", .text "", .text "Ogg"])]) ["webm", "Ogg"]
    (spelled " OGG" "theora") ⟨"container", "ogg", "in [webm, Ogg]"⟩ (by decide +kernel)
    List.mem_cons_self (by decide +kernel)

end SkipCondition

end MediaPhases
