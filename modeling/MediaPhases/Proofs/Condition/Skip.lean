import MediaPhases.Condition.Skip
import MediaPhases.Proofs.Condition.Predicate
import Mathlib.Data.List.Forall2

/-!
# When skip conditions match

A condition of mode `any` matches as its first satisfied predicate does; one of mode `all`
matches when it has predicates and all of them are satisfied, and its match joins theirs.  A
predicate whose metadata is absent is like one that is not there in the first mode, and is enough
to prevent a match in the second.
-/

namespace MediaPhases

namespace Predicate

variable {m : MediaInfo} {p : Predicate} {s : SkipMatch}

/-- Some value in the metadata satisfies the predicate. -/
def IsSatisfied (m : MediaInfo) (p : Predicate) : Prop :=
  ∃ value, p.SatisfiedBy m value

theorem exists_makes_iff : (∃ s, p.Makes m s) ↔ p.IsSatisfied m := by
  constructor
  · rintro ⟨_, value, hvalue, -⟩
    exact ⟨value, hvalue⟩
  · rintro ⟨value, hvalue⟩
    exact ⟨_, value, hvalue, rfl⟩

/-- The match in the result of a test. -/
def match? (m : MediaInfo) (p : Predicate) : Option SkipMatch :=
  match p.evaluate m with
  | .matched s => some s
  | .noMatch | .unknown => none

theorem match?_eq_some_iff : p.match? m = some s ↔ p.Makes m s := by
  rw [← evaluate_eq_matched_iff, match?]
  cases p.evaluate m with
  | matched s' => rw [Option.some.injEq, Evaluation.matched.injEq]
  | noMatch => simp
  | unknown => simp

theorem match?_eq_none_iff : p.match? m = none ↔ ¬p.IsSatisfied m := by
  rw [← exists_makes_iff, Option.eq_none_iff_forall_ne_some, not_exists]
  exact forall_congr' fun s => not_congr match?_eq_some_iff

theorem isSome_match?_iff : (p.match? m).isSome = true ↔ p.IsSatisfied m := by
  rw [← not_iff_not, Option.not_isSome_iff_eq_none, match?_eq_none_iff]

theorem LacksMetadata.not_isSatisfied (h : p.LacksMetadata m) : ¬p.IsSatisfied m :=
  fun ⟨_, hvalue⟩ => h.not_satisfiedBy hvalue

end Predicate

namespace SkipCondition

variable {m : MediaInfo} {ps : List Predicate} {s : SkipMatch} {parts : List SkipMatch}

/-- What a match says of the condition and the snapshot: in one mode, which predicate is the first
to be satisfied; in the other, what all of them find. -/
inductive Justifies (m : MediaInfo) : SkipCondition → SkipMatch → Prop where
  | first {before after : List Predicate} {p : Predicate} {s : SkipMatch}
      (hbefore : ∀ q ∈ before, ¬q.IsSatisfied m) (hp : p.Makes m s) :
      Justifies m ⟨before ++ p :: after, .any⟩ s
  | every {ps : List Predicate} {parts : List SkipMatch} (hne : ps ≠ [])
      (hparts : List.Forall₂ (Predicate.Makes m) ps parts) :
      Justifies m ⟨ps, .all⟩
        ⟨" and ".intercalate (parts.map (·.condition)), ", ".intercalate (parts.map (·.value)),
          "; ".intercalate (parts.map (·.detail))⟩

/-! ## The two modes -/

/-- The loop of the mode `any` is a search for the first match, whatever was found before. -/
theorem search_any (found : List SkipMatch) (ps : List Predicate) :
    search .any m found ps = ps.findSome? (Predicate.match? m) := by
  induction ps with
  | nil => rfl
  | cons p rest ih =>
      rw [search, List.findSome?_cons, Predicate.match?]
      cases p.evaluate m with
      | matched s => rfl
      | noMatch => exact ih
      | unknown => exact ih

/-- The loop of the mode `all` adds the matches of all the predicates that are left. -/
theorem search_all (found : List SkipMatch) (ps : List Predicate) :
    search .all m found ps =
      (((ps.mapM (Predicate.match? m)).map (found ++ ·)).filter (!·.isEmpty)).map .combine := by
  induction ps generalizing found with
  | nil =>
      cases found with
      | nil => rfl
      | cons s more => simp [search, Option.filter_some]
  | cons p rest ih =>
      rw [search, List.mapM_cons, Predicate.match?]
      cases p.evaluate m with
      | matched s =>
          refine (ih (found ++ [s])).trans ?_
          cases rest.mapM (Predicate.match? m) with
          | none => rfl
          | some more => simp
      | noMatch => rfl
      | unknown => rfl

theorem evaluate_any_eq : evaluate ⟨ps, .any⟩ m = ps.findSome? (Predicate.match? m) :=
  search_any [] ps

theorem evaluate_all_eq :
    evaluate ⟨ps, .all⟩ m = ((ps.mapM (Predicate.match? m)).filter (!·.isEmpty)).map .combine := by
  rw [evaluate, search_all]
  simp only [List.nil_append, Option.map_id']

theorem evaluate_any_eq_some_iff :
    evaluate ⟨ps, .any⟩ m = some s ↔ Justifies m ⟨ps, .any⟩ s := by
  rw [evaluate_any_eq, List.findSome?_eq_some_iff]
  constructor
  · rintro ⟨before, p, after, rfl, hp, hbefore⟩
    exact .first (fun q hq => Predicate.match?_eq_none_iff.mp (hbefore q hq))
      (Predicate.match?_eq_some_iff.mp hp)
  · intro h
    cases h with
    | first hbefore hp =>
        exact ⟨_, _, _, rfl, Predicate.match?_eq_some_iff.mpr hp,
          fun q hq => Predicate.match?_eq_none_iff.mpr (hbefore q hq)⟩

theorem mapM_match?_eq_some_iff :
    ps.mapM (Predicate.match? m) = some parts ↔ List.Forall₂ (Predicate.Makes m) ps parts := by
  induction ps generalizing parts with
  | nil => simp [eq_comm]
  | cons p rest ih =>
      simp only [List.mapM_cons, Option.bind_eq_bind, Option.bind_eq_some_iff, Option.pure_def,
        Option.some.injEq, Predicate.match?_eq_some_iff, ih, List.forall₂_cons_left_iff]
      constructor
      · rintro ⟨s, hs, more, hmore, rfl⟩
        exact ⟨s, more, hs, hmore, rfl⟩
      · rintro ⟨s, more, hs, hmore, rfl⟩
        exact ⟨s, hs, more, hmore, rfl⟩

theorem evaluate_all_eq_some_iff :
    evaluate ⟨ps, .all⟩ m = some s ↔ Justifies m ⟨ps, .all⟩ s := by
  simp only [evaluate_all_eq, Option.map_eq_some_iff, Option.filter_eq_some_iff,
    mapM_match?_eq_some_iff]
  constructor
  · rintro ⟨parts, ⟨hparts, hne⟩, rfl⟩
    refine .every ?_ hparts
    rintro rfl
    cases hparts
    cases hne
  · intro h
    cases h with
    | every hne hparts =>
        refine ⟨_, ⟨hparts, ?_⟩, rfl⟩
        cases hparts with
        | nil => exact absurd rfl hne
        | cons _ _ => rfl

theorem evaluate_eq_some_iff (c : SkipCondition) :
    c.evaluate m = some s ↔ c.Justifies m s := by
  obtain ⟨ps, _ | _⟩ := c
  · exact evaluate_any_eq_some_iff
  · exact evaluate_all_eq_some_iff

/-! ## Matching at all -/

theorem isSome_evaluate_any_iff :
    (evaluate ⟨ps, .any⟩ m).isSome = true ↔ ∃ p ∈ ps, p.IsSatisfied m := by
  simp only [evaluate_any_eq, List.findSome?_isSome_iff, Predicate.isSome_match?_iff]

/-- All the predicates together find something exactly when each of them does. -/
theorem exists_forall₂_makes_iff :
    (∃ parts, List.Forall₂ (Predicate.Makes m) ps parts) ↔ ∀ p ∈ ps, p.IsSatisfied m := by
  induction ps with
  | nil =>
      constructor
      · intro _ p hp
        cases hp
      · intro _
        exact ⟨[], .nil⟩
  | cons p rest ih =>
      rw [List.forall_mem_cons, ← ih, ← Predicate.exists_makes_iff]
      constructor
      · rintro ⟨_, hs | ⟨hs, hmore⟩⟩
        exact ⟨⟨_, hs⟩, _, hmore⟩
      · rintro ⟨⟨s, hs⟩, more, hmore⟩
        exact ⟨s :: more, .cons hs hmore⟩

theorem isSome_evaluate_all_iff :
    (evaluate ⟨ps, .all⟩ m).isSome = true ↔ ps ≠ [] ∧ ∀ p ∈ ps, p.IsSatisfied m := by
  rw [Option.isSome_iff_exists, ← exists_forall₂_makes_iff]
  constructor
  · rintro ⟨s, hs⟩
    cases evaluate_all_eq_some_iff.mp hs with
    | every hne hparts => exact ⟨hne, _, hparts⟩
  · rintro ⟨hne, parts, hparts⟩
    exact ⟨_, evaluate_all_eq_some_iff.mpr (.every hne hparts)⟩

/-! ## Absent metadata -/

theorem evaluate_any_of_lacksMetadata {p : Predicate} (h : p.LacksMetadata m)
    (before after : List Predicate) :
    evaluate ⟨before ++ p :: after, .any⟩ m = evaluate ⟨before ++ after, .any⟩ m := by
  have hnone : p.match? m = none := Predicate.match?_eq_none_iff.mpr h.not_isSatisfied
  simp only [evaluate_any_eq, List.findSome?_append, List.findSome?_cons, hnone]

theorem evaluate_all_of_lacksMetadata {p : Predicate} (h : p.LacksMetadata m) (hp : p ∈ ps) :
    evaluate ⟨ps, .all⟩ m = none := by
  rw [← Option.not_isSome_iff_eq_none, isSome_evaluate_all_iff]
  rintro ⟨-, hall⟩
  exact h.not_isSatisfied (hall p hp)

/-- The matches of a condition are the ones that its predicates justify, and there is one exactly
when the mode asks for no more than the snapshot satisfies.  The test of a predicate has no answer
where its metadata is absent: it is passed over in one mode then and decides the other. -/
theorem evaluate_justifies (ps : List Predicate) (m : MediaInfo) :
    (∀ mode s, evaluate ⟨ps, mode⟩ m = some s ↔ Justifies m ⟨ps, mode⟩ s) ∧
      ((evaluate ⟨ps, .any⟩ m).isSome = true ↔ ∃ p ∈ ps, p.IsSatisfied m) ∧
      ((evaluate ⟨ps, .all⟩ m).isSome = true ↔ ps ≠ [] ∧ ∀ p ∈ ps, p.IsSatisfied m) ∧
      ∀ p : Predicate, (p.evaluate m = .unknown ↔ p.LacksMetadata m) ∧
        (p.LacksMetadata m → ¬p.IsSatisfied m ∧
          (∀ before after,
            evaluate ⟨before ++ p :: after, .any⟩ m = evaluate ⟨before ++ after, .any⟩ m) ∧
          ∀ others, p ∈ others → evaluate ⟨others, .all⟩ m = none) := by
  refine ⟨fun _ _ => evaluate_eq_some_iff _, isSome_evaluate_any_iff, isSome_evaluate_all_iff, ?_⟩
  intro p
  refine ⟨Predicate.evaluate_eq_unknown_iff, fun h => ⟨h.not_isSatisfied, ?_, ?_⟩⟩
  · exact evaluate_any_of_lacksMetadata h
  · exact fun _ => evaluate_all_of_lacksMetadata h

/-- A snapshot without a size, whose second video track is the primary one. -/
def sparse : MediaInfo where
  videoTracks := [{ codec := some "h264", height := some 480 },
    { codec := some " HEVC", height := some 1080, isDefault := true }]

/-- The size that the snapshot lacks is passed over in one mode and in the way in the other. -/
theorem sparse_matches_x265 :
    let unknown := Predicate.fileSizeOver ⟨1, by decide⟩
    let known := [Predicate.videoCodec ["av1", "x265"], .resolutionUnder .p2160]
    evaluate ⟨unknown :: known, .any⟩ sparse = some ⟨"video_codec", " HEVC", "in [av1, x265]"⟩ ∧
      evaluate ⟨unknown :: known, .all⟩ sparse = none ∧
      evaluate ⟨known, .all⟩ sparse =
        some ⟨"video_codec and resolution_under", " HEVC, 1080p",
          "in [av1, x265]; under 2160p"⟩ := by
  intro unknown known
  obtain ⟨hjustified, -, -, hlacks⟩ := evaluate_justifies known sparse
  have hunknown : unknown.LacksMetadata sparse := rfl
  have htracks : sparse.videoTracks = [{ codec := some "h264", height := some 480 }] ++
      { codec := some " HEVC", height := some 1080, isDefault := true } :: [] := rfl
  have hprimary := MediaInfo.IsPrimary.marked htracks rfl (by simp)
  have hcodec : (Predicate.videoCodec ["av1", "x265"]).Makes sparse
      ⟨"video_codec", " HEVC", "in [av1, x265]"⟩ :=
    ⟨_, .videoCodec hprimary rfl (by simp : "x265" ∈ _) (by decide +kernel), rfl⟩
  have hlower : (Predicate.resolutionUnder .p2160).Makes sparse
      ⟨"resolution_under", "1080p", "under 2160p"⟩ :=
    ⟨_, .resolutionUnder hprimary rfl (by decide), rfl⟩
  have hfirst : Justifies sparse ⟨[] ++ known, .any⟩ ⟨"video_codec", " HEVC", "in [av1, x265]"⟩ :=
    .first (by simp) hcodec
  have hevery := Justifies.every (List.cons_ne_nil _ _) (.cons hcodec (.cons hlower .nil))
  obtain ⟨-, hpassed, hdecides⟩ := (hlacks unknown).2 hunknown
  exact ⟨(hpassed [] known).trans ((hjustified .any _).mpr hfirst),
    hdecides _ List.mem_cons_self, (hjustified .all _).mpr hevery⟩

end SkipCondition

end MediaPhases
