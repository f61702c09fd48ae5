import MediaPhases.Proofs.Condition.Skip
import MediaPhases.Proofs.Condition.SkipDocument

/-!
# Repeated predicates

A document has one place for each kind of predicate, and of several predicates of a kind it is the
last that stays there.  So a condition that is written and read back has the last predicates of
its kinds.  Without repetitions these are all of its predicates; with repetitions one mode loses
alternatives and the other loses requirements.
-/

namespace MediaPhases

namespace Predicate

variable {p q : Predicate} {ps : List Predicate}

/-- The predicate is in the list and no other of its kind comes after it. -/
def IsLastOfKind (ps : List Predicate) (p : Predicate) : Prop :=
  ∃ before after, ps = before ++ p :: after ∧ ∀ q ∈ after, q.name ≠ p.name

theorem IsLastOfKind.mem (h : IsLastOfKind ps p) : p ∈ ps := by
  obtain ⟨before, after, rfl, -⟩ := h
  exact List.mem_append_right _ List.mem_cons_self

theorem not_isLastOfKind_nil : ¬IsLastOfKind [] p :=
  fun h => absurd h.mem List.not_mem_nil

theorem isLastOfKind_cons_iff : IsLastOfKind (q :: ps) p ↔
    IsLastOfKind ps p ∨ p = q ∧ ∀ r ∈ ps, r.name ≠ p.name := by
  constructor
  · rintro ⟨_ | ⟨first, before⟩, after, hsplit, hafter⟩
    · cases hsplit
      exact .inr ⟨rfl, hafter⟩
    · cases hsplit
      exact .inl ⟨before, after, rfl, hafter⟩
  · rintro (⟨before, after, rfl, hafter⟩ | ⟨rfl, hafter⟩)
    · exact ⟨q :: before, after, rfl, hafter⟩
    · exact ⟨[], ps, rfl, hafter⟩

theorem exists_isLastOfKind_of_mem (h : p ∈ ps) : ∃ q, IsLastOfKind ps q ∧ q.name = p.name := by
  induction ps generalizing p with
  | nil => cases h
  | cons first rest ih =>
      -- Unless the rest has a predicate of the kind, the first one is the last.
      by_cases hrest : ∃ r ∈ rest, r.name = p.name
      · obtain ⟨r, hr, hname⟩ := hrest
        obtain ⟨q, hq, hname'⟩ := ih hr
        exact ⟨q, isLastOfKind_cons_iff.mpr (.inl hq), hname'.trans hname⟩
      · have hnone : ∀ r ∈ rest, r.name ≠ p.name := fun r hr hname => hrest ⟨r, hr, hname⟩
        have hp : p ∉ rest := fun hp => hnone p hp rfl
        obtain rfl : p = first := (List.mem_cons.mp h).resolve_right hp
        exact ⟨p, isLastOfKind_cons_iff.mpr (.inr ⟨rfl, hnone⟩), rfl⟩

/-- Where no kind is repeated, every predicate is the last of its kind. -/
theorem isLastOfKind_iff_of_nodup (h : (ps.map name).Nodup) : IsLastOfKind ps p ↔ p ∈ ps := by
  refine ⟨IsLastOfKind.mem, ?_⟩
  intro hp
  obtain ⟨q, hq, hname⟩ := exists_isLastOfKind_of_mem hp
  exact List.inj_on_of_nodup_map h hq.mem hp hname ▸ hq

/-- The predicate is what is read back from its place in a document: its names have nothing to be
trimmed, its size is held in double precision, and its duration is of whole seconds. -/
def IsWritable : Predicate → Prop
  | .videoCodec names | .container names =>
    names ≠ [] ∧ ∀ name ∈ names, Text.trim name = name ∧ name ≠ ""
  | .audioCodec name | .subtitleLanguage name => Text.trim name = name ∧ name ≠ ""
  | .resolution _ | .resolutionUnder _ => True
  | .fileSizeUnder s | .fileSizeOver s => BinaryFormat.double.Holds s.bytes
  | .durationUnder t | .durationOver t => t.IsWhole

end Predicate

namespace SkipForm

variable {c : SkipCondition} {f : SkipForm} {p q : Predicate} {ps : List Predicate}

/-! ## Places in a form -/

/-- The places of a form in the order of the kinds. -/
def slots (f : SkipForm) : List (Option Predicate) :=
  [f.videoCodec.map .videoCodec, f.audioCodec.map .audioCodec,
    f.subtitleLanguage.map .subtitleLanguage, f.container.map .container,
    f.resolution.map .resolution, f.resolutionUnder.map .resolutionUnder,
    f.fileSizeUnder.map .fileSizeUnder, f.fileSizeOver.map .fileSizeOver,
    f.durationUnder.map .durationUnder, f.durationOver.map .durationOver]

/-- The place of a predicate. -/
def place (p : Predicate) : ℕ :=
  SkipCondition.kinds.idxOf p.name

theorem mem_predicates_iff : p ∈ f.predicates ↔ some p ∈ f.slots := by
  simp [predicates, thresholdPredicates, slots, eq_comm]

theorem slots_put (f : SkipForm) (p : Predicate) :
    (f.put p).slots = f.slots.set (place p) (some p) := by
  cases p <;> rfl

theorem name_mem_kinds (p : Predicate) : p.name ∈ SkipCondition.kinds := by
  cases p <;> simp [SkipCondition.kinds, Predicate.name]

theorem place_lt (f : SkipForm) (p : Predicate) : place p < f.slots.length :=
  List.idxOf_lt_length_of_mem (name_mem_kinds p)

theorem place_eq_iff : place p = place q ↔ p.name = q.name :=
  List.idxOf_inj (name_mem_kinds p)

theorem kinds_of_slots (f : SkipForm) :
    List.Forall₂ (fun o kind => ∀ p ∈ o, Predicate.name p = kind) f.slots SkipCondition.kinds := by
  simp [slots, SkipCondition.kinds, Predicate.name]

/-- A predicate stands in its own place only. -/
theorem some_mem_slots_iff : some p ∈ f.slots ↔ f.slots[place p]? = some (some p) := by
  refine ⟨?_, List.mem_of_getElem?⟩
  intro h
  obtain ⟨i, hlt, hslot⟩ := List.mem_iff_getElem.mp h
  have hlt' : i < SkipCondition.kinds.length := hlt
  have hname : p.name = SkipCondition.kinds[i] := f.kinds_of_slots.get hlt hlt' p hslot
  have hplace : place p = i := by
    rw [place, hname]
    exact List.Nodup.idxOf_getElem (by decide) i hlt'
  rw [hplace, List.getElem?_eq_getElem hlt, hslot]

/-! ## The last of each kind -/

theorem mem_predicates_put :
    q ∈ (f.put p).predicates ↔ q = p ∨ q ∈ f.predicates ∧ p.name ≠ q.name := by
  rw [mem_predicates_iff, some_mem_slots_iff, slots_put, mem_predicates_iff, some_mem_slots_iff]
  -- Only the place of the new predicate changes.
  by_cases hname : p.name = q.name
  · rw [← place_eq_iff.mpr hname, List.getElem?_set_self (f.place_lt p)]
    simp [hname, eq_comm]
  · have hne : q ≠ p := fun heq => hname (heq ▸ rfl)
    rw [List.getElem?_set_ne (mt place_eq_iff.mp hname)]
    simp [hname, hne]

theorem mem_predicates_foldl_put : q ∈ (ps.foldl put f).predicates ↔
    Predicate.IsLastOfKind ps q ∨ q ∈ f.predicates ∧ ∀ p ∈ ps, p.name ≠ q.name := by
  induction ps generalizing f with
  | nil => simp [Predicate.not_isLastOfKind_nil]
  | cons first rest ih =>
      rw [List.foldl_cons, ih, mem_predicates_put, Predicate.isLastOfKind_cons_iff,
        List.forall_mem_cons, or_and_right, and_assoc, or_assoc]

theorem mem_predicates_ofCondition :
    q ∈ (ofCondition c).predicates ↔ Predicate.IsLastOfKind c.predicates q := by
  rw [ofCondition, mem_predicates_foldl_put]
  exact or_iff_left fun h => absurd h.1 List.not_mem_nil

theorem mode_foldl_put : (ps.foldl put f).mode = f.mode := by
  induction ps generalizing f with
  | nil => rfl
  | cons first rest ih =>
      rw [List.foldl_cons, ih]
      cases first <;> rfl

theorem mode_ofCondition : (ofCondition c).mode = if c.mode = .any then none else some c.mode :=
  mode_foldl_put

/-! ## Read back -/

section Written

variable (h : ∀ p ∈ f.predicates, p.IsWritable)
include h

theorem isNormal_of_isWritable (hmode : f.mode ≠ some .any) : f.IsNormal where
  videoCodec names hnames := nameList_eq_self_iff.mpr
    (h (.videoCodec names) (by simp [predicates, Option.mem_def.mp hnames]))
  audioCodec name hname := nonBlank_eq_ok_iff.mpr
    (h (.audioCodec name) (by simp [predicates, Option.mem_def.mp hname]))
  subtitleLanguage name hname := nonBlank_eq_ok_iff.mpr
    (h (.subtitleLanguage name) (by simp [predicates, Option.mem_def.mp hname]))
  container names hnames := nameList_eq_self_iff.mpr
    (h (.container names) (by simp [predicates, Option.mem_def.mp hnames]))
  mode := hmode

theorem read_encode_of_isWritable : schema.read Json.dialect f.encode = .ok f := by
  have hthreshold : ∀ p ∈ f.thresholdPredicates, p.IsWritable := fun p hp =>
    h p (List.mem_append_right _ hp)
  apply read_encode
  · constructor
    · intro s hs
      exact hthreshold (.fileSizeUnder s) (by simp [thresholdPredicates, Option.mem_def.mp hs])
    · intro s hs
      exact hthreshold (.fileSizeOver s) (by simp [thresholdPredicates, Option.mem_def.mp hs])
  · intro t ht
    exact hthreshold (.durationUnder t) (by simp [thresholdPredicates, Option.mem_def.mp ht])
  · intro t ht
    exact hthreshold (.durationOver t) (by simp [thresholdPredicates, Option.mem_def.mp ht])

end Written

end SkipForm

namespace SkipCondition

variable {c : SkipCondition} {m : MediaInfo} {ps qs : List Predicate}

/-- What is left of a condition in a document: the last predicate of each kind. -/
theorem decode_encode (h : ∀ p, Predicate.IsLastOfKind c.predicates p → p.IsWritable) :
    Json.decode reader (Json.compact c.encode) =
      .ok ⟨(SkipForm.ofCondition c).predicates, c.mode⟩ := by
  have hwritable : ∀ p ∈ (SkipForm.ofCondition c).predicates, p.IsWritable := fun p hp =>
    h p (SkipForm.mem_predicates_ofCondition.mp hp)
  have hmode : (SkipForm.ofCondition c).mode ≠ some .any ∧
      (SkipForm.ofCondition c).mode.getD .any = c.mode := by
    rw [SkipForm.mode_ofCondition]
    cases c.mode <;> simp
  have hnormal := SkipForm.isNormal_of_isWritable hwritable hmode.1
  have hreader : reader Json.dialect c.encode =
      .ok ⟨(SkipForm.ofCondition c).predicates, c.mode⟩ := by
    refine Reader.checked_eq_ok_iff.mpr
      ⟨_, SkipForm.read_encode_of_isWritable hwritable, mapError_eq_ok_iff.mpr ?_⟩
    rw [hnormal.condition_eq, hmode.2]
  have hscan : Json.scan (Json.compact c.encode) = some c.encode :=
    Json.scan_compact (SkipForm.ofCondition c).isExact_encode
  simp only [Json.decode, hscan, hreader]

/-! ## Decisions -/

theorem isSome_evaluate_congr (h : ∀ p, p ∈ qs ↔ p ∈ ps) (mode : MatchMode) :
    (evaluate ⟨qs, mode⟩ m).isSome = true ↔ (evaluate ⟨ps, mode⟩ m).isSome = true := by
  cases mode with
  | any => simp only [isSome_evaluate_any_iff, h]
  | all => simp only [isSome_evaluate_all_iff, h, ne_eq, List.eq_nil_iff_forall_not_mem]

section Decisions

variable (h : ∀ p, p ∈ qs ↔ Predicate.IsLastOfKind ps p)
include h

theorem isSome_evaluate_any_of_last (hqs : (evaluate ⟨qs, .any⟩ m).isSome = true) :
    (evaluate ⟨ps, .any⟩ m).isSome = true := by
  obtain ⟨p, hp, hsatisfied⟩ := isSome_evaluate_any_iff.mp hqs
  exact isSome_evaluate_any_iff.mpr ⟨p, ((h p).mp hp).mem, hsatisfied⟩

theorem isSome_evaluate_all_of_last (hps : (evaluate ⟨ps, .all⟩ m).isSome = true) :
    (evaluate ⟨qs, .all⟩ m).isSome = true := by
  obtain ⟨hne, hall⟩ := isSome_evaluate_all_iff.mp hps
  refine isSome_evaluate_all_iff.mpr ⟨?_, fun p hp => hall p ((h p).mp hp).mem⟩
  obtain ⟨p, hp⟩ := List.exists_mem_of_ne_nil ps hne
  obtain ⟨q, hq, -⟩ := Predicate.exists_isLastOfKind_of_mem hp
  exact List.ne_nil_of_mem ((h q).mpr hq)

end Decisions

/-- A condition whose last predicates can be written is read back with exactly these, in the order
of the kinds.  It then matches no file more in the one mode, and no file less in the other, and
the same files when no kind was repeated. -/
theorem exists_decode_eq_last (c : SkipCondition)
    (h : ∀ p, Predicate.IsLastOfKind c.predicates p → p.IsWritable) :
    ∃ back, Json.decode reader (Json.compact c.encode) = .ok back ∧ back.mode = c.mode ∧
      (∀ p, p ∈ back.predicates ↔ Predicate.IsLastOfKind c.predicates p) ∧
      (back.predicates.map Predicate.name).Sublist kinds ∧
      ∀ m,
        (c.mode = .any → (back.evaluate m).isSome = true → (c.evaluate m).isSome = true) ∧
        (c.mode = .all → (c.evaluate m).isSome = true → (back.evaluate m).isSome = true) ∧
        ((c.predicates.map Predicate.name).Nodup →
          ((back.evaluate m).isSome = true ↔ (c.evaluate m).isSome = true)) := by
  have hlast : ∀ p, p ∈ (SkipForm.ofCondition c).predicates ↔
      Predicate.IsLastOfKind c.predicates p := fun _ => SkipForm.mem_predicates_ofCondition
  refine ⟨_, decode_encode h, rfl, hlast, SkipForm.predicates_sublist_kinds _, ?_⟩
  intro m
  generalize (SkipForm.ofCondition c).predicates = kept at hlast
  obtain ⟨ps, mode⟩ := c
  refine ⟨?_, ?_, ?_⟩
  · rintro rfl
    exact isSome_evaluate_any_of_last hlast
  · rintro rfl
    exact isSome_evaluate_all_of_last hlast
  · intro hnodup
    have hmem : ∀ p, p ∈ kept ↔ p ∈ ps := fun p =>
      (hlast p).trans (Predicate.isLastOfKind_iff_of_nodup hnodup)
    exact isSome_evaluate_congr hmem mode

/-- A condition that names two audio codecs and, before them, a container. -/
def repeated : SkipCondition :=
  ⟨[.container ["mkv"], .audioCodec "dts", .audioCodec "ac3"], .all⟩

/-- The second audio codec takes the place of the first, and the kinds come in their order. -/
theorem exists_decode_repeated :
    ∃ back, Json.decode reader (Json.compact repeated.encode) = .ok back ∧
      .audioCodec "ac3" ∈ back.predicates ∧ .audioCodec "dts" ∉ back.predicates := by
  have hwritable : ∀ p ∈ repeated.predicates, p.IsWritable := by
    simp only [repeated, List.forall_mem_cons, List.not_mem_nil, false_implies, implies_true,
      and_true, Predicate.IsWritable]
    decide +kernel
  obtain ⟨back, hback, -, hlast, -⟩ :=
    exists_decode_eq_last repeated fun p hp => hwritable p hp.mem
  refine ⟨back, hback, (hlast _).mpr ?_, fun hmem => ?_⟩
  · exact ⟨[.container ["mkv"], .audioCodec "dts"], [], rfl, by simp⟩
  · have hfirst := (hlast _).mp hmem
    simp [repeated, Predicate.isLastOfKind_cons_iff, Predicate.not_isLastOfKind_nil,
      Predicate.name] at hfirst

/-- A condition with two limits on the size of a file. -/
def twoLimits (first second : ByteSize) (mode : MatchMode) : SkipCondition :=
  ⟨[.fileSizeUnder first, .fileSizeUnder second], mode⟩

/-- A file between two limits: of the alternatives the one that matches is lost, and of the
requirements the one that is not met. -/
theorem twoLimits_decode_differs :
    let narrow : ByteSize := ⟨1 <<< 20, by decide⟩
    let wide : ByteSize := ⟨1 <<< 30, by decide⟩
    let m : MediaInfo := { filePath := "/m/a.mkv", fileSize := some 524288000 }
    (∃ back, Json.decode reader (Json.compact (twoLimits wide narrow .any).encode) = .ok back ∧
      ((twoLimits wide narrow .any).evaluate m).isSome = true ∧ back.evaluate m = none) ∧
    ∃ back, Json.decode reader (Json.compact (twoLimits narrow wide .all).encode) = .ok back ∧
      (twoLimits narrow wide .all).evaluate m = none ∧ (back.evaluate m).isSome = true := by
  intro narrow wide m
  have hholds : ∀ s ∈ [narrow, wide], BinaryFormat.double.Holds s.bytes := by
    intro s hs
    have hlt : s.bytes < 2 ^ 53 := by
      revert s
      decide
    exact BinaryFormat.holds_natCast hlt (by decide) (by decide)
  have hwritable (first second : ByteSize) (mode : MatchMode) (hfirst : first ∈ [narrow, wide])
      (hsecond : second ∈ [narrow, wide]) :
      ∀ p, Predicate.IsLastOfKind (twoLimits first second mode).predicates p → p.IsWritable := by
    intro p hp
    obtain rfl | rfl : p = .fileSizeUnder first ∨ p = .fileSizeUnder second := by
      simpa [twoLimits] using hp.mem
    · exact hholds first hfirst
    · exact hholds second hsecond
  refine ⟨⟨_, decode_encode (hwritable _ _ _ ?_ ?_), rfl, rfl⟩,
    ⟨_, decode_encode (hwritable _ _ _ ?_ ?_), rfl, rfl⟩⟩
  all_goals simp

end SkipCondition

end MediaPhases
