import MediaPhases.Condition.SkipDocument
import MediaPhases.Document.Json
import MediaPhases.Proofs.Document.Json.RoundTrip
import MediaPhases.Proofs.Document.Record
import MediaPhases.Proofs.Text.Blank
import MediaPhases.Proofs.Threshold.ByteSize
import MediaPhases.Proofs.Threshold.Timespan

/-!
# Skip conditions read back

A condition that was read comes from a form in normal form: its names are trimmed, its sizes are
held in double precision, and its mode is stated only when it is not the standard one.  The form
of the condition is that form again, and it is read back from what is written for it as long as
its durations are whole seconds.
-/

namespace MediaPhases

theorem Resolution.parse_render (r : Resolution) : parse r.render = .ok r := by
  cases r <;> rfl

/-- A duration to which the predicate compares is of whole seconds, and double precision counts
them one by one. -/
def Predicate.HasWholeDuration : Predicate → Prop
  | .durationUnder t => t.IsWhole
  | .durationOver t => t.IsWhole
  | _ => True

/-- The kinds of predicates in the order in which a condition tests them. -/
def SkipCondition.kinds : List String :=
  ["video_codec", "audio_codec_exists", "subtitle_language_exists", "container", "resolution",
    "resolution_under", "file_size_under", "file_size_over", "duration_under", "duration_over"]

namespace SkipForm

variable {f g : SkipForm} {c : SkipCondition} {d : Dialect} {v : Value} {field : String}

/-! ## Trimmed names -/

theorem nameList_eq_ok_iff {names kept : List String} :
    nameList field names = .ok kept ↔ (names.map Text.trim).filter (· ≠ "") = kept ∧ kept ≠ [] := by
  rw [nameList]
  split
  · rename_i hnil
    rw [hnil]
    constructor
    · intro h
      cases h
    · rintro ⟨rfl, hne⟩
      exact absurd rfl hne
  · rename_i hne
    rw [Except.ok.injEq]
    constructor
    · rintro rfl
      exact ⟨rfl, hne⟩
    · exact And.left

theorem trim_eq_of_mem_nameList {names kept : List String} {name : String}
    (h : nameList field names = .ok kept) (hname : name ∈ kept) :
    Text.trim name = name ∧ name ≠ "" := by
  obtain ⟨rfl, -⟩ := nameList_eq_ok_iff.mp h
  obtain ⟨hmem, hblank⟩ := List.mem_filter.mp hname
  obtain ⟨written, -, rfl⟩ := List.mem_map.mp hmem
  exact ⟨Text.trim_trim written, by simpa using hblank⟩

/-- The lists of names that are kept as they are. -/
theorem nameList_eq_self_iff {names : List String} :
    nameList field names = .ok names ↔
      names ≠ [] ∧ ∀ name ∈ names, Text.trim name = name ∧ name ≠ "" := by
  constructor
  · intro h
    exact ⟨(nameList_eq_ok_iff.mp h).2, fun _ => trim_eq_of_mem_nameList h⟩
  · rintro ⟨hne, h⟩
    have hmap : names.map Text.trim = names :=
      (List.map_congr_left fun name hname => (h name hname).1).trans (List.map_id names)
    refine nameList_eq_ok_iff.mpr ⟨?_, hne⟩
    rw [hmap]
    exact List.filter_eq_self.mpr fun name hname => by simpa using (h name hname).2

theorem nameList_idem {names kept : List String} (h : nameList field names = .ok kept) :
    nameList field kept = .ok kept :=
  nameList_eq_self_iff.mpr ⟨(nameList_eq_ok_iff.mp h).2, fun _ => trim_eq_of_mem_nameList h⟩

theorem nonBlank_eq_ok_iff {name kept : String} :
    nonBlank field name = .ok kept ↔ Text.trim name = kept ∧ kept ≠ "" := by
  rw [nonBlank]
  split
  · rename_i hblank
    constructor
    · intro h
      cases h
    · rintro ⟨rfl, hne⟩
      exact absurd hblank hne
  · rename_i hne
    rw [Except.ok.injEq]
    constructor
    · rintro rfl
      exact ⟨rfl, hne⟩
    · exact And.left

theorem nonBlank_idem {name kept : String} (h : nonBlank field name = .ok kept) :
    nonBlank field kept = .ok kept := by
  obtain ⟨rfl, hne⟩ := nonBlank_eq_ok_iff.mp h
  exact nonBlank_eq_ok_iff.mpr ⟨Text.trim_trim name, hne⟩

/-- What a checked field contributes is the predicate of a value that the check has let through,
or nothing. -/
theorem exists_of_checkedPredicate {α β : Type} {check : String → α → Except ThresholdFault β}
    {make : β → Predicate} {written : Option α} {ps : List Predicate}
    (h : checkedPredicate field check make written = .ok ps) :
    ∃ kept : Option β, ps = (kept.map make).toList ∧
      ∀ b ∈ kept, ∃ a, check field a = .ok b := by
  cases written with
  | none =>
      cases h
      exact ⟨none, rfl, by simp⟩
  | some a =>
      obtain ⟨b, hcheck, rfl⟩ := map_eq_ok_iff.mp h
      refine ⟨some b, rfl, ?_⟩
      rintro _ ⟨⟩
      exact ⟨a, hcheck⟩

theorem checkedPredicate_of_forall {α : Type} {check : String → α → Except ThresholdFault α}
    {make : α → Predicate} {kept : Option α} (h : ∀ a ∈ kept, check field a = .ok a) :
    checkedPredicate field check make kept = .ok (kept.map make).toList := by
  cases kept with
  | none => rfl
  | some a =>
      rw [checkedPredicate, h a rfl]
      rfl

/-! ## Normal forms -/

/-- The names of the form are trimmed, and its mode is stated only when it is not the standard
one. -/
structure IsNormal (f : SkipForm) : Prop where
  videoCodec : ∀ names ∈ f.videoCodec, nameList "video_codec" names = .ok names
  audioCodec : ∀ name ∈ f.audioCodec, nonBlank "audio_codec_exists" name = .ok name
  subtitleLanguage :
    ∀ name ∈ f.subtitleLanguage, nonBlank "subtitle_language_exists" name = .ok name
  container : ∀ names ∈ f.container, nameList "container" names = .ok names
  mode : f.mode ≠ some .any

/-- The predicates of a form in normal form, in their fixed order. -/
def predicates (f : SkipForm) : List Predicate :=
  (f.videoCodec.map .videoCodec).toList ++ (f.audioCodec.map .audioCodec).toList ++
    (f.subtitleLanguage.map .subtitleLanguage).toList ++ (f.container.map .container).toList ++
    f.thresholdPredicates

theorem IsNormal.condition_eq (h : g.IsNormal) :
    g.condition = .ok ⟨g.predicates, g.mode.getD .any⟩ := by
  rw [condition, namePredicates, checkedPredicate_of_forall h.videoCodec,
    checkedPredicate_of_forall h.audioCodec, checkedPredicate_of_forall h.subtitleLanguage,
    checkedPredicate_of_forall h.container]
  rfl

/-- The condition of a form is that of a form in normal form with the same thresholds. -/
theorem exists_isNormal (h : f.condition = .ok c) :
    ∃ g : SkipForm, g.IsNormal ∧ g.condition = .ok c ∧ g.fileSizeUnder = f.fileSizeUnder ∧
      g.fileSizeOver = f.fileSizeOver := by
  obtain ⟨names, hnames, h⟩ := bind_eq_ok_iff.mp h
  obtain ⟨video, hvideo, hnames⟩ := bind_eq_ok_iff.mp hnames
  obtain ⟨audio, haudio, hnames⟩ := bind_eq_ok_iff.mp hnames
  obtain ⟨subtitle, hsubtitle, hnames⟩ := bind_eq_ok_iff.mp hnames
  obtain ⟨container, hcontainer, hnames⟩ := bind_eq_ok_iff.mp hnames
  cases hnames
  cases h
  obtain ⟨codecs, rfl, hcodecs⟩ := exists_of_checkedPredicate hvideo
  obtain ⟨codec, rfl, hcodec⟩ := exists_of_checkedPredicate haudio
  obtain ⟨language, rfl, hlanguage⟩ := exists_of_checkedPredicate hsubtitle
  obtain ⟨formats, rfl, hformats⟩ := exists_of_checkedPredicate hcontainer
  -- The form that holds what the checks let through, and no mode that goes without saying.
  let g : SkipForm :=
    { f with
      videoCodec := codecs
      audioCodec := codec
      subtitleLanguage := language
      container := formats
      mode := if f.mode = some .any then none else f.mode }
  have hnormal : g.IsNormal := by
    refine ⟨fun names hnames => ?_, fun name hname => ?_, fun name hname => ?_,
      fun names hnames => ?_, ?_⟩
    · obtain ⟨_, hcheck⟩ := hcodecs names hnames
      exact nameList_idem hcheck
    · obtain ⟨_, hcheck⟩ := hcodec name hname
      exact nonBlank_idem hcheck
    · obtain ⟨_, hcheck⟩ := hlanguage name hname
      exact nonBlank_idem hcheck
    · obtain ⟨_, hcheck⟩ := hformats names hnames
      exact nameList_idem hcheck
    · by_cases hany : f.mode = some .any <;> simp [g, hany]
  have hmode : g.mode.getD .any = f.mode.getD .any := by
    by_cases hany : f.mode = some .any <;> simp [g, hany]
  refine ⟨g, hnormal, ?_, rfl, rfl⟩
  rw [hnormal.condition_eq, hmode]
  rfl

theorem sublist_of_toList {α : Type} {make : α → Predicate} {kind : String}
    (hkind : ∀ a, (make a).name = kind) (o : Option α) :
    ((o.map make).toList.map Predicate.name).Sublist [kind] := by
  cases o with
  | none => exact List.nil_sublist _
  | some a => simp [hkind]

/-- At most one predicate of each kind stands in a condition, in the order of the kinds. -/
theorem predicates_sublist_kinds (f : SkipForm) :
    (f.predicates.map Predicate.name).Sublist SkipCondition.kinds := by
  have hkinds : SkipCondition.kinds =
      ["video_codec"] ++ ["audio_codec_exists"] ++ ["subtitle_language_exists"] ++ ["container"] ++
        (["resolution"] ++ ["resolution_under"] ++ ["file_size_under"] ++ ["file_size_over"] ++
          ["duration_under"] ++ ["duration_over"]) := rfl
  simp only [predicates, thresholdPredicates, List.map_append, hkinds]
  refine .append (.append (.append (.append ?_ ?_) ?_) ?_)
    (.append (.append (.append (.append (.append ?_ ?_) ?_) ?_) ?_) ?_)
  all_goals
    apply sublist_of_toList
    exact fun _ => rfl

/-- Putting at most one predicate of a kind into a form that has none of it. -/
theorem foldl_put_toList {α : Type} (make : α → Predicate) (set : Option α → SkipForm → SkipForm)
    (hput : ∀ a f, f.put (make a) = set (some a) f) {o : Option α} (hnone : set none f = f) :
    (o.map make).toList.foldl put f = set o f := by
  cases o with
  | none => exact hnone.symm
  | some a => exact hput a f

/-- The form of the condition that a form in normal form states is the form itself. -/
theorem IsNormal.ofCondition_eq (h : g.IsNormal) (hc : g.condition = .ok c) :
    ofCondition c = g := by
  obtain rfl : ⟨g.predicates, g.mode.getD .any⟩ = c := by
    rw [h.condition_eq] at hc
    exact Except.ok.inj hc
  obtain ⟨video, audio, subtitle, container, label, labelUnder, sizeUnder, sizeOver, timeUnder,
    timeOver, mode⟩ := g
  have hmode : (if mode.getD .any = .any then none else some (mode.getD .any)) = mode := by
    obtain _ | _ | _ := mode
    · rfl
    · exact absurd rfl h.mode
    · rfl
  simp only [ofCondition, predicates, thresholdPredicates, List.foldl_append, hmode]
  rw [foldl_put_toList .videoCodec (fun x f => { f with videoCodec := x }) fun _ _ => rfl,
    foldl_put_toList .audioCodec (fun x f => { f with audioCodec := x }) fun _ _ => rfl,
    foldl_put_toList .subtitleLanguage (fun x f => { f with subtitleLanguage := x }) fun _ _ => rfl,
    foldl_put_toList .container (fun x f => { f with container := x }) fun _ _ => rfl,
    foldl_put_toList .resolution (fun x f => { f with resolution := x }) fun _ _ => rfl,
    foldl_put_toList .resolutionUnder (fun x f => { f with resolutionUnder := x }) fun _ _ => rfl,
    foldl_put_toList .fileSizeUnder (fun x f => { f with fileSizeUnder := x }) fun _ _ => rfl,
    foldl_put_toList .fileSizeOver (fun x f => { f with fileSizeOver := x }) fun _ _ => rfl,
    foldl_put_toList .durationUnder (fun x f => { f with durationUnder := x }) fun _ _ => rfl,
    foldl_put_toList .durationOver (fun x f => { f with durationOver := x }) fun _ _ => rfl]
  all_goals rfl

/-! ## Reading forms back -/

/-- What a literal's parser reads is read from a document. -/
theorem literal_text {α : Type} {parse : String → Except ThresholdFault α} {s : String} {a : α}
    (h : parse s = .ok a) : literal parse d (.text s) = .ok a :=
  Reader.checked_eq_ok_iff.mpr ⟨s, rfl, mapError_eq_ok_iff.mpr h⟩

theorem exists_parse_of_literal {α : Type} {parse : String → Except ThresholdFault α} {a : α}
    (h : literal parse d v = .ok a) : ∃ s, parse s = .ok a := by
  obtain ⟨s, -, hcheck⟩ := Reader.checked_eq_ok_iff.mp h
  exact ⟨s, mapError_eq_ok_iff.mp hcheck⟩

/-- The sizes of the form are held in double precision. -/
structure HoldsSizes (f : SkipForm) : Prop where
  fileSizeUnder : ∀ s ∈ f.fileSizeUnder, BinaryFormat.double.Holds s.bytes
  fileSizeOver : ∀ s ∈ f.fileSizeOver, BinaryFormat.double.Holds s.bytes

theorem holds_of_optional_literal {o : Option ByteSize}
    (h : Reader.optional (literal ByteSize.parse) d v = .ok o) :
    ∀ s ∈ o, BinaryFormat.double.Holds s.bytes := by
  obtain ⟨-, rfl⟩ | ⟨a, hread, rfl⟩ := Reader.optional_eq_ok h
  · simp
  · obtain ⟨literal, hparse⟩ := exists_parse_of_literal hread
    rintro _ ⟨⟩
    exact ByteSize.holds_of_parse hparse

theorem holdsSizes_of_read (h : schema.read d v = .ok f) : f.HoldsSizes := by
  refine Schema.read_induction h ⟨by simp [schema], by simp [schema]⟩ ?_
  simp only [schema, List.forall_mem_cons, List.not_mem_nil, false_implies, implies_true, and_true]
  refine ⟨?_, ?_, ?_, ?_, ?_, ?_, ?sizeUnder, ?sizeOver, ?_, ?_, ?_⟩
  case sizeUnder =>
    exact Field.keeps_of fun _ _ _ _ ha hread => ⟨holds_of_optional_literal hread, ha.fileSizeOver⟩
  case sizeOver =>
    exact Field.keeps_of fun _ _ _ _ ha hread => ⟨ha.fileSizeUnder, holds_of_optional_literal hread⟩
  all_goals exact Field.keeps_of fun _ _ _ _ ha _ => ⟨ha.fileSizeUnder, ha.fileSizeOver⟩

theorem modeReader_text (m : MatchMode) : modeReader Json.dialect (.text m.name) = .ok m := by
  cases m <;> rfl

/-- A form is read back from what is written for it when its sizes are held in double precision
and its durations are of whole seconds. -/
theorem read_encode (hsizes : g.HoldsSizes) (hunder : ∀ t ∈ g.durationUnder, t.IsWhole)
    (hover : ∀ t ∈ g.durationOver, t.IsWhole) : schema.read Json.dialect g.encode = .ok g := by
  have htexts (xs : List String) :
      Reader.listOf .text Json.dialect (.list (xs.map .text)) = .ok xs ∧
        Value.list (xs.map .text) ≠ .null :=
    ⟨Reader.listOf_map fun _ _ => rfl, nofun⟩
  have htext (s : String) : Reader.text Json.dialect (.text s) = .ok s ∧ Value.text s ≠ .null :=
    ⟨rfl, nofun⟩
  have hliteral {α : Type} {parse : String → Except ThresholdFault α} {s : String} {a : α}
      (hparse : parse s = .ok a) :
      literal parse Json.dialect (.text s) = .ok a ∧ Value.text s ≠ .null :=
    ⟨literal_text hparse, nofun⟩
  have hsize (s : ByteSize) (hs : BinaryFormat.double.Holds s.bytes) :=
    hliteral (ByteSize.parse_render hs)
  have hmode (m : MatchMode) :
      modeReader Json.dialect (.text m.name) = .ok m ∧ Value.text m.name ≠ .null :=
    ⟨modeReader_text m, nofun⟩
  apply Schema.read_of_readsInOrder (by decide)
  rw [← List.append_nil (optionalEntry "mode" _ g.mode)]
  simp only [List.append_assoc]
  exact .of_optionalEntry (fun x _ => htexts x) rfl <|
    .of_optionalEntry (fun x _ => htext x) rfl <|
    .of_optionalEntry (fun x _ => htext x) rfl <|
    .of_optionalEntry (fun x _ => htexts x) rfl <|
    .of_optionalEntry (fun x _ => hliteral x.parse_render) rfl <|
    .of_optionalEntry (fun x _ => hliteral x.parse_render) rfl <|
    .of_optionalEntry (fun x hx => hsize x (hsizes.fileSizeUnder x hx)) rfl <|
    .of_optionalEntry (fun x hx => hsize x (hsizes.fileSizeOver x hx)) rfl <|
    .of_optionalEntry (fun x hx => hliteral (Timespan.parse_render (hunder x hx))) rfl <|
    .of_optionalEntry (fun x hx => hliteral (Timespan.parse_render (hover x hx))) rfl <|
    .of_optionalEntry (fun x _ => hmode x) rfl .nil

/-- A written form has no numbers, so its text says all of it. -/
theorem isExact_encode (f : SkipForm) {room : ℕ} : Json.IsExact (room + 2) f.encode := by
  simp only [encode, Json.isExact_table, List.forall_mem_append, forall_mem_optionalEntry]
  simp

end SkipForm

namespace SkipCondition

variable {c : SkipCondition} {d : Dialect} {v : Value}

theorem exists_isNormal_of_reader (h : reader d v = .ok c) :
    ∃ g : SkipForm, g.IsNormal ∧ g.HoldsSizes ∧ g.condition = .ok c ∧
      c.predicates = g.predicates := by
  obtain ⟨f, hread, hcheck⟩ := Reader.checked_eq_ok_iff.mp h
  obtain ⟨g, hnormal, hg, hunder, hover⟩ :=
    SkipForm.exists_isNormal (mapError_eq_ok_iff.mp hcheck)
  have hf := SkipForm.holdsSizes_of_read hread
  refine ⟨g, hnormal, ⟨hunder ▸ hf.fileSizeUnder, hover ▸ hf.fileSizeOver⟩, hg, ?_⟩
  rw [hnormal.condition_eq] at hg
  cases hg
  rfl

theorem sublist_kinds_of_reader (h : reader d v = .ok c) :
    (c.predicates.map Predicate.name).Sublist kinds := by
  obtain ⟨g, -, -, -, hpredicates⟩ := exists_isNormal_of_reader h
  exact hpredicates ▸ g.predicates_sublist_kinds

/-- A condition that was read is read back from what is written for it when its durations are of
whole seconds. -/
theorem reader_encode (h : reader d v = .ok c) (hwhole : ∀ p ∈ c.predicates, p.HasWholeDuration) :
    reader Json.dialect c.encode = .ok c := by
  obtain ⟨g, hnormal, hsizes, hg, hpredicates⟩ := exists_isNormal_of_reader h
  have hdurationUnder : ∀ t ∈ g.durationUnder, t.IsWhole := by
    intro t ht
    refine hwhole (.durationUnder t) ?_
    rw [hpredicates]
    simp [SkipForm.predicates, SkipForm.thresholdPredicates, Option.mem_def.mp ht]
  have hdurationOver : ∀ t ∈ g.durationOver, t.IsWhole := by
    intro t ht
    refine hwhole (.durationOver t) ?_
    rw [hpredicates]
    simp [SkipForm.predicates, SkipForm.thresholdPredicates, Option.mem_def.mp ht]
  have hback : SkipForm.schema.read Json.dialect c.encode = .ok g := by
    rw [encode, hnormal.ofCondition_eq hg]
    exact SkipForm.read_encode hsizes hdurationUnder hdurationOver
  exact Reader.checked_eq_ok_iff.mpr ⟨g, hback, mapError_eq_ok_iff.mpr hg⟩

end SkipCondition

end MediaPhases
