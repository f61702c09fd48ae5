import MediaPhases.Proofs.Document.Reordering
import MediaPhases.Proofs.Policy.RoundTrip

/-!
# Policies in reordered documents

A policy document without repeated keys may be written with the entries of its tables in any
order.  Payloads are stored in canonical form, and every other part is a record whose fields are
put into it independently of each other, so that the order in which the predicates of a skip
condition are tested comes from the form and never from the document.
-/

namespace MediaPhases

variable {v w : Value} {d : Dialect} {P : List (String × Value) → Prop}

/-! ## Payloads -/

namespace Value

theorem canonicalEntries_replace (h : canonical v = canonical w)
    {before after sorted : List (String × Value)} {key : String} :
    canonicalEntries (before ++ (key, v) :: after) sorted =
      canonicalEntries (before ++ (key, w) :: after) sorted := by
  simp only [canonicalEntries_eq_foldl, List.foldl_append, List.foldl_cons, h]

/-- The canonical form of a value does not depend on the order of entries with keys of their
own. -/
theorem Reorders.canonical_eq (h : Reorders AreDistinct v w) : canonical v = canonical w := by
  induction h with
  | here hdistinct h => rw [canonical, canonical, canonicalEntries_perm h hdistinct]
  | item _ ih => simp only [canonical, canonicalItems_eq_map, List.map_append, List.map_cons, ih]
  | entry _ ih => rw [canonical, canonical, canonicalEntries_replace ih]

end Value

theorem Operations.unordered_reader : Reader.Unordered Value.AreDistinct d reader := by
  intro v w h
  have hreadable := h.isReadable_eq
  have hcanonical := h.canonical_eq
  cases h with
  | item _ => exact .of_refused nofun nofun
  | here _ _ =>
      simp only [Value.isReadable] at hreadable
      simp only [Value.canonical, Value.table.injEq] at hcanonical
      simp only [reader, Value.plain, ofEntries, hreadable, hcanonical]
      exact .refl _
  | entry _ =>
      simp only [Value.isReadable] at hreadable
      simp only [Value.canonical, Value.table.injEq] at hcanonical
      simp only [reader, Value.plain, ofEntries, hreadable, hcanonical]
      exact .refl _

/-! ## Conditions and phases -/

section Unordered

open Reader

theorem ErrorMode.unordered_reader (hd : d.IsUnordered P) : reader.Unordered P d :=
  unordered_oneOf hd _

theorem RunIf.unordered_reader (hd : d.IsUnordered P) : reader.Unordered P d := by
  apply unordered_choiceOf hd
  intro key read hread v w h
  obtain ⟨requirement, -, rfl⟩ := Option.map_eq_some_iff.mp hread
  exact (unordered_text v w h).map _

theorem SkipForm.unordered_literal {α : Type} {parse : String → Except ThresholdFault α} :
    (literal parse).Unordered P d :=
  unordered_text.checked _

theorem SkipForm.unordered_read (hd : d.IsUnordered P) : schema.read.Unordered P d := by
  apply Schema.unordered_read
  · simp only [schema, List.forall_mem_cons, List.not_mem_nil, false_implies, implies_true,
      and_true]
    have hmode : modeReader.Unordered P d := unordered_oneOf hd _
    exact ⟨Field.unordered_of unordered_text.listOf.optional,
      Field.unordered_of unordered_text.optional,
      Field.unordered_of unordered_text.optional,
      Field.unordered_of unordered_text.listOf.optional,
      Field.unordered_of unordered_literal.optional,
      Field.unordered_of unordered_literal.optional,
      Field.unordered_of unordered_literal.optional,
      Field.unordered_of unordered_literal.optional,
      Field.unordered_of unordered_literal.optional,
      Field.unordered_of unordered_literal.optional,
      Field.unordered_of hmode.optional⟩
  · simp only [schema, List.pairwise_cons, List.forall_mem_cons, List.not_mem_nil, false_implies,
      implies_true, and_true, List.Pairwise.nil]
    and_intros
    all_goals exact Field.commute_of fun _ _ _ => rfl

theorem SkipCondition.unordered_reader (hd : d.IsUnordered P) : reader.Unordered P d :=
  (SkipForm.unordered_read hd).checked _

theorem Phase.unordered_reader (hd : d.IsUnordered Value.AreDistinct) :
    reader.Unordered Value.AreDistinct d := by
  apply Schema.unordered_read
  · simp only [schema, List.forall_mem_cons, List.not_mem_nil, false_implies, implies_true,
      and_true]
    exact ⟨Field.unordered_of unordered_text,
      Field.unordered_of (SkipCondition.unordered_reader hd).optional,
      Field.unordered_of unordered_text.listOf,
      Field.unordered_of (RunIf.unordered_reader hd).optional,
      Field.unordered_of (ErrorMode.unordered_reader hd).optional,
      Field.unordered_of Operations.unordered_reader⟩
  · simp only [schema, List.pairwise_cons, List.forall_mem_cons, List.not_mem_nil, false_implies,
      implies_true, and_true, List.Pairwise.nil]
    and_intros
    all_goals exact Field.commute_of fun _ _ _ => rfl

end Unordered

/-! ## Policies -/

namespace Policy

open Reader

theorem unordered_settings (hd : d.IsUnordered P) : settings.read.Unordered P d := by
  apply Schema.unordered_read
  · simp only [settings, List.forall_mem_singleton]
    exact Field.unordered_of (ErrorMode.unordered_reader hd).optional
  · exact List.pairwise_singleton _ _

theorem unordered_reader (hd : d.IsUnordered Value.AreDistinct) :
    reader.Unordered Value.AreDistinct d := by
  apply Schema.unordered_read
  · simp only [schema, List.forall_mem_cons, List.not_mem_nil, false_implies, implies_true,
      and_true]
    exact ⟨Field.unordered_of unordered_natBelow.optional,
      Field.unordered_of (unordered_settings hd),
      Field.unordered_of (Phase.unordered_reader hd).listOf⟩
  · simp only [schema, List.pairwise_cons, List.forall_mem_cons, List.not_mem_nil, false_implies,
      implies_true, and_true, List.Pairwise.nil]
    and_intros
    all_goals exact Field.commute_of fun _ _ _ => rfl

/-- Two documents without repeated keys that differ in the order of entries only, at any depth,
are both accepted as one and the same policy, or are both refused.  The predicates of a skip
condition stand in the one order of their kinds. -/
theorem parse_json_reordered {s t : String} (hs : Json.scan s = some v)
    (ht : Json.scan t = some w) (hv : v.HasDistinctKeys) (h : Value.Reordered v w) :
    (∀ p, parse .json s = .ok p ↔ parse .json t = .ok p) ∧
      ∀ p, parse .json s = .ok p → ∀ phase ∈ p.phases, ∀ c ∈ phase.skipWhen,
        (c.predicates.map Predicate.name).Sublist SkipCondition.kinds := by
  constructor
  · intro p
    have hsteps := hv.reordered h
    have hreadable := Value.isReadable_eq_of_steps hsteps
    have hagree := (unordered_reader Json.isUnordered_dialect).agree hsteps
    rw [parse_json_eq_ok_iff_of_scan hs, parse_json_eq_ok_iff_of_scan ht, hreadable]
    exact and_congr_right fun _ => and_congr_left fun _ => hagree p
  · intro p hp phase hphase c hc
    obtain ⟨u, hu, hread, -⟩ := parse_json_eq_ok_iff.mp hp
    have hstored : p.IsStored 123 := isStored_of_reader hread (Json.fits_of_read hu)
    obtain ⟨d, written, hreader⟩ := (hstored.phases phase hphase).skipWhen c hc
    exact SkipCondition.sublist_kinds_of_reader hreader

/-- A document of one phase with the given entries. -/
def single (entries : List (String × Value)) : Value :=
  .table [("phases", .list [.table entries])]

/-- A phase with the two predicates of its skip condition in alphabetical order, which is not the
order in which they are tested. -/
def alphabetical : Value :=
  single [("name", .text "mix"), ("skip_when", .table [("container", .list [.text "mkv"]),
    ("video_codec", .list [.text "hevc"])])]

/-- The same phase with all entries in the order from last to first. -/
def reversed : Value :=
  single [("skip_when", .table [("video_codec", .list [.text "hevc"]),
    ("container", .list [.text "mkv"])]), ("name", .text "mix")]

theorem reorders_single {entries entries' : List (String × Value)}
    (h : Value.Reorders P (.table entries) (.table entries')) :
    Value.Reorders P (single entries) (single entries') :=
  @Value.Reorders.entry P [] [] "phases" _ _ (@Value.Reorders.item P [] [] _ _ h)

theorem reordered_reversed : Value.Reordered alphabetical reversed := by
  have hcondition : Value.Reordered alphabetical (single [("name", .text "mix"), ("skip_when",
      .table [("video_codec", .list [.text "hevc"]), ("container", .list [.text "mkv"])])]) := by
    apply Relation.ReflTransGen.single
    apply reorders_single
    apply @Value.Reorders.entry _ [("name", .text "mix")] []
    exact .here trivial (.swap _ _ _)
  have hphase : Value.Reorders (fun _ => True) (single [("name", .text "mix"), ("skip_when",
      .table [("video_codec", .list [.text "hevc"]), ("container", .list [.text "mkv"])])])
      reversed := by
    apply reorders_single
    exact .here trivial (.swap _ _ _)
  exact hcondition.tail hphase

/-- The policy of both documents. -/
def mixing : Policy where
  phases := [{
    name := "mix"
    skipWhen := some { predicates := [.videoCodec ["hevc"], .container ["mkv"]] } }]

/-- The document from last to first is accepted, since the one in alphabetical order is. -/
theorem parse_json_reversed : parse .json (Json.pretty reversed) = .ok mixing := by
  have halphabetical : Json.IsExact Json.nestingLimit alphabetical := by
    simp [alphabetical, single, Json.nestingLimit]
  have hreversed : Json.IsExact Json.nestingLimit reversed := by
    simp [reversed, single, Json.nestingLimit]
  have hkeys : alphabetical.HasDistinctKeys := by
    simp [alphabetical, single]
  have hparse : parse .json (Json.pretty alphabetical) = .ok mixing :=
    parse_json_eq_ok_iff.mpr ⟨_, Json.read_pretty halphabetical, rfl, rfl⟩
  have hboth := parse_json_reordered (Json.scan_pretty halphabetical)
    (Json.scan_pretty hreversed) hkeys reordered_reversed
  exact (hboth.1 mixing).mp hparse

end Policy

end MediaPhases
