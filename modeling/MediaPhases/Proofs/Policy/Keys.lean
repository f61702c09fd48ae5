import MediaPhases.Policy.Document
import MediaPhases.Proofs.Document.Json.RoundTrip
import MediaPhases.Proofs.Document.Record
import MediaPhases.Proofs.Policy.Document

/-!
# The keys of policy documents

A policy document is read by closed schemas at every level, so that no key in it is passed over,
except in the payloads of phases.  Whatever is written as a table where the policy, its settings,
a phase or a skip condition stands, has keys of that part only and none of them twice; a run-if
condition has a single key.  A document that breaks this anywhere is refused.
-/

namespace MediaPhases.Policy

/-- The parts of a policy whose keys are known. -/
inductive Part where
  | policy
  | settings
  | phase
  | skipCondition
  | runIf
deriving DecidableEq, Repr

/-- The keys that a part may have. -/
def Part.keys : Part → List String
  | .policy => ["schema_version", "config", "phases"]
  | .settings => ["on_error"]
  | .phase => ["name", "skip_when", "depends_on", "run_if", "on_error", "operations"]
  | .skipCondition =>
    ["video_codec", "audio_codec_exists", "subtitle_language_exists", "container", "resolution",
      "resolution_under", "file_size_under", "file_size_over", "duration_under", "duration_over",
      "mode"]
  | .runIf => ["phase_modified", "phase_completed"]

/-- The entries have keys of the part only, none of them twice, and a run-if condition has just
one. -/
structure Part.Admits (part : Part) (entries : List (String × Value)) : Prop where
  known : ∀ key ∈ entries.map (·.1), key ∈ part.keys
  nodup : (entries.map (·.1)).Nodup
  single : part = .runIf → entries.length = 1

/-- The value stands in the document where a policy has the part. -/
inductive Writes (document : Value) : Part → Value → Prop where
  | policy : Writes document .policy document
  | settings {u : Value} (h : Policy.schema.Holds "config" u document) : Writes document .settings u
  | phase {us : List Value} {u : Value} (h : Policy.schema.Holds "phases" (.list us) document)
      (hu : u ∈ us) : Writes document .phase u
  | skipCondition {u w : Value} (h : Writes document .phase u)
      (hw : Phase.schema.Holds "skip_when" w u) : Writes document .skipCondition w
  | runIf {u w : Value} (h : Writes document .phase u) (hw : Phase.schema.Holds "run_if" w u) :
      Writes document .runIf w

variable {d : Dialect} {v u : Value} {p : Policy} {entries : List (String × Value)}

/-- What stands where a read policy has a part is read as that part. -/
theorem Writes.exists_read (h : Writes v .phase u) (hread : reader d v = .ok p) :
    ∃ phase, Phase.reader d u = .ok phase := by
  cases h with
  | phase hphases hu =>
      obtain ⟨phases, hlist⟩ := hphases.exists_read (by decide) rfl rfl hread
      obtain ⟨vs, hplain, hitems, -⟩ := Reader.exists_of_listOf hlist
      cases hplain
      obtain ⟨phase, -, hphase⟩ := hitems u hu
      exact ⟨phase, hphase⟩

theorem admits_of_read {α : Type} {s : Schema α} {a : α} {part : Part}
    (hclosed : s.isClosed = true) (hnames : s.names = part.keys) (hpart : part ≠ .runIf)
    (h : s.read d (.table entries) = .ok a) : part.Admits entries := by
  obtain ⟨hnodup, hkeys⟩ := Schema.nodup_keys_of_read hclosed h
  exact ⟨hnames ▸ hkeys, hnodup, fun hrunIf => absurd hrunIf hpart⟩

/-- A table that is a choice in a JSON document has a single entry. -/
theorem eq_singleton_of_choice {name : String} {content : Option Value}
    (h : Json.choice (.table entries) = .ok ⟨name, content, none⟩) :
    ∃ u, entries = [(name, u)] := by
  match entries, h with
  | [(key, u)], h =>
    cases h
    exact ⟨u, rfl⟩

/-- A run-if condition in a JSON document is a table of one entry, whose key is one of the two
requirements. -/
theorem admits_runIf {c : RunIf} (h : RunIf.reader Json.dialect (.table entries) = .ok c) :
    Part.runIf.Admits entries := by
  obtain ⟨name, written, read, hchoice, hcontent, -⟩ := Reader.choiceOf_eq_ok_iff.mp h
  obtain ⟨u, rfl⟩ := eq_singleton_of_choice hchoice
  obtain ⟨requirement, hlookup, -⟩ := Option.map_eq_some_iff.mp hcontent
  obtain ⟨before, after, hsplit, -⟩ := List.lookup_eq_some_iff.mp hlookup
  have hkeys : RunIf.requirements.map (·.1) = Part.runIf.keys := rfl
  have hname : name ∈ Part.runIf.keys := by
    rw [← hkeys, hsplit]
    simp
  refine ⟨?_, List.nodup_singleton _, fun _ => rfl⟩
  simpa using hname

/-- Every part of a document that is read as a policy has only keys that it may have. -/
theorem admits_of_reader (hread : reader Json.dialect v = .ok p) {part : Part}
    (h : Writes v part (.table entries)) : part.Admits entries := by
  cases h with
  | policy => exact admits_of_read rfl rfl (by decide) hread
  | settings h =>
      obtain ⟨m, hm⟩ := h.exists_read (by decide) rfl rfl hread
      exact admits_of_read rfl rfl (by decide) hm
  | phase h hu =>
      obtain ⟨phase, hphase⟩ := (Writes.phase h hu).exists_read hread
      exact admits_of_read rfl rfl (by decide) hphase
  | skipCondition h hw =>
      obtain ⟨phase, hphase⟩ := h.exists_read hread
      obtain ⟨c, hc⟩ := hw.exists_read (by decide) rfl rfl hphase
      obtain ⟨hnull, -⟩ | ⟨c, hc, -⟩ := Reader.optional_eq_ok hc
      · cases hnull
      · obtain ⟨form, hform, -⟩ := Reader.checked_eq_ok_iff.mp hc
        exact admits_of_read rfl rfl (by decide) hform
  | runIf h hw =>
      obtain ⟨phase, hphase⟩ := h.exists_read hread
      obtain ⟨c, hc⟩ := hw.exists_read (by decide) rfl rfl hphase
      obtain ⟨hnull, -⟩ | ⟨c, hc, -⟩ := Reader.optional_eq_ok hc
      · cases hnull
      · exact admits_runIf hc

/-- No key of a policy document is passed over: where the policy, its settings, a phase, a skip
condition or a run-if condition is written as a table in a document that is accepted, each key is
one of that part's and none stands twice, and a run-if condition has just one.  A document that
breaks this at any place is refused as unreadable. -/
theorem parse_json_admits (text : String) :
    (∀ p, parse .json text = .ok p →
      ∃ v, Json.scan text = some v ∧
        ∀ part entries, Writes v part (.table entries) → part.Admits entries) ∧
    ∀ v part entries, Json.scan text = some v → Writes v part (.table entries) →
      ¬ part.Admits entries →
        ∃ fault, parse .json text = .error (.policy (.unreadable .json fault)) := by
  constructor
  · intro p h
    obtain ⟨v, hv, hread, -⟩ := parse_json_eq_ok_iff.mp h
    have hscan : Json.scan text = some v := (Option.filter_eq_some_iff.mp hv).1
    exact ⟨v, hscan, fun part entries hwrites => admits_of_reader hread hwrites⟩
  · intro v part entries hscan hwrites hbroken
    apply exists_parse_json_eq_error
    intro w q hw hread
    have hscan' : Json.scan text = some w := (Option.filter_eq_some_iff.mp hw).1
    obtain rfl : v = w := Option.some.inj (hscan.symm.trans hscan')
    exact hbroken (admits_of_reader hread hwrites)

/-- A document with a skip condition in its second phase, whose key is the given one. -/
def skipping (key : String) : Value :=
  .table [("phases", .list [.table [("name", .text "cut")],
    .table [("name", .text "mix"), (key, .table [("container", .list [.text "mkv"])])]])]

theorem read_pretty_skipping (key : String) :
    Json.read (Json.pretty (skipping key)) = some (skipping key) := by
  apply Json.read_pretty
  simp [skipping, Json.nestingLimit]

/-- The document is accepted with the right key and refused with a misspelled one. -/
theorem parse_json_skipping :
    (∃ v, Json.scan (Json.pretty (skipping "skip_when")) = some v ∧
      ∀ part entries, Writes v part (.table entries) → part.Admits entries) ∧
    ∃ fault, parse .json (Json.pretty (skipping "skip_wen")) =
      .error (.policy (.unreadable .json fault)) := by
  constructor
  · have hparse := parse_json_eq_ok_iff.mpr ⟨_, read_pretty_skipping "skip_when", rfl, rfl⟩
    exact (parse_json_admits _).1 _ hparse
  · have hphase : Writes (skipping "skip_wen") .phase (.table [("name", .text "mix"),
        ("skip_wen", .table [("container", .list [.text "mkv"])])]) :=
      .phase (.entry List.mem_cons_self) (List.mem_cons_of_mem _ List.mem_cons_self)
    have hscan : Json.scan (Json.pretty (skipping "skip_wen")) = some (skipping "skip_wen") :=
      (Option.filter_eq_some_iff.mp (read_pretty_skipping _)).1
    refine (parse_json_admits _).2 _ _ _ hscan hphase fun h => ?_
    have hknown := h.known "skip_wen" (by simp)
    exact absurd hknown (by decide)

end MediaPhases.Policy
