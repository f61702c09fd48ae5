import MediaPhases.Proofs.Condition.SkipDocument
import MediaPhases.Proofs.Document.Canonical
import MediaPhases.Proofs.Document.Json.RoundTrip
import MediaPhases.Proofs.Policy.Document

/-!
# Policies read back

What a policy that was read is known to be: its skip conditions come from documents, its payloads
are in canonical form and fit a document, and its schema version is a number of 32 bits.  Such a
policy is read back from what is written for it, provided that double precision loses nothing of
it: there is no floating-point number in a payload, and durations are of whole seconds.
-/

namespace MediaPhases

/-! ## Payloads -/

/-- The canonical form of a value fits where the value does. -/
theorem Json.Fits.canonical {room : ℕ} {v : Value} (h : Json.Fits room v) :
    Json.Fits room v.canonical := by
  induction h with
  | null => simp [Value.canonical]
  | bool b => simp [Value.canonical]
  | int h => simpa [Value.canonical] using h
  | text s => simp [Value.canonical]
  | float x => cases x <;> simp [Value.canonical]
  | list _ ih =>
      rw [Value.canonical, Value.canonicalItems_eq_map, Json.fits_list]
      intro v hv
      obtain ⟨u, hu, rfl⟩ := List.mem_map.mp hv
      exact ih u hu
  | table _ ih =>
      rw [Value.canonical, Json.fits_table]
      intro e he
      obtain hnil | ⟨f, hf, hvalue⟩ := Value.mem_canonicalEntries he
      · cases hnil
      · exact hvalue ▸ ih f hf

namespace Operations

variable {o : Operations} {d : Dialect} {v : Value} {room : ℕ}

/-- The payload is in canonical form, and its values fit a document. -/
structure IsStored (room : ℕ) (o : Operations) : Prop where
  canonical : Value.AreCanonical o.entries
  fits : ∀ e ∈ o.entries, Json.Fits room e.2

theorem isStored_empty : IsStored room {} :=
  ⟨⟨.nil, by simp⟩, by simp⟩

theorem isStored_of_reader (h : reader d v = .ok o) (hv : Json.Fits (room + 1) v) :
    o.IsStored room := by
  cases hv with
  | table hentries =>
      rw [reader] at h
      simp only [Value.plain] at h
      split at h
      · cases h
        refine ⟨Value.areCanonical_canonicalEntries fun e _ => e.2.canonical_canonical, ?_⟩
        intro e he
        obtain hnil | ⟨f, hf, hvalue⟩ := Value.mem_canonicalEntries he
        · cases hnil
        · exact hvalue ▸ (hentries f hf).canonical
      · cases h
  | _ => cases h

theorem reader_encode (h : o.IsStored room) : reader d o.encode = .ok o := by
  have hreadable : Value.haveReadable o.entries = true :=
    Value.haveReadable_iff.mpr fun e he => (h.fits e he).isReadable
  have hsame : ofEntries o.entries = o :=
    congrArg Operations.mk h.canonical.canonicalEntries_eq
  simp only [reader, encode, Value.plain, hreadable, if_pos, hsame]

end Operations

/-! ## Phases -/

theorem RunIf.reader_encode (c : RunIf) : reader Json.dialect c.encode = .ok c := by
  obtain ⟨_ | _, reference⟩ := c <;> rfl

theorem ErrorMode.reader_encode (m : ErrorMode) : reader Json.dialect m.encode = .ok m := by
  cases m <;> rfl

namespace Phase

variable {p : Phase} {d : Dialect} {v : Value} {room : ℕ}

/-- What is known of a phase that was read. -/
structure IsStored (room : ℕ) (p : Phase) : Prop where
  skipWhen : ∀ c ∈ p.skipWhen, ∃ d v, SkipCondition.reader d v = .ok c
  operations : p.operations.IsStored room

theorem isStored_of_reader (h : reader d v = .ok p) (hv : Json.Fits (room + 2) v) :
    p.IsStored room := by
  refine Schema.read_induction h ⟨by simp [schema], Operations.isStored_empty⟩ ?_
  simp only [schema, List.forall_mem_cons, List.not_mem_nil, false_implies, implies_true, and_true]
  refine ⟨?_, ?skipWhen, ?_, ?_, ?_, ?operations⟩
  case skipWhen =>
    refine Field.keeps_of fun u _ a c ha hread => ⟨?_, ha.operations⟩
    rintro condition ⟨⟩
    obtain ⟨-, hnone⟩ | ⟨_, hcondition, hsome⟩ := Reader.optional_eq_ok hread
    · cases hnone
    · cases hsome
      exact ⟨d, u, hcondition⟩
  case operations =>
    refine Field.keeps_of fun u hu a o ha hread => ⟨ha.skipWhen, ?_⟩
    exact Operations.isStored_of_reader hread (hv.of_mem_contents hu)
  all_goals exact Field.keeps_of fun _ _ _ _ ha _ => ⟨ha.skipWhen, ha.operations⟩

/-- A phase that was read is read back when its durations are of whole seconds. -/
theorem reader_encode (h : p.IsStored room)
    (hwhole : ∀ c ∈ p.skipWhen, ∀ q ∈ c.predicates, q.HasWholeDuration) :
    reader Json.dialect p.encode = .ok p := by
  have hskip : ∀ c, p.skipWhen = some c →
      SkipCondition.reader Json.dialect c.encode = .ok c ∧ c.encode ≠ .null := by
    intro c hc
    obtain ⟨d, v, hread⟩ := h.skipWhen c hc
    exact ⟨SkipCondition.reader_encode hread (hwhole c hc), nofun⟩
  have hdepends : Reader.listOf .text Json.dialect (.list (p.dependsOn.map .text)) =
      .ok p.dependsOn :=
    Reader.listOf_map fun _ _ => rfl
  have hoperations : p.operations.isEmpty = true → p.operations = {} := by
    intro hempty
    exact congrArg Operations.mk (List.isEmpty_iff.mp hempty)
  apply Schema.read_of_readsInOrder (by decide)
  rw [← List.append_nil (if p.operations.isEmpty then [] else _)]
  simp only [List.append_assoc]
  exact .of_entry rfl <|
    .of_optionalEntry hskip rfl <|
    .of_entryUnless hdepends (fun hempty => by rw [List.isEmpty_iff.mp hempty]; rfl) <|
    .of_optionalEntry (fun c _ => ⟨c.reader_encode, nofun⟩) rfl <|
    .of_optionalEntry (fun m _ => ⟨m.reader_encode, nofun⟩) rfl <|
    .of_entryUnless (Operations.reader_encode h.operations)
      (fun hempty => by rw [hoperations hempty]; rfl) .nil

end Phase

/-! ## What is written is exact -/

section Written

open Json

variable {room : ℕ}

theorem Phase.isExact_encode {p : Phase} (h : p.IsStored (room + 1))
    (hfloat : ∀ e ∈ p.operations.entries, e.2.HasNoFloat) : IsExact (room + 3) p.encode := by
  simp only [encode, isExact_table, List.forall_mem_append, forall_mem_optionalEntry,
    forall_mem_entryUnless, List.forall_mem_singleton]
  refine ⟨⟨⟨⟨⟨isExact_text _, fun c _ => SkipForm.isExact_encode _⟩, fun _ => ?_⟩, fun c _ => ?_⟩,
    fun m _ => isExact_text _⟩, fun _ => ?_⟩
  · simp
  · simp [RunIf.encode]
  · exact isExact_table.mpr fun e he => ⟨h.operations.fits e he, hfloat e he⟩

end Written

/-! ## Policies -/

namespace Policy

variable {p : Policy} {d : Dialect} {v : Value} {room : ℕ}

/-- What is known of a policy that was read. -/
structure IsStored (room : ℕ) (p : Policy) : Prop where
  schemaVersion : ∀ n ∈ p.schemaVersion, n < UInt32.size
  phases : ∀ phase ∈ p.phases, phase.IsStored room

theorem isStored_of_reader (h : reader d v = .ok p) (hv : Json.Fits (room + 4) v) :
    p.IsStored room := by
  refine Schema.read_induction h ⟨by simp [schema], by simp [schema]⟩ ?_
  simp only [schema, List.forall_mem_cons, List.not_mem_nil, false_implies, implies_true, and_true]
  refine ⟨?schemaVersion, ?config, ?phases⟩
  case schemaVersion =>
    refine Field.keeps_of fun u _ a o ha hread => ⟨?_, ha.phases⟩
    rintro n ⟨⟩
    obtain ⟨-, hnone⟩ | ⟨_, hnat, hsome⟩ := Reader.optional_eq_ok hread
    · cases hnone
    · cases hsome
      exact Reader.lt_of_natBelow hnat
  case config => exact Field.keeps_of fun _ _ _ _ ha _ => ⟨ha.schemaVersion, ha.phases⟩
  case phases =>
    refine Field.keeps_of fun u hu a phases ha hread => ⟨ha.schemaVersion, ?_⟩
    obtain ⟨vs, hplain, -, hphases⟩ := Reader.exists_of_listOf hread
    have hlist := hv.of_mem_contents hu
    intro phase hphase
    obtain ⟨w, hw, hread⟩ := hphases phase hphase
    have hcontents : w ∈ u.contents := by
      rw [Value.contents, hplain]
      exact hw
    exact Phase.isStored_of_reader hread (hlist.of_mem_contents hcontents)

/-- Every duration to which a skip condition of the policy compares is of whole seconds. -/
def HasWholeDurations (p : Policy) : Prop :=
  ∀ phase ∈ p.phases, ∀ c ∈ phase.skipWhen, ∀ q ∈ c.predicates, q.HasWholeDuration

/-- No payload of the policy has a floating-point number. -/
def HasNoFloat (p : Policy) : Prop :=
  ∀ phase ∈ p.phases, ∀ e ∈ phase.operations.entries, e.2.HasNoFloat

theorem settings_read_encode (m : Option ErrorMode) :
    settings.read Json.dialect (.table (optionalEntry "on_error" ErrorMode.encode m)) = .ok m := by
  apply Schema.read_of_readsInOrder (by decide)
  rw [← List.append_nil (optionalEntry "on_error" _ m)]
  exact .of_optionalEntry (fun m _ => ⟨m.reader_encode, nofun⟩) rfl .nil

/-- A policy that was read is read back when its durations are of whole seconds. -/
theorem reader_encode (h : p.IsStored room) (hwhole : p.HasWholeDurations) :
    reader Json.dialect p.encode = .ok p := by
  have hphases : Reader.listOf Phase.reader Json.dialect (.list (p.phases.map Phase.encode)) =
      .ok p.phases :=
    Reader.listOf_map fun phase hphase =>
      Phase.reader_encode (h.phases phase hphase) (hwhole phase hphase)
  apply Schema.read_of_readsInOrder (by decide)
  have hversion : ∀ n, p.schemaVersion = some n →
      Reader.natBelow UInt32.size "u32" Json.dialect (.int n) = .ok n ∧ Value.int n ≠ .null :=
    fun n hn => ⟨Reader.natBelow_natCast (h.schemaVersion n hn), nofun⟩
  exact .of_optionalEntry hversion rfl <|
    .of_entry (settings_read_encode p.onError) <|
    .of_entry hphases .nil

theorem isExact_encode (h : p.IsStored (room + 1)) (hfloat : p.HasNoFloat) :
    Json.IsExact (room + 5) p.encode := by
  simp only [encode, Json.isExact_table, List.forall_mem_append, forall_mem_optionalEntry,
    List.forall_mem_cons, List.not_mem_nil, false_implies, implies_true, and_true]
  refine ⟨fun n hn => ?_, ?_, ?_⟩
  · have hlt : n < UInt32.size := h.schemaVersion n hn
    exact Json.isExact_int.mpr (Json.isInteger64_natCast (hlt.trans (by decide)))
  · exact fun m _ => Json.isExact_text _
  · simp only [Json.isExact_list, List.forall_mem_map]
    exact fun phase hphase => Phase.isExact_encode (h.phases phase hphase) (hfloat phase hphase)

/-- A policy that was accepted is accepted again as it is, from what is written for it, when no
payload has a floating-point number and its durations are of whole seconds. -/
theorem parse_toJson {text : String} (h : parse .json text = .ok p) (hfloat : p.HasNoFloat)
    (hwhole : p.HasWholeDurations) : parse .json p.toJson = .ok p := by
  obtain ⟨v, hv, hread, hvalid⟩ := parse_json_eq_ok_iff.mp h
  have hstored : p.IsStored 123 := isStored_of_reader hread (Json.fits_of_read hv)
  have hexact : Json.IsExact Json.nestingLimit p.encode := isExact_encode hstored hfloat
  have hback : Json.read p.toJson = some p.encode := Json.read_pretty hexact
  exact parse_json_eq_ok_iff.mpr ⟨p.encode, hback, reader_encode hstored hwhole, hvalid⟩

/-- A document in which a payload is not sorted, a name is not trimmed, thresholds stand in units
of their own and an error mode goes by its other name. -/
def longFilms : Value :=
  .table [("phases", .list [
    .table [("operations", .table [("speed", .int 2), ("preset", .text "slow")]),
      ("name", .text "cut")],
    .table [("name", .text "mix"), ("depends_on", .list [.text "cut", .text "cut"]),
      ("run_if", .table [("phase_modified", .text "cut")]),
      ("skip_when", .table [("duration_under", .text "90 M"),
        ("video_codec", .list [.text " hevc "]), ("file_size_over", .text "0.5GB"),
        ("mode", .text "all")]),
      ("on_error", .text "fail")]])]

/-- The policy of that document. -/
def longFilmsPolicy : Policy where
  phases := [
    { name := "cut", operations := ⟨[("preset", .text "slow"), ("speed", .int 2)]⟩ },
    { name := "mix"
      dependsOn := ["cut", "cut"]
      runIf := some ⟨.modified, "cut"⟩
      skipWhen := some {
        predicates := [.videoCodec ["hevc"], .fileSizeOver ⟨1 <<< 29, by decide⟩,
          .durationUnder ⟨5400, 0, by decide, Nat.succ_pos _⟩]
        mode := .all }
      onError := some .stop }]

theorem parse_pretty_longFilms : parse .json (Json.pretty longFilms) = .ok longFilmsPolicy := by
  have hexact : Json.IsExact Json.nestingLimit longFilms := by
    simp [longFilms, Json.nestingLimit, Json.IsInteger64]
  have hreader : reader Json.dialect longFilms = .ok longFilmsPolicy := by
    with_unfolding_all rfl
  exact parse_json_eq_ok_iff.mpr ⟨longFilms, Json.read_pretty hexact, hreader, rfl⟩

theorem parse_toJson_longFilms : parse .json longFilmsPolicy.toJson = .ok longFilmsPolicy := by
  have hfloat : longFilmsPolicy.HasNoFloat := by
    simp only [HasNoFloat, longFilmsPolicy, List.forall_mem_cons, List.not_mem_nil, false_implies,
      implies_true, and_true]
    exact ⟨Value.hasNoFloat_text _, Value.hasNoFloat_int _⟩
  have hwhole : longFilmsPolicy.HasWholeDurations := by
    have hduration : Timespan.IsWhole ⟨5400, 0, by decide, Nat.succ_pos _⟩ :=
      ⟨rfl, by decide⟩
    simpa [HasWholeDurations, longFilmsPolicy, Predicate.HasWholeDuration] using hduration
  exact parse_toJson parse_pretty_longFilms hfloat hwhole

end Policy

end MediaPhases
