import MediaPhases.Outcome.Document
import MediaPhases.Proofs.Document.Json.RoundTrip
import MediaPhases.Proofs.Document.Reordering

/-!
# Results read back

The results of phases are read back from what is written for them, and reading does not depend on
the order of entries in any table, nor on where in a skip reason its tag stands.  The tag of a
reason says how to read the other entries, which are held until it is known; what is held is the
table without its tag.
-/

namespace MediaPhases

variable {d : Dialect} {P : List (String × Value) → Prop} {v w : Value}

theorem Json.isUnordered_taggedDialect : Json.taggedDialect.IsUnordered P where
  single _ _ := rfl
  several entries c hlength hchoice := by
    match entries, hchoice with
    | [_], _ => exact absurd rfl hlength
  list _ _ := nofun
  noContent v w h := by
    cases h with
    | @here entries entries' _ h =>
        cases entries with
        | nil =>
            obtain rfl := List.nil_perm.mp h
            exact .refl _
        | cons e entries =>
            cases entries' with
            | nil => exact absurd h.length_eq (by simp)
            | cons e' entries' => exact .of_refused nofun nofun
    | item _ => exact .of_refused nofun nofun
    | @entry before after key v w h =>
        cases before <;> exact .of_refused nofun nofun

theorem Outcome.unordered_reader (hd : d.IsUnordered P) : reader.Unordered P d :=
  Reader.unordered_oneOf hd _

theorem Requirement.unordered_reader (hd : d.IsUnordered P) : reader.Unordered P d :=
  Reader.unordered_oneOf hd _

namespace SkipReason

open Reader

variable {entries held rest : List (String × Value)} {read : Value → Except Fault SkipReason}
  {r : SkipReason}

/-! ## The tag of a reason -/

/-- An entry that is held: it is not the tag, and it states something. -/
def IsHeld (e : String × Value) : Prop :=
  e.1 ≠ "type" ∧ e.2.isReadable = true

/-- After the tag all entries are held. -/
theorem splitTag_some_eq_ok_iff {tag : Value → Except Fault SkipReason} :
    splitTag entries (some tag) held = .ok (read, rest) ↔
      (∀ e ∈ entries, IsHeld e) ∧ read = tag ∧ rest = held.reverse ++ entries := by
  induction entries generalizing held with
  | nil =>
      rw [splitTag]
      simp [eq_comm]
  | cons e entries ih =>
      obtain ⟨key, u⟩ := e
      rw [splitTag, List.forall_mem_cons]
      by_cases hkey : key = "type"
      · simp [hkey, IsHeld]
      · by_cases hreadable : u.isReadable = true
        · have hheld : IsHeld (key, u) := ⟨hkey, hreadable⟩
          simp [hkey, hreadable, hheld, ih]
        · simp [hkey, hreadable, IsHeld]

/-- The tag is the first entry or stands among the others. -/
theorem exists_tag_cons_iff {key : String} {u : Value}
    {Q : List (String × Value) → Value → List (String × Value) → Prop} :
    (∃ before tag after, (key, u) :: entries = before ++ ("type", tag) :: after ∧
      Q before tag after) ↔
      (key = "type" ∧ Q [] u entries) ∨
        ∃ before tag after, entries = before ++ ("type", tag) :: after ∧
          Q ((key, u) :: before) tag after := by
  constructor
  · rintro ⟨before, tag, after, hsplit, hQ⟩
    cases before with
    | nil =>
        cases hsplit
        exact .inl ⟨rfl, hQ⟩
    | cons e before =>
        cases hsplit
        exact .inr ⟨before, tag, after, rfl, hQ⟩
  · rintro (⟨rfl, hQ⟩ | ⟨before, tag, after, rfl, hQ⟩)
    · exact ⟨[], u, entries, rfl, hQ⟩
    · exact ⟨(key, u) :: before, tag, after, rfl, hQ⟩

/-- The tag stands anywhere among the entries of a reason, and the others are held in order. -/
theorem splitTag_none_eq_ok_iff :
    splitTag entries none held = .ok (read, rest) ↔
      ∃ before tag after, entries = before ++ ("type", tag) :: after ∧
        (∀ e ∈ before ++ after, IsHeld e) ∧ readTag tag = .ok read ∧
        rest = held.reverse ++ (before ++ after) := by
  induction entries generalizing held with
  | nil => simp [splitTag]
  | cons e entries ih =>
      obtain ⟨key, u⟩ := e
      rw [splitTag, exists_tag_cons_iff]
      by_cases hkey : key = "type"
      · subst hkey
        have hlater : ¬ ∃ before tag after, entries = before ++ ("type", tag) :: after ∧
            (∀ e ∈ (("type", u) :: before) ++ after, IsHeld e) ∧ readTag tag = .ok read ∧
            rest = held.reverse ++ ((("type", u) :: before) ++ after) := by
          rintro ⟨before, tag, after, -, hheld, -⟩
          exact (hheld _ List.mem_cons_self).1 rfl
        cases hread : readTag u with
        | error fault =>
            simp only [if_pos, hlater, or_false, reduceCtorEq, false_and, and_false]
        | ok found =>
            simp only [if_pos, splitTag_some_eq_ok_iff, hlater, or_false, true_and,
              List.nil_append, Except.ok.injEq]
            exact and_congr_right fun _ => and_congr_left fun _ => eq_comm
      · by_cases hreadable : u.isReadable = true
        · have hheld : IsHeld (key, u) := ⟨hkey, hreadable⟩
          simp [hkey, hreadable, hheld, ih]
        · have hnot : ¬ IsHeld (key, u) := fun h => hreadable h.2
          simp [hkey, hreadable, hnot]

/-- A reason is read by what its tag names, from the other entries in order. -/
theorem reader_table_eq_ok_iff :
    reader d (.table entries) = .ok r ↔
      ∃ before tag after read, entries = before ++ ("type", tag) :: after ∧
        (∀ e ∈ before ++ after, IsHeld e) ∧ readTag tag = .ok read ∧
        read (.table (before ++ after)) = .ok r := by
  have hsplit : reader d (.table entries) = .ok r ↔
      ∃ x, splitTag entries none [] = .ok x ∧ x.1 (.table x.2) = .ok r := bind_eq_ok_iff
  rw [hsplit]
  constructor
  · rintro ⟨⟨read, held⟩, hheld, hread⟩
    obtain ⟨before, tag, after, rfl, hall, htag, rfl⟩ := splitTag_none_eq_ok_iff.mp hheld
    exact ⟨before, tag, after, read, rfl, hall, htag, hread⟩
  · rintro ⟨before, tag, after, read, rfl, hall, htag, hread⟩
    exact ⟨(read, before ++ after),
      splitTag_none_eq_ok_iff.mpr ⟨before, tag, after, rfl, hall, htag, rfl⟩, hread⟩

theorem reader_list_eq_ok_iff {vs : List Value} :
    reader d (.list vs) = .ok r ↔
      ∃ tag rest read, vs = tag :: rest ∧ readTag tag = .ok read ∧
        Value.areReadable rest = true ∧ read (.list rest) = .ok r := by
  cases vs with
  | nil => simp [reader]
  | cons tag rest =>
      have hread : reader d (.list (tag :: rest)) = .ok r ↔
          ∃ read, readTag tag = .ok read ∧
            (if Value.areReadable rest then read (.list rest) else .error .malformed) = .ok r :=
        bind_eq_ok_iff
      rw [hread]
      constructor
      · rintro ⟨read, htag, h⟩
        split at h
        · rename_i hreadable
          exact ⟨tag, rest, read, rfl, htag, hreadable, h⟩
        · cases h
      · rintro ⟨_, _, read, hvs, htag, hreadable, h⟩
        cases hvs
        exact ⟨read, htag, by rw [if_pos hreadable, h]⟩

/-- A tag is a text, and names one of the readers. -/
theorem exists_of_readTag (h : readTag v = .ok read) :
    ∃ s, v = .text s ∧ (s, read) ∈ readers := by
  cases v with
  | text s =>
      rw [readTag] at h
      cases hlookup : readers.lookup s with
      | none =>
          simp only [hlookup] at h
          cases h
      | some found =>
          simp only [hlookup] at h
          cases h
          obtain ⟨before, after, hsplit, -⟩ := List.lookup_eq_some_iff.mp hlookup
          exact ⟨s, rfl, by rw [hsplit]; simp⟩
  | _ => cases h

/-! ## The order of entries -/

theorem unordered_conditionSchema : conditionSchema.read.Unordered P d := by
  apply Schema.unordered_read
  · simp only [conditionSchema, List.forall_mem_cons, List.not_mem_nil, false_implies,
      implies_true, and_true]
    exact ⟨Field.unordered_of unordered_text, Field.unordered_of unordered_text,
      Field.unordered_of unordered_text.optional⟩
  · simp only [conditionSchema, List.pairwise_cons, List.forall_mem_cons, List.not_mem_nil,
      false_implies, implies_true, and_true, List.Pairwise.nil]
    and_intros
    all_goals exact Field.commute_of fun _ _ _ => rfl

theorem unordered_dependencySchema (hd : d.IsUnordered P) :
    dependencySchema.read.Unordered P d := by
  apply Schema.unordered_read
  · simp only [dependencySchema, List.forall_mem_cons, List.not_mem_nil, false_implies,
      implies_true, and_true]
    exact ⟨Field.unordered_of unordered_text, Field.unordered_of (Outcome.unordered_reader hd)⟩
  · exact List.pairwise_pair.mpr (Field.commute_of fun _ _ _ => rfl)

theorem unordered_runIfSchema (hd : d.IsUnordered P) : runIfSchema.read.Unordered P d := by
  apply Schema.unordered_read
  · simp only [runIfSchema, List.forall_mem_cons, List.not_mem_nil, false_implies,
      implies_true, and_true]
    exact ⟨Field.unordered_of unordered_text,
      Field.unordered_of (Requirement.unordered_reader hd),
      Field.unordered_of (Outcome.unordered_reader hd)⟩
  · simp only [runIfSchema, List.pairwise_cons, List.forall_mem_cons, List.not_mem_nil,
      false_implies, implies_true, and_true, List.Pairwise.nil]
    and_intros
    all_goals exact Field.commute_of fun _ _ _ => rfl

theorem unordered_errorSchema : errorSchema.read.Unordered P d := by
  apply Schema.unordered_read
  · simp only [errorSchema, List.forall_mem_singleton]
    exact Field.unordered_of unordered_text
  · exact List.pairwise_singleton _ _

/-- What the tag names does not depend on the order of the other entries. -/
theorem agree_of_mem_readers {name : String} (hread : (name, read) ∈ readers)
    (h : Value.Reorders P v w) : Agree (read v) (read w) := by
  have hd := Json.isUnordered_taggedDialect (P := P)
  simp only [readers, List.mem_cons, Prod.mk.injEq, List.not_mem_nil, or_false] at hread
  obtain ⟨-, rfl⟩ | ⟨-, rfl⟩ | ⟨-, rfl⟩ | ⟨-, rfl⟩ := hread
  · exact (unordered_conditionSchema v w h).map _
  · exact (unordered_dependencySchema hd v w h).map _
  · exact (unordered_runIfSchema hd v w h).map _
  · exact (unordered_errorSchema v w h).map _

/-- A reason whose entries are in another order is the same reason. -/
theorem reader_of_perm {entries' : List (String × Value)} (h : entries.Perm entries')
    (hread : reader d (.table entries) = .ok r) : reader d (.table entries') = .ok r := by
  rw [reader_table_eq_ok_iff] at hread ⊢
  obtain ⟨before, tag, after, read, rfl, hheld, htag, hread⟩ := hread
  have hmem : ("type", tag) ∈ entries' := h.mem_iff.mp (by simp)
  obtain ⟨before', after', rfl⟩ := List.append_of_mem hmem
  have hperm : (before ++ after).Perm (before' ++ after') := by
    have hfront := List.perm_middle.symm.trans (h.trans List.perm_middle)
    exact hfront.cons_inv
  obtain ⟨s, -, hmem⟩ := exists_of_readTag htag
  have hagree := agree_of_mem_readers hmem (.here (P := fun _ => True) trivial hperm)
  refine ⟨before', tag, after', read, rfl, fun e he => hheld e (hperm.mem_iff.mpr he), htag, ?_⟩
  exact (hagree r).mp hread

/-- A reason with a reordered value is the same reason. -/
theorem reader_of_replace (h : Value.Reorders P v w) {front back : List (String × Value)}
    {key : String} (hread : reader d (.table (front ++ (key, v) :: back)) = .ok r) :
    reader d (.table (front ++ (key, w) :: back)) = .ok r := by
  rw [reader_table_eq_ok_iff] at hread ⊢
  obtain ⟨before, tag, after, read, hsplit, hheld, htag, hread⟩ := hread
  obtain ⟨s, rfl, hmem⟩ := exists_of_readTag htag
  have hheld' : IsHeld (key, v) → IsHeld (key, w) := fun hv => ⟨hv.1, h.isReadable_eq ▸ hv.2⟩
  have hne : v ≠ .text s := by
    rintro rfl
    cases h
  obtain ⟨between, rfl, hback⟩ | ⟨between, rfl, hafter⟩ := List.append_eq_append_iff.mp hsplit
  · -- the value stands before the tag
    cases between with
    | nil =>
        cases hback
        exact absurd rfl hne
    | cons e between =>
        cases hback
        have hagree := agree_of_mem_readers hmem
          (@Value.Reorders.entry P front (between ++ after) key v w h)
        refine ⟨front ++ (key, w) :: between, .text s, after, read, by simp, ?_, htag, ?_⟩
        · simp only [List.forall_mem_append, List.forall_mem_cons] at hheld ⊢
          exact hheld.imp_left (.imp_right (.imp_left hheld'))
        · simp only [List.append_assoc, List.cons_append] at hread ⊢
          exact (hagree r).mp hread
  · -- the value stands after the tag
    cases between with
    | nil =>
        cases hafter
        exact absurd rfl hne
    | cons e between =>
        rw [List.cons_append, List.cons.injEq] at hafter
        obtain ⟨rfl, rfl⟩ := hafter
        have hagree := agree_of_mem_readers hmem
          (@Value.Reorders.entry P (before ++ between) back key v w h)
        refine ⟨before, .text s, between ++ (key, w) :: back, read, by simp, ?_, htag, ?_⟩
        · simp only [List.forall_mem_append, List.forall_mem_cons] at hheld ⊢
          exact hheld.imp_right (.imp_right (.imp_left hheld'))
        · rw [List.append_assoc, List.append_assoc] at hagree
          exact (hagree r).mp hread

theorem reader_of_replace_item (h : Value.Reorders P v w) {before after : List Value}
    (hread : reader d (.list (before ++ v :: after)) = .ok r) :
    reader d (.list (before ++ w :: after)) = .ok r := by
  rw [reader_list_eq_ok_iff] at hread ⊢
  obtain ⟨tag, rest, read, hsplit, htag, hreadable, hread⟩ := hread
  obtain ⟨s, rfl, hmem⟩ := exists_of_readTag htag
  cases before with
  | nil =>
      cases hsplit
      cases h
  | cons u before =>
      cases hsplit
      have hitem := @Value.Reorders.item P before after v w h
      have hreadable' := hitem.isReadable_eq
      simp only [Value.isReadable] at hreadable'
      refine ⟨.text s, before ++ w :: after, read, rfl, htag, hreadable' ▸ hreadable, ?_⟩
      exact (agree_of_mem_readers hmem hitem r).mp hread

/-- A reason depends neither on the order of its entries nor on where its tag stands. -/
theorem unordered_reader : reader.Unordered (fun _ => True) d := by
  intro v w h
  cases h with
  | here _ hperm => exact fun r => ⟨reader_of_perm hperm, reader_of_perm hperm.symm⟩
  | item h => exact fun r => ⟨reader_of_replace_item h, reader_of_replace_item h.symm⟩
  | entry h => exact fun r => ⟨reader_of_replace h, reader_of_replace h.symm⟩

/-! ## Reasons read back -/

theorem reader_encode (r : SkipReason) : reader d r.encode = .ok r := by
  cases r with
  | condition name value detail => cases detail <;> rfl
  | dependency name outcome => cases outcome <;> rfl
  | runIf phase requirement outcome => cases requirement <;> cases outcome <;> rfl
  | errorMode error => rfl

end SkipReason

theorem Outcome.reader_encode (o : Outcome) : reader Json.dialect o.encode = .ok o := by
  cases o <;> rfl

namespace PhaseResult

open Reader

variable {r : PhaseResult} {room : ℕ}

/-- A result depends neither on the order of entries nor on where the tag of its reason stands. -/
theorem unordered_reader (hd : d.IsUnordered fun _ => True) :
    reader.Unordered (fun _ => True) d := by
  apply Schema.unordered_read
  · simp only [schema, List.forall_mem_cons, List.not_mem_nil, false_implies, implies_true,
      and_true]
    exact ⟨Field.unordered_of unordered_text,
      Field.unordered_of (Outcome.unordered_reader hd),
      Field.unordered_of unordered_bool,
      Field.unordered_of SkipReason.unordered_reader.optional,
      Field.unordered_of unordered_text.optional,
      Field.unordered_of unordered_text.listOf,
      Field.unordered_of unordered_text.optional,
      Field.unordered_of unordered_natBelow⟩
  · simp only [schema, List.pairwise_cons, List.forall_mem_cons, List.not_mem_nil, false_implies,
      implies_true, and_true, List.Pairwise.nil]
    and_intros
    all_goals exact Field.commute_of fun _ _ _ => rfl

/-- A result is read back when its duration is a number of 64 bits. -/
theorem reader_encode (h : r.durationMs < UInt64.size) :
    reader Json.dialect r.encode = .ok r := by
  have hoperations : listOf .text Json.dialect (.list (r.operations.map .text)) =
      .ok r.operations :=
    listOf_map fun _ _ => rfl
  apply Schema.read_of_readsInOrder (by decide)
  simp only [List.append_assoc, List.cons_append, List.nil_append]
  exact .of_entry rfl <|
    .of_entry r.outcome.reader_encode <|
    .of_entry rfl <|
    .of_optionalEntry (fun s _ => ⟨s.reader_encode, nofun⟩) rfl <|
    .of_optionalEntry (fun _ _ => ⟨rfl, nofun⟩) rfl <|
    .of_entryUnless hoperations (fun hempty => by rw [List.isEmpty_iff.mp hempty]; rfl) <|
    .of_optionalEntry (fun _ _ => ⟨rfl, nofun⟩) rfl <|
    .of_entry (natBelow_natCast h) .nil

/-! ## Documents of results -/

theorem isExact_encode_skipReason (s : SkipReason) : Json.IsExact (room + 1) s.encode := by
  cases s with
  | condition name value detail => cases detail <;> simp [SkipReason.encode, optionalEntry]
  | dependency name outcome => simp [SkipReason.encode, Outcome.encode]
  | runIf phase requirement outcome => simp [SkipReason.encode, Outcome.encode]
  | errorMode error => simp [SkipReason.encode]

theorem isExact_encode (h : r.durationMs < UInt64.size) : Json.IsExact (room + 2) r.encode := by
  simp only [encode, Json.isExact_table, List.forall_mem_append, forall_mem_optionalEntry,
    forall_mem_entryUnless, List.forall_mem_cons, List.not_mem_nil, false_implies, implies_true,
    and_true]
  refine ⟨⟨⟨⟨⟨⟨?_, ?_, ?_⟩, ?_⟩, ?_⟩, ?_⟩, ?_⟩, ?_⟩
  · simp
  · simp [Outcome.encode]
  · simp
  · exact fun s _ => isExact_encode_skipReason s
  · simp
  · simp
  · simp
  · exact Json.isExact_int.mpr (Json.isInteger64_natCast h)

theorem decodeAll_eq_ok_iff {text : String} (h : Json.scan text = some v)
    {rs : List PhaseResult} :
    decodeAll text = .ok rs ↔ listOf reader Json.dialect v = .ok rs := by
  rw [decodeAll, Json.decode, h]
  cases hread : listOf reader Json.dialect v with
  | error fault => simp [hread]
  | ok rs' => simp [hread]

/-- Results whose durations are numbers of 64 bits are read back from what is written for them,
with and without indentation, and from every text in which the entries of tables stand in another
order.  Reading gives the same for any two documents that differ in the order of entries only. -/
theorem decodeAll_reordered :
    (∀ rs : List PhaseResult, (∀ r ∈ rs, r.durationMs < UInt64.size) →
      decodeAll (Json.compact (encodeAll rs)) = .ok rs ∧
      decodeAll (Json.pretty (encodeAll rs)) = .ok rs ∧
      ∀ text v, Json.scan text = some v → Value.Reordered (encodeAll rs) v →
        decodeAll text = .ok rs) ∧
    ∀ s t v w, Json.scan s = some v → Json.scan t = some w → Value.Reordered v w →
      ∀ rs, decodeAll s = .ok rs ↔ decodeAll t = .ok rs := by
  have hreordered : ∀ s t v w, Json.scan s = some v → Json.scan t = some w →
      Value.Reordered v w → ∀ rs, decodeAll s = .ok rs ↔ decodeAll t = .ok rs := by
    intro s t v w hs ht h rs
    rw [decodeAll_eq_ok_iff hs, decodeAll_eq_ok_iff ht]
    exact (unordered_reader Json.isUnordered_dialect).listOf.agree h rs
  refine ⟨fun rs hrs => ?_, hreordered⟩
  have hexact : Json.IsExact Json.nestingLimit (encodeAll rs) := by
    refine Json.isExact_list.mpr fun v hv => ?_
    obtain ⟨r, hr, rfl⟩ := List.mem_map.mp hv
    exact isExact_encode (hrs r hr)
  have hread : listOf reader Json.dialect (encodeAll rs) = .ok rs :=
    listOf_map fun r hr => reader_encode (hrs r hr)
  have hcompact := Json.scan_compact hexact
  have hpretty := Json.scan_pretty hexact
  refine ⟨(decodeAll_eq_ok_iff hcompact).mpr hread, (decodeAll_eq_ok_iff hpretty).mpr hread, ?_⟩
  intro text v hscan h
  have hback := (decodeAll_eq_ok_iff hcompact).mpr hread
  exact (hreordered _ text _ v hcompact hscan h rs).mp hback

/-- A result that was skipped for a run-if condition on a phase with a control character in its
name, and that took as long as can be counted. -/
def skippedResult : PhaseResult where
  phase := "größe"
  outcome := .skipped
  skipReason := some (.runIf "mix\x07" .modified .pending)
  durationMs := UInt64.size - 1

/-- The document of the result with the tag of its reason after the other entries. -/
def tagLast : Value :=
  .list [.table [("phase", .text "größe"), ("outcome", .text "skipped"),
    ("file_modified", .bool false),
    ("skip_reason", .table [("phase", .text "mix\x07"), ("requirement", .text "modified"),
      ("outcome", .text "pending"), ("type", .text "run_if")]),
    ("duration_ms", .int (UInt64.size - 1 : ℕ))]]

theorem decodeAll_tagLast : decodeAll (Json.pretty tagLast) = .ok [skippedResult] := by
  have hexact : Json.IsExact Json.nestingLimit tagLast := by
    simp [tagLast, Json.nestingLimit, Json.IsInteger64]
  have hreason : Value.Reorders (fun _ => True)
      (.table [("type", .text "run_if"), ("phase", .text "mix\x07"),
        ("requirement", .text "modified"), ("outcome", .text "pending")])
      (.table [("phase", .text "mix\x07"), ("requirement", .text "modified"),
        ("outcome", .text "pending"), ("type", .text "run_if")]) :=
    .here trivial (@List.perm_append_comm _ [_] _)
  have hreordered : Value.Reordered (encodeAll [skippedResult]) tagLast := by
    apply Relation.ReflTransGen.single
    apply @Value.Reorders.item _ [] []
    exact @Value.Reorders.entry _ [_, _, _] [_] "skip_reason" _ _ hreason
  have hduration : ∀ r ∈ [skippedResult], r.durationMs < UInt64.size := by
    simp [skippedResult]
  exact (decodeAll_reordered.1 _ hduration).2.2 _ _ (Json.scan_pretty hexact) hreordered

end PhaseResult

end MediaPhases
