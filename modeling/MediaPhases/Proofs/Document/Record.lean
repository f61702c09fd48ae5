import MediaPhases.Document.Reader
import Mathlib.Data.List.Forall2
import Mathlib.Data.List.Nodup

/-!
# Records read from documents

What it means that a reader has accepted a value, for each way of putting readers together, and
three facts about records.  What every field keeps true is true of the record that is read.  A
table that a closed schema accepts has only keys of the schema, none of them twice.  Entries that
stand in the order of the fields are read as they stand.
-/

namespace MediaPhases

variable {α β : Type} {d : Dialect} {v : Value}

theorem map_eq_ok_iff {ε : Type} {x : Except ε α} {f : α → β} {b : β} :
    x.map f = .ok b ↔ ∃ a, x = .ok a ∧ f a = b := by
  cases x with
  | error e =>
      constructor
      · intro h
        cases h
      · rintro ⟨_, h, -⟩
        cases h
  | ok a =>
      constructor
      · intro h
        cases h
        exact ⟨a, rfl, rfl⟩
      · rintro ⟨_, h, rfl⟩
        cases h
        rfl

theorem bind_eq_ok_iff {ε : Type} {x : Except ε α} {f : α → Except ε β} {b : β} :
    x >>= f = .ok b ↔ ∃ a, x = .ok a ∧ f a = .ok b := by
  cases x with
  | error e =>
      constructor
      · intro h
        cases h
      · rintro ⟨_, h, -⟩
        cases h
  | ok a =>
      constructor
      · intro h
        exact ⟨a, rfl, h⟩
      · rintro ⟨_, h, hf⟩
        cases h
        exact hf

theorem mapError_eq_ok_iff {ε ε' : Type} {x : Except ε α} {f : ε → ε'} {a : α} :
    x.mapError f = .ok a ↔ x = .ok a := by
  cases x with
  | error e =>
      constructor
      · intro h
        cases h
      · intro h
        cases h
  | ok b => rw [Except.mapError, Except.ok.injEq, Except.ok.injEq]

theorem mapError_eq_error_iff {ε ε' : Type} {x : Except ε α} {f : ε → ε'} {e : ε'} :
    x.mapError f = .error e ↔ ∃ fault, x = .error fault ∧ f fault = e := by
  cases x with
  | error fault => simp [Except.mapError]
  | ok a => simp [Except.mapError]

/-! ## Readers -/

namespace Reader

variable {r : Reader α}

theorem lt_of_natBelow {limit n : ℕ} {want : String} (h : natBelow limit want d v = .ok n) :
    n < limit := by
  cases v with
  | int m =>
      rw [natBelow] at h
      split at h
      · rename_i hrange
        cases h
        omega
      · cases h
  | _ => cases h

theorem natBelow_natCast {limit n : ℕ} {want : String} (h : n < limit) :
    natBelow limit want d (.int n) = .ok n := by
  have hrange : (0 : Int) ≤ n ∧ (n : Int) < limit := by omega
  rw [natBelow, if_pos hrange, Int.toNat_natCast]

theorem optional_eq_ok {o : Option α} (h : optional r d v = .ok o) :
    (v = .null ∧ o = none) ∨ ∃ a, r d v = .ok a ∧ o = some a := by
  by_cases hnull : v = .null
  · subst hnull
    cases h
    exact .inl ⟨rfl, rfl⟩
  · rw [optional] at h
    · obtain ⟨a, hread, rfl⟩ := map_eq_ok_iff.mp h
      exact .inr ⟨a, hread, rfl⟩
    · exact hnull

theorem optional_eq_some {a : α} (h : r d v = .ok a) (hnull : v ≠ .null) :
    optional r d v = .ok (some a) := by
  rw [optional]
  · exact map_eq_ok_iff.mpr ⟨a, h, rfl⟩
  · exact hnull

/-- The items of a list are read one by one. -/
theorem items_eq_ok_iff {vs : List Value} {as : List α} :
    items r d vs = .ok as ↔ List.Forall₂ (fun v a => r d v = .ok a) vs as := by
  induction vs generalizing as with
  | nil =>
      rw [items, List.forall₂_nil_left_iff, Except.ok.injEq]
      exact eq_comm
  | cons v vs ih =>
      rw [items, bind_eq_ok_iff, List.forall₂_cons_left_iff]
      constructor
      · rintro ⟨a, hv, h⟩
        obtain ⟨rest, hrest, heq⟩ := bind_eq_ok_iff.mp h
        cases heq
        exact ⟨a, rest, hv, ih.mp hrest, rfl⟩
      · rintro ⟨a, rest, hv, hrest, rfl⟩
        exact ⟨a, hv, bind_eq_ok_iff.mpr ⟨rest, ih.mpr hrest, rfl⟩⟩

/-- Every item of a list that is read gives one of the results, and the other way round. -/
theorem exists_of_listOf {as : List α} (h : listOf r d v = .ok as) :
    ∃ vs, v.plain = .list vs ∧ (∀ u ∈ vs, ∃ a ∈ as, r d u = .ok a) ∧
      ∀ a ∈ as, ∃ u ∈ vs, r d u = .ok a := by
  rw [listOf] at h
  split at h
  · rename_i vs hplain
    have hitems := items_eq_ok_iff.mp h
    refine ⟨vs, hplain, ?_, ?_⟩
    · intro u hu
      obtain ⟨i, hi, rfl⟩ := List.mem_iff_getElem.mp hu
      have hi' : i < as.length := hitems.length_eq ▸ hi
      exact ⟨as[i], List.getElem_mem hi', hitems.get hi hi'⟩
    · intro a ha
      obtain ⟨i, hi, rfl⟩ := List.mem_iff_getElem.mp ha
      have hi' : i < vs.length := hitems.length_eq ▸ hi
      exact ⟨vs[i], List.getElem_mem hi', hitems.get hi' hi⟩
  · cases h

/-- A list of written values is read back when each of them is. -/
theorem listOf_map {write : α → Value} {as : List α} (h : ∀ a ∈ as, r d (write a) = .ok a) :
    listOf r d (.list (as.map write)) = .ok as := by
  have hitems : List.Forall₂ (fun v a => r d v = .ok a) (as.map write) as := by
    rw [List.forall₂_map_left_iff, List.forall₂_same]
    exact h
  exact items_eq_ok_iff.mpr hitems

theorem checked_eq_ok_iff {check : α → Except Fault β} {b : β} :
    checked r check d v = .ok b ↔ ∃ a, r d v = .ok a ∧ check a = .ok b :=
  bind_eq_ok_iff

theorem choiceOf_eq_ok_iff {names : List String}
    {content : String → Option (Dialect → Option Value → Except Fault α)} {a : α} :
    choiceOf names content d v = .ok a ↔
      ∃ name written read, d.choice v = .ok ⟨name, written, none⟩ ∧ content name = some read ∧
        read d written = .ok a := by
  constructor
  · intro h
    obtain ⟨⟨name, written, leftover⟩, hchoice, h⟩ := bind_eq_ok_iff.mp h
    cases hcontent : content name with
    | none =>
        simp only [hcontent] at h
        cases h
    | some read =>
        simp only [hcontent] at h
        obtain ⟨b, hread, h⟩ := bind_eq_ok_iff.mp h
        cases leftover with
        | some fault => cases h
        | none =>
            cases h
            exact ⟨name, written, read, hchoice, hcontent, hread⟩
  · rintro ⟨name, written, read, hchoice, hcontent, hread⟩
    refine bind_eq_ok_iff.mpr ⟨_, hchoice, ?_⟩
    simp only [hcontent]
    exact bind_eq_ok_iff.mpr ⟨a, hread, rfl⟩

end Reader

theorem Field.store_of_eq_ok_iff {name : String} {presence : Presence} {r : Reader β}
    {put : β → α → α} {a b : α} :
    (Field.of name presence r put).store d v a = .ok b ↔ ∃ c, r d v = .ok c ∧ put c a = b :=
  map_eq_ok_iff

theorem forall_mem_optionalEntry {key : String} {write : α → Value} {o : Option α}
    {Q : String × Value → Prop} :
    (∀ e ∈ optionalEntry key write o, Q e) ↔ ∀ a ∈ o, Q (key, write a) := by
  cases o <;> simp [optionalEntry]

theorem forall_mem_entryUnless {isAbsent : Bool} {e : String × Value} {Q : String × Value → Prop} :
    (∀ f ∈ if isAbsent then [] else [e], Q f) ↔ (isAbsent = false → Q e) := by
  cases isAbsent <;> simp

/-! ## What all fields keep -/

/-- The values that a list or a table holds. -/
def Value.contents (v : Value) : List Value :=
  match v.plain with
  | .list items => items
  | .table entries => entries.map (·.2)
  | _ => []

/-- Reading the field from one of the values keeps a property of the record. -/
def Field.Keeps (f : Field α) (d : Dialect) (us : List Value) (P : α → Prop) : Prop :=
  ∀ u ∈ us, ∀ a b, P a → f.store d u a = .ok b → P b

theorem Field.keeps_of {name : String} {presence : Presence} {r : Reader β} {put : β → α → α}
    {us : List Value} {P : α → Prop} (h : ∀ u ∈ us, ∀ a c, P a → r d u = .ok c → P (put c a)) :
    (Field.of name presence r put).Keeps d us P := by
  intro u hu a b ha hstore
  obtain ⟨c, hread, rfl⟩ := store_of_eq_ok_iff.mp hstore
  exact h u hu a c ha hread

namespace Schema

variable {s : Schema α} {a b : α} {P : α → Prop}

theorem field?_eq_some {key : String} {f : Field α} (h : s.field? key = some f) :
    f ∈ s.fields ∧ f.name = key := by
  refine ⟨List.mem_of_find?_eq_some h, ?_⟩
  have hname := List.find?_some h
  exact beq_iff_eq.mp hname

theorem field?_of_mem (hnames : s.names.Nodup) {f : Field α} (hf : f ∈ s.fields) :
    s.field? f.name = some f := by
  cases hfound : s.field? f.name with
  | none =>
      have hnone := List.find?_eq_none.mp hfound f hf
      simp at hnone
  | some g =>
      obtain ⟨hg, hname⟩ := field?_eq_some hfound
      exact congrArg some (List.inj_on_of_nodup_map hnames hg hf hname)

theorem missing?_eq_none_iff {seen : List String} :
    s.missing? seen = none ↔ ∀ f ∈ s.fields, f.presence = .required → f.name ∈ seen := by
  simp [missing?, List.find?_eq_none]

/-- The ways in which a table whose first entry is given is accepted. -/
theorem readEntries_cons_eq_ok_iff {key : String} {u : Value} {rest : List (String × Value)}
    {seen : List String} :
    s.readEntries d ((key, u) :: rest) seen a = .ok b ↔
      (s.field? key = none ∧ s.isClosed = false ∧ s.readEntries d rest seen a = .ok b) ∨
      ∃ f a', s.field? key = some f ∧ key ∉ seen ∧ f.store d u a = .ok a' ∧
        s.readEntries d rest (key :: seen) a' = .ok b := by
  constructor
  · intro h
    rw [readEntries] at h
    split at h
    · rename_i hfield
      split at h
      · cases h
      · rename_i hopen
        exact .inl ⟨hfield, by simpa using hopen, h⟩
    · rename_i f hfield
      split at h
      · cases h
      · rename_i hnew
        split at h
        · cases h
        · rename_i a' hstore
          exact .inr ⟨f, a', hfield, by simpa using hnew, hstore, h⟩
  · rintro (⟨hfield, hopen, h⟩ | ⟨f, a', hfield, hnew, hstore, h⟩)
    · simp only [readEntries, hfield, hopen, Bool.false_eq_true, if_false, h]
    · simp only [readEntries, hfield, List.contains_eq_mem, hnew, decide_false,
        Bool.false_eq_true, if_false, hstore, h]

theorem readEntries_induction {entries : List (String × Value)} {seen : List String}
    (h : s.readEntries d entries seen a = .ok b) (ha : P a)
    (hkeeps : ∀ f ∈ s.fields, f.Keeps d (entries.map (·.2)) P) : P b := by
  induction entries generalizing seen a with
  | nil =>
      rw [readEntries] at h
      split at h
      · cases h
      · cases h
        exact ha
  | cons e rest ih =>
      have hrest : ∀ f ∈ s.fields, f.Keeps d (rest.map (·.2)) P := fun f hf u hu =>
        hkeeps f hf u (List.mem_cons_of_mem _ hu)
      obtain ⟨-, -, hskip⟩ | ⟨f, a', hfield, -, hstore, hread⟩ := readEntries_cons_eq_ok_iff.mp h
      · exact ih hskip ha hrest
      · have hf := (field?_eq_some hfield).1
        exact ih hread (hkeeps f hf e.2 List.mem_cons_self a a' ha hstore) hrest

theorem readItems_induction {fs : List (Field α)} {n : ℕ} {vs : List Value}
    (h : s.readItems d fs n vs a = .ok b) (ha : P a) (hkeeps : ∀ f ∈ fs, f.Keeps d vs P) :
    P b := by
  induction fs generalizing n vs a with
  | nil =>
      cases vs with
      | nil =>
          cases h
          exact ha
      | cons u vs =>
          rw [readItems] at h
          split at h
          · cases h
          · cases h
            exact ha
  | cons f fs ih =>
      cases vs with
      | nil =>
          rw [readItems] at h
          split at h
          · exact ih h ha fun g hg => hkeeps g (List.mem_cons_of_mem f hg)
          · cases h
      | cons u vs =>
          rw [readItems] at h
          split at h
          · cases h
          · rename_i a' hstore
            have hfirst := hkeeps f List.mem_cons_self u List.mem_cons_self a a' ha hstore
            exact ih h hfirst fun g hg w hw =>
              hkeeps g (List.mem_cons_of_mem f hg) w (List.mem_cons_of_mem u hw)

/-- A record that is read has every property that it has before anything is read and that all
fields keep. -/
theorem read_induction (h : s.read d v = .ok b) (hblank : P s.blank)
    (hkeeps : ∀ f ∈ s.fields, f.Keeps d v.contents P) : P b := by
  rw [Value.contents] at hkeeps
  rw [read] at h
  split at h
  · rename_i entries hplain
    rw [hplain] at hkeeps
    exact readEntries_induction h hblank hkeeps
  · rename_i vs hplain
    rw [hplain] at hkeeps
    exact readItems_induction h hblank hkeeps
  · cases h

/-! ## What is written where -/

/-- The value stands where a record has the field of the given name: under the name in a table,
or at the place of the field in a list. -/
inductive Holds (s : Schema α) (name : String) (u : Value) : Value → Prop where
  | entry {entries : List (String × Value)} (h : (name, u) ∈ entries) :
      Holds s name u (.table entries)
  | item {items : List Value} {i : ℕ} (hname : s.names[i]? = some name)
      (hitem : items[i]? = some u) : Holds s name u (.list items)

/-- A table that a closed schema accepts has only keys of the schema, none of which has been
seen or stands twice. -/
theorem nodup_keys_of_readEntries (hclosed : s.isClosed = true) {entries : List (String × Value)}
    {seen : List String} (h : s.readEntries d entries seen a = .ok b) :
    (entries.map (·.1)).Nodup ∧
      ∀ key ∈ entries.map (·.1), key ∉ seen ∧ key ∈ s.names := by
  induction entries generalizing seen a with
  | nil => exact ⟨List.nodup_nil, by simp⟩
  | cons e rest ih =>
      obtain ⟨key, u⟩ := e
      obtain ⟨-, hopen, -⟩ | ⟨f, a', hfield, hnew, -, hread⟩ := readEntries_cons_eq_ok_iff.mp h
      · rw [hclosed] at hopen
        cases hopen
      · obtain ⟨hnodup, hkeys⟩ := ih hread
        obtain ⟨hf, rfl⟩ := field?_eq_some hfield
        have hfirst : f.name ∉ rest.map (·.1) := fun hmem =>
          (hkeys f.name hmem).1 List.mem_cons_self
        refine ⟨List.nodup_cons.mpr ⟨hfirst, hnodup⟩, ?_⟩
        rintro key hkey
        obtain rfl | hkey := List.mem_cons.mp hkey
        · exact ⟨hnew, List.mem_map_of_mem hf⟩
        · obtain ⟨hseen, hname⟩ := hkeys key hkey
          exact ⟨fun hmem => hseen (List.mem_cons_of_mem _ hmem), hname⟩

theorem nodup_keys_of_read (hclosed : s.isClosed = true) {entries : List (String × Value)}
    (h : s.read d (.table entries) = .ok b) :
    (entries.map (·.1)).Nodup ∧ ∀ key ∈ entries.map (·.1), key ∈ s.names := by
  obtain ⟨hnodup, hkeys⟩ := nodup_keys_of_readEntries hclosed h
  exact ⟨hnodup, fun key hkey => (hkeys key hkey).2⟩

theorem exists_store_of_readEntries (hclosed : s.isClosed = true)
    {entries : List (String × Value)} {seen : List String}
    (h : s.readEntries d entries seen a = .ok b) {e : String × Value} (he : e ∈ entries) :
    ∃ f ∈ s.fields, f.name = e.1 ∧ ∃ a b, f.store d e.2 a = .ok b := by
  induction entries generalizing seen a with
  | nil => cases he
  | cons first rest ih =>
      obtain ⟨-, hopen, -⟩ | ⟨f, a', hfield, -, hstore, hread⟩ := readEntries_cons_eq_ok_iff.mp h
      · rw [hclosed] at hopen
        cases hopen
      · obtain rfl | he := List.mem_cons.mp he
        · obtain ⟨hf, hname⟩ := field?_eq_some hfield
          exact ⟨f, hf, hname, a, a', hstore⟩
        · exact ih hread he

theorem exists_store_of_readItems {fs : List (Field α)} {n : ℕ} {vs : List Value}
    (h : s.readItems d fs n vs a = .ok b) {i : ℕ} {f : Field α} {u : Value}
    (hf : fs[i]? = some f) (hu : vs[i]? = some u) : ∃ a b, f.store d u a = .ok b := by
  induction fs generalizing n vs a i with
  | nil => cases hf
  | cons g fs ih =>
      cases vs with
      | nil => cases hu
      | cons w vs =>
          rw [readItems] at h
          split at h
          · cases h
          · rename_i a' hstore
            cases i with
            | zero =>
                cases hf
                cases hu
                exact ⟨a, a', hstore⟩
            | succ i => exact ih h hf hu

/-- What stands at a field of a record that a closed schema accepts has been read as that
field. -/
theorem Holds.exists_read {name : String} {u : Value} {presence : Presence} {r : Reader β}
    {put : β → α → α} (hu : s.Holds name u v) (hnames : s.names.Nodup)
    (hf : s.field? name = some (.of name presence r put)) (hclosed : s.isClosed = true)
    (h : s.read d v = .ok b) : ∃ c, r d u = .ok c := by
  have hstore : ∃ g ∈ s.fields, g.name = name ∧ ∃ a b, g.store d u a = .ok b := by
    cases hu with
    | entry hmem => exact exists_store_of_readEntries hclosed h hmem
    | item hname hitem =>
        rw [names, List.getElem?_map, Option.map_eq_some_iff] at hname
        obtain ⟨g, hg, rfl⟩ := hname
        exact ⟨g, List.mem_of_getElem? hg, rfl, exists_store_of_readItems h hg hitem⟩
  obtain ⟨g, hg, hname, a, b, hread⟩ := hstore
  have hfound := field?_of_mem hnames hg
  rw [hname, hf] at hfound
  obtain rfl := Option.some.inj hfound
  obtain ⟨c, hc, -⟩ := Field.store_of_eq_ok_iff.mp hread
  exact ⟨c, hc⟩

/-! ## Entries in the order of the fields -/

/-- Reading the entries one by one as the fields that follow each other leads from one record to
another, where fields that need not be there may be passed over. -/
inductive ReadsInOrder (d : Dialect) :
    List (Field α) → List (String × Value) → α → α → Prop where
  | nil {a : α} : ReadsInOrder d [] [] a a
  | skip {f : Field α} {fs : List (Field α)} {entries : List (String × Value)} {a b : α}
      (hpresence : f.presence ≠ .required) (h : ReadsInOrder d fs entries a b) :
      ReadsInOrder d (f :: fs) entries a b
  | store {f : Field α} {fs : List (Field α)} {u : Value} {entries : List (String × Value)}
      {a a' b : α} (hstore : f.store d u a = .ok a') (h : ReadsInOrder d fs entries a' b) :
      ReadsInOrder d (f :: fs) ((f.name, u) :: entries) a b

variable {fs : List (Field α)} {entries : List (String × Value)}

/-- A field whose value is written in any case. -/
theorem ReadsInOrder.of_entry {name : String} {presence : Presence} {r : Reader β}
    {put : β → α → α} {u : Value} {c : β} (hread : r d u = .ok c)
    (h : ReadsInOrder d fs entries (put c a) b) :
    ReadsInOrder d (.of name presence r put :: fs) ((name, u) :: entries) a b := by
  have hstore : (Field.of name presence r put).store d u a = .ok (put c a) :=
    Field.store_of_eq_ok_iff.mpr ⟨c, hread, rfl⟩
  exact .store hstore h

/-- A field that is left out when it has no content. -/
theorem ReadsInOrder.of_optionalEntry {name : String} {r : Reader β} {put : Option β → α → α}
    {write : β → Value} {o : Option β}
    (hread : ∀ c, o = some c → r d (write c) = .ok c ∧ write c ≠ .null)
    (hput : put none a = a) (h : ReadsInOrder d fs entries (put o a) b) :
    ReadsInOrder d (.of name .defaulted (.optional r) put :: fs)
      (optionalEntry name write o ++ entries) a b := by
  cases o with
  | none =>
      rw [hput] at h
      exact .skip (by simp [Field.of]) h
  | some c =>
      obtain ⟨hc, hnull⟩ := hread c rfl
      exact .of_entry (Reader.optional_eq_some hc hnull) h

/-- A field that is left out when its content is what it has anyway. -/
theorem ReadsInOrder.of_entryUnless {name : String} {r : Reader β} {put : β → α → α} {u : Value}
    {c : β} {isAbsent : Bool} (hread : r d u = .ok c) (hput : isAbsent = true → put c a = a)
    (h : ReadsInOrder d fs entries (put c a) b) :
    ReadsInOrder d (.of name .defaulted r put :: fs)
      ((if isAbsent then [] else [(name, u)]) ++ entries) a b := by
  cases isAbsent with
  | true =>
      rw [hput rfl] at h
      exact .skip (by simp [Field.of]) h
  | false => exact .of_entry hread h

/-- Every field that has to be there is passed over by no reading in order. -/
theorem ReadsInOrder.required_mem (h : ReadsInOrder d fs entries a b) {f : Field α} (hf : f ∈ fs)
    (hrequired : f.presence = .required) : f.name ∈ entries.map (·.1) := by
  induction h with
  | nil => cases hf
  | skip hpresence _ ih =>
      obtain rfl | hf := List.mem_cons.mp hf
      · exact absurd hrequired hpresence
      · exact ih hf
  | store _ _ ih =>
      obtain rfl | hf := List.mem_cons.mp hf
      · exact List.mem_cons_self
      · exact List.mem_cons_of_mem _ (ih hf)

/-- Entries that are read in order give their record, once every required field is among them or
has been seen. -/
theorem readEntries_of_readsInOrder (hnames : s.names.Nodup) {seen : List String}
    (hfields : fs.Sublist s.fields) (hnew : ∀ f ∈ fs, f.name ∉ seen)
    (hrequired : ∀ f ∈ s.fields, f.presence = .required → f.name ∈ seen ∨
      f.name ∈ entries.map (·.1)) (h : ReadsInOrder d fs entries a b) :
    s.readEntries d entries seen a = .ok b := by
  induction h generalizing seen with
  | nil =>
      have hmissing : s.missing? seen = none := by
        rw [missing?_eq_none_iff]
        intro f hf hpresence
        simpa using hrequired f hf hpresence
      rw [readEntries, hmissing]
  | skip _ _ ih =>
      exact ih (List.sublist_of_cons_sublist hfields)
        (fun g hg => hnew g (List.mem_cons_of_mem _ hg)) hrequired
  | @store f fs u entries a a' b hstore hrest ih =>
      have hf : f ∈ s.fields := hfields.subset List.mem_cons_self
      have hfseen : f.name ∉ seen := hnew f List.mem_cons_self
      have hlater : f.name ∉ fs.map (·.name) := by
        have hnodup : ((f :: fs).map (·.name)).Nodup := (hfields.map Field.name).nodup hnames
        exact (List.nodup_cons.mp hnodup).1
      have hnew' : ∀ g ∈ fs, g.name ∉ f.name :: seen := by
        intro g hg hmem
        obtain hname | hmem := List.mem_cons.mp hmem
        · exact hlater (hname ▸ List.mem_map_of_mem hg)
        · exact hnew g (List.mem_cons_of_mem _ hg) hmem
      have hrequired' : ∀ g ∈ s.fields, g.presence = .required →
          g.name ∈ f.name :: seen ∨ g.name ∈ entries.map (·.1) := by
        intro g hg hpresence
        obtain hseen | hentry := hrequired g hg hpresence
        · exact .inl (List.mem_cons_of_mem _ hseen)
        · obtain hname | hentry := List.mem_cons.mp hentry
          · exact .inl (hname ▸ List.mem_cons_self)
          · exact .inr hentry
      -- Once the entry is stored its key counts as seen, and no later field has it.
      have hread := ih (List.sublist_of_cons_sublist hfields) hnew' hrequired'
      exact readEntries_cons_eq_ok_iff.mpr
        (.inr ⟨f, a', field?_of_mem hnames hf, hfseen, hstore, hread⟩)

/-- A table whose entries are read in order is read as their record. -/
theorem read_of_readsInOrder (hnames : s.names.Nodup)
    (h : ReadsInOrder d s.fields entries s.blank b) : s.read d (.table entries) = .ok b :=
  readEntries_of_readsInOrder hnames (List.Sublist.refl _) (by simp)
    (fun _ hf hpresence => .inr (h.required_mem hf hpresence)) h

end Schema

end MediaPhases
