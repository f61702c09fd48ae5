import MediaPhases.Document.Json
import MediaPhases.Proofs.Document.Json.Number
import MediaPhases.Proofs.Document.Json.Text
import MediaPhases.Proofs.Document.Record
import MediaPhases.Proofs.Document.Value

/-!
# JSON documents read back

A value that fits a JSON document has integers of 64 bits, no part that states nothing, no form of
its own, and no more nesting than a reader allows; it is exact when it has no floating-point
number either.  Every readable value that is read from a text fits, and every exact value is read
back from what is written for it, with and without indentation.
-/

namespace MediaPhases.Json

/-- The value can stand in a document within which lists and tables may be nested so deeply. -/
inductive Fits : ℕ → Value → Prop where
  | null {room : ℕ} : Fits room .null
  | bool {room : ℕ} (b : Bool) : Fits room (.bool b)
  | int {room : ℕ} {n : ℤ} (h : IsInteger64 n) : Fits room (.int n)
  | float {room : ℕ} (x : Double) : Fits room (.float x)
  | text {room : ℕ} (s : String) : Fits room (.text s)
  | list {room : ℕ} {items : List Value} (h : ∀ v ∈ items, Fits room v) :
      Fits (room + 1) (.list items)
  | table {room : ℕ} {entries : List (String × Value)} (h : ∀ e ∈ entries, Fits room e.2) :
      Fits (room + 1) (.table entries)

variable {room : ℕ} {v : Value}

attribute [simp] Fits.null Fits.bool Fits.float Fits.text

@[simp]
theorem fits_int {n : ℤ} : Fits room (.int n) ↔ IsInteger64 n :=
  ⟨fun | .int h => h, .int⟩

@[simp]
theorem fits_list {items : List Value} : Fits (room + 1) (.list items) ↔ ∀ v ∈ items, Fits room v :=
  ⟨fun | .list h => h, .list⟩

@[simp]
theorem fits_table {entries : List (String × Value)} :
    Fits (room + 1) (.table entries) ↔ ∀ e ∈ entries, Fits room e.2 :=
  ⟨fun | .table h => h, .table⟩

/-- The values that a list or a table holds have one level less. -/
theorem Fits.of_mem_contents {u : Value} (h : Fits (room + 1) v) (hu : u ∈ v.contents) :
    Fits room u := by
  cases h with
  | list h => exact h u hu
  | table h =>
      obtain ⟨e, he, rfl⟩ := List.mem_map.mp hu
      exact h e he
  | _ => cases hu

theorem Fits.isReadable (h : Fits room v) : v.isReadable = true := by
  induction h with
  | null => rfl
  | bool b => rfl
  | int _ => rfl
  | float x => rfl
  | text s => rfl
  | list _ ih => exact Value.areReadable_iff.mpr ih
  | table _ ih => exact Value.haveReadable_iff.mpr ih

/-- The value fits, and its text says all of it: no part is a floating-point number. -/
structure IsExact (room : ℕ) (v : Value) : Prop where
  fits : Fits room v
  noFloat : v.HasNoFloat

@[simp]
theorem isExact_null : IsExact room .null :=
  ⟨.null, Value.hasNoFloat_null⟩

@[simp]
theorem isExact_bool (b : Bool) : IsExact room (.bool b) :=
  ⟨.bool b, Value.hasNoFloat_bool b⟩

@[simp]
theorem isExact_text (s : String) : IsExact room (.text s) :=
  ⟨.text s, Value.hasNoFloat_text s⟩

@[simp]
theorem isExact_int {n : ℤ} : IsExact room (.int n) ↔ IsInteger64 n :=
  ⟨fun h => fits_int.mp h.fits, fun h => ⟨.int h, Value.hasNoFloat_int n⟩⟩

@[simp]
theorem isExact_list {items : List Value} :
    IsExact (room + 1) (.list items) ↔ ∀ v ∈ items, IsExact room v := by
  constructor
  · rintro ⟨hfits, hfloat⟩ v hv
    exact ⟨fits_list.mp hfits v hv, hfloat.item hv⟩
  · intro h
    exact ⟨.list fun v hv => (h v hv).fits, Value.hasNoFloat_list.mpr fun v hv => (h v hv).noFloat⟩

@[simp]
theorem isExact_table {entries : List (String × Value)} :
    IsExact (room + 1) (.table entries) ↔ ∀ e ∈ entries, IsExact room e.2 := by
  constructor
  · rintro ⟨hfits, hfloat⟩ e he
    exact ⟨fits_table.mp hfits e he, hfloat.entry he⟩
  · intro h
    exact ⟨.table fun e he => (h e he).fits,
      Value.hasNoFloat_table.mpr fun e he => (h e he).noFloat⟩

/-! ## Layouts -/

/-- Between the marks of a text the layout puts nothing but blanks. -/
structure Layout.IsBlank (l : Layout) : Prop where
  newLine : ∀ level, (l.newLine level).all isSpace = true
  afterKey : ∃ blanks, l.afterKey = ':' :: blanks ∧ blanks.all isSpace = true

theorem isBlank_compact : Layout.compact.IsBlank where
  newLine _ := rfl
  afterKey := ⟨[], rfl, rfl⟩

theorem isBlank_pretty : Layout.pretty.IsBlank where
  newLine level := by
    have hspaces : (List.replicate (2 * level) ' ').all isSpace = true := by
      rw [List.all_replicate]
      simp [isSpace]
    rw [Layout.pretty, List.all_cons, hspaces]
    rfl
  afterKey := ⟨[' '], rfl, rfl⟩

variable {l : Layout}

theorem skipSpace_append {blanks : List Char} (h : blanks.all isSpace = true) (cs : List Char) :
    skipSpace (blanks ++ cs) = skipSpace cs :=
  List.dropWhile_append_of_pos (List.all_eq_true.mp h)

theorem skipSpace_cons {c : Char} (h : isSpace c = false) (cs : List Char) :
    skipSpace (c :: cs) = c :: cs := by
  simp [skipSpace, h]

/-- The text begins like a value: neither with a blank nor with a closing mark. -/
def BeginsValue (cs : List Char) : Prop :=
  ∃ c rest, cs = c :: rest ∧ isSpace c = false ∧ c ≠ ']' ∧ c ≠ '\x7d'

/-- The character begins a number: it is a digit or a sign. -/
def BeginsNumber (c : Char) : Prop :=
  c.isDigit = true ∨ c = '-'

theorem BeginsNumber.ne {c d : Char} (h : BeginsNumber c) (hdigit : d.isDigit = false)
    (hminus : d ≠ '-') : c ≠ d := by
  rintro rfl
  obtain hc | hc := h
  · exact absurd hc (by simp [hdigit])
  · exact hminus hc

theorem BeginsNumber.isSpace_eq_false {c : Char} (h : BeginsNumber c) : isSpace c = false := by
  simp only [isSpace, Bool.or_eq_false_iff, beq_eq_false_iff_ne]
  exact ⟨⟨⟨h.ne rfl (by decide), h.ne rfl (by decide)⟩, h.ne rfl (by decide)⟩,
    h.ne rfl (by decide)⟩

theorem BeginsNumber.beginsValue {c : Char} (h : BeginsNumber c) (rest : List Char) :
    BeginsValue (c :: rest) :=
  ⟨c, rest, rfl, h.isSpace_eq_false, h.ne rfl (by decide), h.ne rfl (by decide)⟩

/-- An integer is written from a digit on, or from a sign. -/
theorem exists_toString_eq (n : ℤ) :
    ∃ c rest, (toString n).toList = c :: rest ∧ BeginsNumber c := by
  cases n with
  | ofNat m =>
      have htext : (toString (Int.ofNat m)).toList = decimalDigits m := toList_toString m
      obtain ⟨c, rest, hdigits⟩ := List.exists_cons_of_ne_nil (decimalDigits_ne_nil m)
      refine ⟨c, rest, htext.trans hdigits, .inl ?_⟩
      exact isDigit_of_mem_decimalDigits (hdigits ▸ List.mem_cons_self)
  | negSucc m =>
      have happend : toString (Int.negSucc m) = "-" ++ toString (m + 1) := rfl
      refine ⟨'-', (toString (m + 1)).toList, ?_, .inr rfl⟩
      rw [happend, String.toList_append]
      rfl

theorem beginsValue_valueChars (h : IsExact room v) (level : ℕ) (rest : List Char) :
    BeginsValue (valueChars l level v ++ rest) := by
  obtain ⟨hfits, hfloat⟩ := h
  cases hfits with
  | null => exact ⟨'n', _, rfl, by decide, by decide, by decide⟩
  | bool b => cases b <;> exact ⟨_, _, rfl, by decide, by decide, by decide⟩
  | @int _ n _ =>
      obtain ⟨c, digits, htext, hfirst⟩ := exists_toString_eq n
      rw [valueChars, scalarChars, htext]
      · exact hfirst.beginsValue _
      all_goals simp
  | float x => exact absurd .self (hfloat x)
  | text s =>
      rw [valueChars, scalarChars]
      · exact ⟨'"', _, rfl, by decide, by decide, by decide⟩
      all_goals simp
  | @list _ items _ =>
      cases items <;> rw [valueChars] <;> exact ⟨'[', _, rfl, by decide, by decide, by decide⟩
  | @table _ entries _ =>
      cases entries with
      | nil =>
          rw [valueChars]
          exact ⟨'\x7b', _, rfl, by decide, by decide, by decide⟩
      | cons e entries =>
          obtain ⟨k, v⟩ := e
          rw [valueChars]
          exact ⟨'\x7b', _, rfl, by decide, by decide, by decide⟩

/-! ## Reading what was written -/

theorem scanValue_append {blanks : List Char} (h : blanks.all isSpace = true) (fuel room : ℕ)
    (cs : List Char) : scanValue fuel room (blanks ++ cs) = scanValue fuel room cs := by
  cases fuel with
  | zero => rw [scanValue, scanValue]
  | succ fuel => rw [scanValue, scanValue, skipSpace_append h]

theorem scanItems_append {blanks : List Char} (h : blanks.all isSpace = true) (fuel room : ℕ)
    (cs : List Char) : scanItems fuel room (blanks ++ cs) = scanItems fuel room cs := by
  cases fuel with
  | zero => rw [scanItems, scanItems]
  | succ fuel => rw [scanItems, scanItems, scanValue_append h]

theorem scanEntries_append {blanks : List Char} (h : blanks.all isSpace = true) (fuel room : ℕ)
    (cs : List Char) : scanEntries fuel room (blanks ++ cs) = scanEntries fuel room cs := by
  cases fuel with
  | zero => rw [scanEntries, scanEntries]
  | succ fuel => rw [scanEntries, scanEntries, skipSpace_append h]

theorem BeginsNumber.scanValue_cons {c : Char} (h : BeginsNumber c) (fuel room : ℕ)
    (cs : List Char) :
    scanValue (fuel + 1) room (c :: cs) =
      (scanNumber (c :: cs)).map fun (l, rest) => (ofNumber l, rest) := by
  rw [scanValue, skipSpace_cons h.isSpace_eq_false]
  have hbrace : c ≠ '\x7b' := h.ne rfl (by decide)
  have hbracket : c ≠ '[' := h.ne rfl (by decide)
  have hquote : c ≠ '"' := h.ne rfl (by decide)
  have hnull : c ≠ 'n' := h.ne rfl (by decide)
  have htrue : c ≠ 't' := h.ne rfl (by decide)
  have hfalse : c ≠ 'f' := h.ne rfl (by decide)
  simp_all

/-- The value is read back from its text, whatever follows, with steps for twice the length. -/
def ReadsBack (l : Layout) (room : ℕ) (v : Value) : Prop :=
  ∀ fuel level rest, 2 * (valueChars l level v).length ≤ fuel → EndsNumber rest →
    scanValue fuel room (valueChars l level v ++ rest) = some (v, rest)

/-- What follows an item or entry is a mark or a blank. -/
theorem endsNumber_newLine (hl : l.IsBlank) {level : ℕ} {mark : Char}
    (hmark : mark.isDigit = false ∧ mark ≠ '.' ∧ mark ≠ 'e' ∧ mark ≠ 'E') (rest : List Char) :
    EndsNumber (l.newLine level ++ mark :: rest) := by
  cases hline : l.newLine level with
  | nil => exact endsNumber_cons hmark rest
  | cons c blanks =>
      have hblank : isSpace c = true := by
        have hall := hl.newLine level
        rw [hline, List.all_cons, Bool.and_eq_true] at hall
        exact hall.1
      apply endsNumber_cons
      simp only [isSpace, Bool.or_eq_true, beq_iff_eq] at hblank
      obtain ((rfl | rfl) | rfl) | rfl := hblank <;> decide

theorem endsNumber_itemChars (hl : l.IsBlank) (level : ℕ) (items : List Value)
    (rest : List Char) : EndsNumber (itemChars l level items ++ rest) := by
  cases items with
  | nil =>
      rw [itemChars, List.append_assoc]
      exact endsNumber_newLine hl (by decide) rest
  | cons v items =>
      rw [itemChars]
      exact endsNumber_cons (by decide) _

theorem endsNumber_entryChars (hl : l.IsBlank) (level : ℕ) (entries : List (String × Value))
    (rest : List Char) : EndsNumber (entryChars l level entries ++ rest) := by
  cases entries with
  | nil =>
      rw [entryChars, List.append_assoc]
      exact endsNumber_newLine hl (by decide) rest
  | cons e entries =>
      obtain ⟨k, v⟩ := e
      rw [entryChars]
      exact endsNumber_cons (by decide) _

theorem length_itemChars_pos (l : Layout) (level : ℕ) (items : List Value) :
    0 < (itemChars l level items).length := by
  cases items <;> simp [itemChars]

theorem length_entryChars_pos (l : Layout) (level : ℕ) (entries : List (String × Value)) :
    0 < (entryChars l level entries).length := by
  cases entries <;> simp [entryChars]

/-- The items of a list are read back one after the other. -/
theorem scanItems_itemChars (hl : l.IsBlank) {items : List Value}
    (hitems : ∀ w ∈ v :: items, ReadsBack l room w) (fuel level : ℕ) (rest : List Char)
    (hfuel : 2 * ((valueChars l (level + 1) v).length + (itemChars l level items).length) ≤ fuel) :
    scanItems fuel room (valueChars l (level + 1) v ++ (itemChars l level items ++ rest)) =
      some (v :: items, rest) := by
  induction items generalizing v fuel with
  | nil =>
      have hpos := length_itemChars_pos l level []
      obtain ⟨fuel, rfl⟩ : ∃ k, fuel = k + 1 := ⟨fuel - 1, by omega⟩
      have hv := hitems v List.mem_cons_self fuel (level + 1) (itemChars l level [] ++ rest)
        (by omega) (endsNumber_itemChars hl level [] rest)
      have hclose : skipSpace (itemChars l level [] ++ rest) = ']' :: rest := by
        rw [itemChars, List.append_assoc, skipSpace_append (hl.newLine level)]
        exact skipSpace_cons (by decide) rest
      rw [scanItems, hv]
      simp only [hclose]
  | cons w items ih =>
      have hpos := length_itemChars_pos l level (w :: items)
      have hlength : (itemChars l level (w :: items)).length =
          (l.newLine (level + 1)).length + (valueChars l (level + 1) w).length +
            (itemChars l level items).length + 1 := by
        simp only [itemChars, List.length_cons, List.length_append]
      obtain ⟨fuel, rfl⟩ : ∃ k, fuel = k + 1 := ⟨fuel - 1, by omega⟩
      have hv := hitems v List.mem_cons_self fuel (level + 1)
        (itemChars l level (w :: items) ++ rest) (by omega) (endsNumber_itemChars hl level _ rest)
      have hlater : ∀ u ∈ w :: items, ReadsBack l room u := fun u hu =>
        hitems u (List.mem_cons_of_mem v hu)
      have hrest := ih hlater fuel (by omega)
      have hcomma : skipSpace (itemChars l level (w :: items) ++ rest) =
          ',' :: (l.newLine (level + 1) ++
            (valueChars l (level + 1) w ++ (itemChars l level items ++ rest))) := by
        rw [itemChars, List.cons_append, skipSpace_cons (by decide)]
        simp only [List.append_assoc]
      rw [scanItems, hv]
      simp only [hcomma, scanItems_append (hl.newLine (level + 1)), hrest, Option.map_some]

/-- One entry of a table is read back, and the mark that follows says if there are further ones. -/
theorem scanEntries_cons (hl : l.IsBlank) {key : String} (hv : ReadsBack l room v)
    {fuel level : ℕ} (hfuel : 2 * (valueChars l (level + 1) v).length ≤ fuel)
    {following : List Char} (hends : EndsNumber following) :
    (∀ rest, skipSpace following = '\x7d' :: rest →
      scanEntries (fuel + 1) room
        (quoteText key ++ (l.afterKey ++ (valueChars l (level + 1) v ++ following))) =
        some (some [(key, v)], rest)) ∧
    ∀ cs entries rest, skipSpace following = ',' :: cs →
      scanEntries fuel room cs = some (some entries, rest) →
      scanEntries (fuel + 1) room
        (quoteText key ++ (l.afterKey ++ (valueChars l (level + 1) v ++ following))) =
        some (some ((key, v) :: entries), rest) := by
  obtain ⟨blanks, hafter, hblanks⟩ := hl.afterKey
  obtain ⟨cs, hquote, hkey⟩ := scanText_quoteText key
    (l.afterKey ++ (valueChars l (level + 1) v ++ following))
  have hvalue := hv fuel (level + 1) following hfuel hends
  rw [scanEntries, hquote, List.cons_append, skipSpace_cons (by decide)]
  simp only [hkey]
  rw [hafter, List.cons_append, skipSpace_cons (by decide)]
  simp only [scanValue_append hblanks, hvalue, Option.map_some, Option.bind_some]
  constructor
  · intro rest hclose
    simp only [hclose]
  · intro cs entries rest hcomma hrest
    simp only [hcomma, hrest, Option.map_some]

/-- The entries of a table are read back one after the other. -/
theorem scanEntries_entryChars (hl : l.IsBlank) {key : String} {entries : List (String × Value)}
    (hentries : ∀ e ∈ (key, v) :: entries, ReadsBack l room e.2) (fuel level : ℕ)
    (rest : List Char)
    (hfuel : 2 * ((valueChars l (level + 1) v).length + (entryChars l level entries).length) ≤
      fuel) :
    scanEntries fuel room (quoteText key ++ (l.afterKey ++
      (valueChars l (level + 1) v ++ (entryChars l level entries ++ rest)))) =
      some (some ((key, v) :: entries), rest) := by
  induction entries generalizing key v fuel with
  | nil =>
      have hpos := length_entryChars_pos l level []
      obtain ⟨fuel, rfl⟩ : ∃ k, fuel = k + 1 := ⟨fuel - 1, by omega⟩
      have hv : ReadsBack l room v := hentries (key, v) List.mem_cons_self
      have hclose : skipSpace (entryChars l level [] ++ rest) = '\x7d' :: rest := by
        rw [entryChars, List.append_assoc, skipSpace_append (hl.newLine level)]
        exact skipSpace_cons (by decide) rest
      exact (scanEntries_cons hl hv (by omega) (endsNumber_entryChars hl level [] rest)).1 _ hclose
  | cons e entries ih =>
      obtain ⟨k, w⟩ := e
      have hlength : (entryChars l level ((k, w) :: entries)).length =
          (l.newLine (level + 1)).length + (quoteText k).length + l.afterKey.length +
            (valueChars l (level + 1) w).length + (entryChars l level entries).length + 1 := by
        simp only [entryChars, List.length_cons, List.length_append]
      obtain ⟨fuel, rfl⟩ : ∃ k, fuel = k + 1 := ⟨fuel - 1, by omega⟩
      have hv : ReadsBack l room v := hentries (key, v) List.mem_cons_self
      have hlater : ∀ e ∈ (k, w) :: entries, ReadsBack l room e.2 := fun e he =>
        hentries e (List.mem_cons_of_mem _ he)
      have hrest := ih hlater fuel (by omega)
      have hcomma : skipSpace (entryChars l level ((k, w) :: entries) ++ rest) =
          ',' :: (l.newLine (level + 1) ++ (quoteText k ++ (l.afterKey ++
            (valueChars l (level + 1) w ++ (entryChars l level entries ++ rest))))) := by
        rw [entryChars, List.cons_append, skipSpace_cons (by decide)]
        simp only [List.append_assoc]
      have hsteps : 2 * (valueChars l (level + 1) v).length ≤ fuel := by omega
      have hends := endsNumber_entryChars hl level ((k, w) :: entries) rest
      refine (scanEntries_cons hl hv hsteps hends).2 _ _ _ hcomma ?_
      rw [scanEntries_append (hl.newLine (level + 1))]
      exact hrest

theorem readsBack_list (hl : l.IsBlank) {items : List Value}
    (hexact : ∀ v ∈ items, IsExact room v) (hitems : ∀ v ∈ items, ReadsBack l room v) :
    ReadsBack l (room + 1) (.list items) := by
  intro fuel level rest hfuel _
  cases items with
  | nil =>
      rw [valueChars] at hfuel ⊢
      obtain ⟨fuel, rfl⟩ : ∃ k, fuel = k + 1 := ⟨fuel - 1, by simp at hfuel; omega⟩
      rw [List.cons_append, scanValue, skipSpace_cons (by decide)]
      simp [skipSpace, isSpace, nested]
  | cons v items =>
      have hlength : (valueChars l level (.list (v :: items))).length =
          (l.newLine (level + 1)).length + (valueChars l (level + 1) v).length +
            (itemChars l level items).length + 1 := by
        simp only [valueChars, List.length_cons, List.length_append]
      obtain ⟨fuel, rfl⟩ : ∃ k, fuel = k + 1 := ⟨fuel - 1, by omega⟩
      have hread := scanItems_itemChars hl hitems fuel level rest (by omega)
      -- The first item begins with no bracket, which tells the list from an empty one.
      obtain ⟨c, cs, hbegin, hspace, hclose, -⟩ := beginsValue_valueChars (l := l)
        (hexact v List.mem_cons_self) (level + 1) (itemChars l level items ++ rest)
      have hskip : skipSpace (l.newLine (level + 1) ++ (valueChars l (level + 1) v ++
          (itemChars l level items ++ rest))) = c :: cs := by
        rw [skipSpace_append (hl.newLine (level + 1)), hbegin, skipSpace_cons hspace]
      rw [hbegin] at hread
      rw [valueChars, List.cons_append, scanValue, skipSpace_cons (by decide)]
      simp only [List.append_assoc, hskip, Nat.add_sub_cancel]
      split
      · rename_i heq
        exact absurd (List.cons.inj heq).1 hclose
      · rw [hread]
        rfl

theorem readsBack_table (hl : l.IsBlank) {entries : List (String × Value)}
    (hentries : ∀ e ∈ entries, ReadsBack l room e.2) :
    ReadsBack l (room + 1) (.table entries) := by
  intro fuel level rest hfuel _
  cases entries with
  | nil =>
      rw [valueChars] at hfuel ⊢
      obtain ⟨fuel, rfl⟩ : ∃ k, fuel = k + 1 := ⟨fuel - 1, by simp at hfuel; omega⟩
      rw [List.cons_append, scanValue, skipSpace_cons (by decide)]
      simp [skipSpace, isSpace, nested]
  | cons e entries =>
      obtain ⟨k, v⟩ := e
      have hlength : (valueChars l level (.table ((k, v) :: entries))).length =
          (l.newLine (level + 1)).length + (quoteText k).length + l.afterKey.length +
            (valueChars l (level + 1) v).length + (entryChars l level entries).length + 1 := by
        simp only [valueChars, List.length_cons, List.length_append]
      obtain ⟨fuel, rfl⟩ : ∃ k, fuel = k + 1 := ⟨fuel - 1, by omega⟩
      have hread := scanEntries_entryChars hl hentries fuel level rest (by omega)
      have hskip : skipSpace (l.newLine (level + 1) ++ (quoteText k ++ (l.afterKey ++
          (valueChars l (level + 1) v ++ (entryChars l level entries ++ rest))))) =
          quoteText k ++ (l.afterKey ++
            (valueChars l (level + 1) v ++ (entryChars l level entries ++ rest))) := by
        rw [skipSpace_append (hl.newLine (level + 1)), quoteText, List.cons_append]
        exact skipSpace_cons (by decide) _
      rw [valueChars, List.cons_append, scanValue, skipSpace_cons (by decide)]
      simp only [List.append_assoc, hskip, Nat.add_sub_cancel]
      split
      · rename_i heq
        rw [quoteText, List.cons_append] at heq
        exact absurd (List.cons.inj heq).1 (by decide)
      · rw [hread]
        rfl

/-- An exact value is read back from its text. -/
theorem readsBack_of_isExact (hl : l.IsBlank) (h : IsExact room v) : ReadsBack l room v := by
  obtain ⟨hfits, hfloat⟩ := h
  induction hfits with
  | list hfits ih =>
      exact readsBack_list hl (fun v hv => ⟨hfits v hv, hfloat.item hv⟩)
        fun v hv => ih v hv (hfloat.item hv)
  | table hfits ih => exact readsBack_table hl fun e he => ih e he (hfloat.entry he)
  | float x => exact absurd .self (hfloat x)
  | null =>
      intro fuel level rest hfuel _
      have hlength : 0 < (valueChars l level .null).length := by simp [valueChars, scalarChars]
      obtain ⟨fuel, rfl⟩ : ∃ k, fuel = k + 1 := ⟨fuel - 1, by omega⟩
      simp [valueChars, scalarChars, scanValue, skipSpace, isSpace]
  | bool b =>
      intro fuel level rest hfuel _
      have hlength : 0 < (valueChars l level (.bool b)).length := by
        cases b <;> simp [valueChars, scalarChars]
      obtain ⟨fuel, rfl⟩ : ∃ k, fuel = k + 1 := ⟨fuel - 1, by omega⟩
      cases b <;> simp [valueChars, scalarChars, scanValue, skipSpace, isSpace]
  | @int room n hn =>
      intro fuel level rest hfuel hends
      obtain ⟨literal, hscan, hvalue⟩ := scanNumber_int hn hends
      obtain ⟨c, digits, htext, hfirst⟩ := exists_toString_eq n
      have hchars : valueChars l level (.int n) = c :: digits := by
        rw [← htext]
        simp [valueChars, scalarChars]
      rw [hchars, List.length_cons] at hfuel
      obtain ⟨fuel, rfl⟩ : ∃ k, fuel = k + 1 := ⟨fuel - 1, by omega⟩
      rw [hchars, List.cons_append, hfirst.scanValue_cons, ← List.cons_append, ← htext, hscan]
      exact congrArg (fun v => some (v, rest)) hvalue
  | text s =>
      intro fuel level rest hfuel _
      obtain ⟨cs, hquote, hread⟩ := scanText_quoteText s rest
      have hchars : valueChars l level (.text s) = '"' :: cs := by
        rw [← hquote]
        simp [valueChars, scalarChars]
      rw [hchars, List.length_cons] at hfuel
      obtain ⟨fuel, rfl⟩ : ∃ k, fuel = k + 1 := ⟨fuel - 1, by omega⟩
      rw [hchars, List.cons_append, scanValue, skipSpace_cons (by decide)]
      simp only [hread, Option.map_some]

/-- What is written for an exact value is a document of just that value. -/
theorem scan_ofList_valueChars (hl : l.IsBlank) (h : IsExact nestingLimit v) :
    scan (String.ofList (valueChars l 0 v)) = some v := by
  have hread := readsBack_of_isExact hl h (2 * (valueChars l 0 v).length + 2) 0 [] (by omega)
    endsNumber_nil
  rw [List.append_nil] at hread
  simp only [scan, String.toList_ofList, hread]
  rfl

theorem scan_compact (h : IsExact nestingLimit v) : scan (compact v) = some v :=
  scan_ofList_valueChars isBlank_compact h

theorem scan_pretty (h : IsExact nestingLimit v) : scan (pretty v) = some v :=
  scan_ofList_valueChars isBlank_pretty h

theorem read_pretty (h : IsExact nestingLimit v) : read (pretty v) = some v := by
  rw [read, scan_pretty h]
  exact Option.filter_some_pos h.fits.isReadable

/-! ## What is read fits -/

theorem fits_ofNumber (l : NumberLiteral) (h : (ofNumber l).isReadable = true) :
    Fits room (ofNumber l) := by
  rw [ofNumber] at h ⊢
  cases hvalue : l.value with
  | int n => exact .int (isInteger64_of_value hvalue)
  | float x => exact .float x
  | outOfRange =>
      rw [hvalue] at h
      cases h

theorem fits_nested_list {items : List Value} (hitems : ∀ v ∈ items, Fits (room - 1) v)
    (h : (nested room (.list items)).isReadable = true) :
    Fits room (nested room (.list items)) := by
  cases room with
  | zero => cases h
  | succ room => exact .list hitems

theorem fits_nested_table {entries : List (String × Value)}
    (hentries : ∀ e ∈ entries, Fits (room - 1) e.2)
    (h : (nested room (.table entries)).isReadable = true) :
    Fits room (nested room (.table entries)) := by
  cases room with
  | zero => cases h
  | succ room => exact .table hentries

/-- What is read in so many steps fits, as far as it states something. -/
structure ScansFit (fuel : ℕ) : Prop where
  value : ∀ room cs v rest, scanValue fuel room cs = some (v, rest) → v.isReadable = true →
    Fits room v
  items : ∀ room cs items rest, scanItems fuel room cs = some (items, rest) →
    ∀ v ∈ items, v.isReadable = true → Fits room v
  entries : ∀ room cs entries rest, scanEntries fuel room cs = some (some entries, rest) →
    ∀ e ∈ entries, e.2.isReadable = true → Fits room e.2

variable {fuel : ℕ} {cs rest : List Char}

theorem ScansFit.table (hfuel : ScansFit fuel) {entries : List (String × Value)}
    (h : scanEntries fuel (room - 1) cs = some (some entries, rest))
    (hreadable : (nested room (.table entries)).isReadable = true) :
    Fits room (nested room (.table entries)) := by
  refine fits_nested_table (fun e he => ?_) hreadable
  refine hfuel.entries _ _ _ _ h e he ?_
  cases room with
  | zero => cases hreadable
  | succ room => exact Value.haveReadable_iff.mp hreadable e he

theorem ScansFit.list (hfuel : ScansFit fuel) {items : List Value}
    (h : scanItems fuel (room - 1) cs = some (items, rest))
    (hreadable : (nested room (.list items)).isReadable = true) :
    Fits room (nested room (.list items)) := by
  refine fits_nested_list (fun w hw => ?_) hreadable
  refine hfuel.items _ _ _ _ h w hw ?_
  cases room with
  | zero => cases hreadable
  | succ room => exact Value.areReadable_iff.mp hreadable w hw

theorem ScansFit.value_succ (hfuel : ScansFit fuel)
    (h : scanValue (fuel + 1) room cs = some (v, rest)) (hreadable : v.isReadable = true) :
    Fits room v := by
  rw [scanValue] at h
  split at h
  · split at h
    · cases h
      exact fits_nested_table (by simp) hreadable
    · obtain ⟨⟨entries?, _⟩, hscan, heq⟩ := Option.map_eq_some_iff.mp h
      cases heq
      cases entries? with
      | none => cases hreadable
      | some entries => exact hfuel.table hscan hreadable
  · split at h
    · cases h
      exact fits_nested_list (by simp) hreadable
    · obtain ⟨⟨items, _⟩, hscan, heq⟩ := Option.map_eq_some_iff.mp h
      cases heq
      exact hfuel.list hscan hreadable
  · obtain ⟨⟨s?, _⟩, -, heq⟩ := Option.map_eq_some_iff.mp h
    cases heq
    cases s? with
    | none => cases hreadable
    | some s => exact .text s
  · cases h
    exact .null
  · cases h
    exact .bool true
  · cases h
    exact .bool false
  · obtain ⟨⟨literal, _⟩, -, heq⟩ := Option.map_eq_some_iff.mp h
    cases heq
    exact fits_ofNumber literal hreadable

theorem ScansFit.items_succ (hfuel : ScansFit fuel) {items : List Value}
    (h : scanItems (fuel + 1) room cs = some (items, rest)) :
    ∀ v ∈ items, v.isReadable = true → Fits room v := by
  rw [scanItems] at h
  split at h
  · cases h
  · rename_i v _ hv
    have hfirst := hfuel.value _ _ _ _ hv
    split at h
    · cases h
      exact List.forall_mem_singleton.mpr hfirst
    · obtain ⟨⟨items, _⟩, hscan, heq⟩ := Option.map_eq_some_iff.mp h
      cases heq
      exact List.forall_mem_cons.mpr ⟨hfirst, hfuel.items _ _ _ _ hscan⟩
    · cases h

theorem ScansFit.entries_succ (hfuel : ScansFit fuel) {entries : List (String × Value)}
    (h : scanEntries (fuel + 1) room cs = some (some entries, rest)) :
    ∀ e ∈ entries, e.2.isReadable = true → Fits room e.2 := by
  rw [scanEntries] at h
  split at h
  · split at h
    · cases h
    · split at h
      · split at h
        · cases h
        · rename_i v _ hv
          have hfirst := hfuel.value _ _ _ _ hv
          split at h
          · obtain ⟨heq, rfl⟩ := Prod.mk.inj (Option.some.inj h)
            obtain ⟨⟨k, w⟩, hentry, rfl⟩ := Option.map_eq_some_iff.mp heq
            obtain ⟨_, -, hpair⟩ := Option.map_eq_some_iff.mp hentry
            cases hpair
            exact List.forall_mem_singleton.mpr hfirst
          · obtain ⟨⟨entries?, _⟩, hscan, heq⟩ := Option.map_eq_some_iff.mp h
            obtain ⟨hbind, rfl⟩ := Prod.mk.inj heq
            obtain ⟨e, hentry, hmap⟩ := Option.bind_eq_some_iff.mp hbind
            obtain ⟨further, rfl, rfl⟩ := Option.map_eq_some_iff.mp hmap
            obtain ⟨_, -, rfl⟩ := Option.map_eq_some_iff.mp hentry
            exact List.forall_mem_cons.mpr ⟨hfirst, hfuel.entries _ _ _ _ hscan⟩
          · cases h
      · cases h
  · cases h

-- The three scanners call each other with one step less, so they are followed together.
theorem scansFit (fuel : ℕ) : ScansFit fuel := by
  induction fuel with
  | zero =>
      constructor
      · intro room cs v rest h
        rw [scanValue] at h
        cases h
      · intro room cs items rest h
        rw [scanItems] at h
        cases h
      · intro room cs entries rest h
        rw [scanEntries] at h
        cases h
  | succ fuel ih =>
      exact ⟨fun _ _ _ _ => ih.value_succ, fun _ _ _ _ => ih.items_succ,
        fun _ _ _ _ => ih.entries_succ⟩

/-- A readable value that is read from a text fits. -/
theorem fits_of_read {text : String} (h : read text = some v) : Fits nestingLimit v := by
  rw [read] at h
  obtain ⟨hscan, hreadable⟩ := Option.filter_eq_some_iff.mp h
  simp only [scan] at hscan
  split at hscan
  · rename_i v' _ hvalue
    split at hscan
    · cases hscan
      exact (scansFit _).value _ _ _ _ hvalue hreadable
    · cases hscan
  · cases hscan

end MediaPhases.Json
