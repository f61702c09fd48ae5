import MediaPhases.Document.Value
import Mathlib.Data.List.Basic

/-!
# Parts of a document value

The parts of a value are the value itself, the parts of the items of a list, of the values of a
table's entries, and of what a special form stands for.  What is said about every part is proved
by induction on values, once for all kinds of value.
-/

namespace MediaPhases

variable {u v w : Value} {items : List Value} {entries : List (String × Value)} {key : String}

/-- Induction on values: lists and tables from all that they hold. -/
@[elab_as_elim]
theorem Value.induction {motive : Value → Prop}
    (null : motive .null) (bool : ∀ b, motive (.bool b)) (int : ∀ n, motive (.int n))
    (float : ∀ x, motive (.float x)) (text : ∀ s, motive (.text s))
    (list : ∀ items, (∀ v ∈ items, motive v) → motive (.list items))
    (table : ∀ entries, (∀ e ∈ entries, motive e.2) → motive (.table entries))
    (unreadable : motive .unreadable) (special : ∀ form v, motive v → motive (.special form v))
    (v : Value) : motive v :=
  @Value.rec motive (fun items => ∀ v ∈ items, motive v) (fun entries => ∀ e ∈ entries, motive e.2)
    (fun e => motive e.2) null bool int float text list table unreadable special
    (fun _ hnil => by cases hnil)
    (fun _ _ hv hrest => List.forall_mem_cons.mpr ⟨hv, hrest⟩)
    (fun _ hnil => by cases hnil)
    (fun _ _ he hrest => List.forall_mem_cons.mpr ⟨he, hrest⟩)
    (fun _ _ hv => hv) v

/-- The first value is a part of the second. -/
inductive Value.Part (u : Value) : Value → Prop where
  | self : Part u u
  | item {v : Value} {items : List Value} (hv : v ∈ items) (h : Part u v) : Part u (.list items)
  | entry {e : String × Value} {entries : List (String × Value)} (he : e ∈ entries)
      (h : Part u e.2) : Part u (.table entries)
  | special {form : SpecialForm} {v : Value} (h : Part u v) : Part u (.special form v)

namespace Value

/-- No part of the value is a floating-point number. -/
def HasNoFloat (v : Value) : Prop :=
  ∀ x, ¬ Part (.float x) v

/-- No table in the value has two entries with one key. -/
def HasDistinctKeys (v : Value) : Prop :=
  ∀ entries, Part (.table entries) v → (entries.map (·.1)).Nodup

theorem areReadable_iff : areReadable items = true ↔ ∀ v ∈ items, v.isReadable = true := by
  induction items with
  | nil => simp [areReadable]
  | cons v items ih => simp [areReadable, ih]

theorem haveReadable_iff :
    haveReadable entries = true ↔ ∀ e ∈ entries, e.2.isReadable = true := by
  induction entries with
  | nil => simp [haveReadable]
  | cons e entries ih => simp [haveReadable, ih]

theorem HasNoFloat.item (h : HasNoFloat (.list items)) (hv : v ∈ items) : v.HasNoFloat :=
  fun x hx => h x (.item hv hx)

theorem HasNoFloat.entry (h : HasNoFloat (.table entries)) {e : String × Value}
    (he : e ∈ entries) : e.2.HasNoFloat :=
  fun x hx => h x (.entry he hx)

@[simp]
theorem hasNoFloat_list : HasNoFloat (.list items) ↔ ∀ v ∈ items, v.HasNoFloat := by
  constructor
  · exact fun h v => h.item
  · rintro h x (_ | ⟨hv, hx⟩)
    exact h _ hv x hx

@[simp]
theorem hasNoFloat_table : HasNoFloat (.table entries) ↔ ∀ e ∈ entries, e.2.HasNoFloat := by
  constructor
  · exact fun h e => h.entry
  · rintro h x (_ | _ | ⟨he, hx⟩)
    exact h _ he x hx

@[simp]
theorem hasNoFloat_text (s : String) : HasNoFloat (.text s) := by
  rintro x ⟨⟩

@[simp]
theorem hasNoFloat_int (n : Int) : HasNoFloat (.int n) := by
  rintro x ⟨⟩

@[simp]
theorem hasNoFloat_bool (b : Bool) : HasNoFloat (.bool b) := by
  rintro x ⟨⟩

@[simp]
theorem hasNoFloat_null : HasNoFloat .null := by
  rintro x ⟨⟩

@[simp]
theorem hasDistinctKeys_text (s : String) : HasDistinctKeys (.text s) := by
  rintro entries ⟨⟩

@[simp]
theorem hasDistinctKeys_list :
    HasDistinctKeys (.list items) ↔ ∀ v ∈ items, v.HasDistinctKeys := by
  constructor
  · exact fun h v hv entries hpart => h entries (.item hv hpart)
  · rintro h entries (_ | ⟨hv, hpart⟩)
    exact h _ hv entries hpart

@[simp]
theorem hasDistinctKeys_table :
    HasDistinctKeys (.table entries) ↔
      (entries.map (·.1)).Nodup ∧ ∀ e ∈ entries, e.2.HasDistinctKeys := by
  constructor
  · exact fun h => ⟨h entries .self, fun e he inner hpart => h inner (.entry he hpart)⟩
  · rintro ⟨hnodup, h⟩ inner (_ | _ | ⟨he, hpart⟩)
    · exact hnodup
    · exact h _ he inner hpart

end Value

end MediaPhases
