import MediaPhases.Proofs.Document.Value
import Mathlib.Data.List.Nodup
import Mathlib.Data.List.Perm.Basic
import Mathlib.Data.String.Basic

/-!
# Canonical forms of values

The canonical entries of a table are sorted by key, with no key twice, and their values are
canonical in turn.  Putting values under different keys commutes, so that the canonical entries
of a table without repeated keys do not depend on the order in which it was written; and a value
in canonical form is its own canonical form.
-/

namespace MediaPhases.Value

variable {v w : Value} {key l : String} {entries sorted : List (String × Value)}

/-! ## Putting entries in place -/

theorem insertEntry_of_lt {k : String} (h : key < k) (x : Value) (rest : List (String × Value)) :
    insertEntry key v ((k, x) :: rest) = (key, v) :: (k, x) :: rest := by
  rw [insertEntry, if_pos h]

theorem insertEntry_self (x : Value) (rest : List (String × Value)) :
    insertEntry key v ((key, x) :: rest) = (key, v) :: rest := by
  rw [insertEntry, if_neg (lt_irrefl key), if_pos rfl]

theorem insertEntry_of_gt {k : String} (h : k < key) (x : Value) (rest : List (String × Value)) :
    insertEntry key v ((k, x) :: rest) = (k, x) :: insertEntry key v rest := by
  rw [insertEntry, if_neg h.asymm, if_neg h.ne']

/-- Values are put under different keys in either order. -/
theorem insertEntry_comm (hne : key ≠ l) :
    insertEntry key v (insertEntry l w entries) = insertEntry l w (insertEntry key v entries) := by
  wlog hlt : key < l generalizing key l v w
  · have hgt : l < key := lt_of_le_of_ne (le_of_not_gt hlt) hne.symm
    exact (this hne.symm hgt).symm
  induction entries with
  | nil =>
      have hfirst : insertEntry key v [(l, w)] = [(key, v), (l, w)] := insertEntry_of_lt hlt w []
      have hlast : insertEntry l w [(key, v)] = [(key, v), (l, w)] := insertEntry_of_gt hlt v []
      exact hfirst.trans hlast.symm
  | cons e rest ih =>
      obtain ⟨k, x⟩ := e
      obtain hk | rfl | hk := lt_trichotomy key k
      · obtain hl | rfl | hl := lt_trichotomy l k
        · rw [insertEntry_of_lt hl, insertEntry_of_lt hlt, insertEntry_of_lt hk,
            insertEntry_of_gt hlt, insertEntry_of_lt hl]
        · rw [insertEntry_self, insertEntry_of_lt hk, insertEntry_of_lt hk, insertEntry_of_gt hlt,
            insertEntry_self]
        · rw [insertEntry_of_gt hl, insertEntry_of_lt hk, insertEntry_of_lt hk,
            insertEntry_of_gt hlt, insertEntry_of_gt hl]
      · rw [insertEntry_of_gt hlt, insertEntry_self, insertEntry_self, insertEntry_of_gt hlt]
      · have hl : k < l := hk.trans hlt
        rw [insertEntry_of_gt hl, insertEntry_of_gt hk, insertEntry_of_gt hk,
          insertEntry_of_gt hl, ih]

theorem mem_insertEntry {e : String × Value} (h : e ∈ insertEntry key v entries) :
    e = (key, v) ∨ e ∈ entries := by
  induction entries with
  | nil => exact .inl (List.mem_singleton.mp h)
  | cons first rest ih =>
      obtain ⟨k, x⟩ := first
      obtain hk | rfl | hk := lt_trichotomy key k
      · rw [insertEntry_of_lt hk] at h
        exact List.mem_cons.mp h
      · rw [insertEntry_self] at h
        exact (List.mem_cons.mp h).imp_right (List.mem_cons_of_mem _)
      · rw [insertEntry_of_gt hk] at h
        obtain rfl | h := List.mem_cons.mp h
        · exact .inr List.mem_cons_self
        · exact (ih h).imp_right (List.mem_cons_of_mem _)

/-- The keys stand in strictly ascending order. -/
def AreSorted (entries : List (String × Value)) : Prop :=
  entries.Pairwise fun e f => e.1 < f.1

theorem AreSorted.insertEntry (h : AreSorted entries) : AreSorted (insertEntry key v entries) := by
  induction entries with
  | nil => exact List.pairwise_singleton _ _
  | cons e rest ih =>
      obtain ⟨k, x⟩ := e
      obtain ⟨hfirst, hrest⟩ := List.pairwise_cons.mp h
      obtain hk | rfl | hk := lt_trichotomy key k
      · rw [insertEntry_of_lt hk]
        refine List.pairwise_cons.mpr ⟨?_, h⟩
        intro f hf
        obtain rfl | hf := List.mem_cons.mp hf
        · exact hk
        · exact hk.trans (hfirst f hf)
      · rw [insertEntry_self]
        exact List.pairwise_cons.mpr ⟨hfirst, hrest⟩
      · rw [insertEntry_of_gt hk]
        refine List.pairwise_cons.mpr ⟨?_, ih hrest⟩
        intro f hf
        obtain rfl | hf := mem_insertEntry hf
        · exact hk
        · exact hfirst f hf

/-- A key after all others goes to the end. -/
theorem insertEntry_of_forall_lt (h : ∀ e ∈ entries, e.1 < key) :
    insertEntry key v entries = entries ++ [(key, v)] := by
  induction entries with
  | nil => rfl
  | cons e rest ih =>
      have hrest := ih fun f hf => h f (List.mem_cons_of_mem e hf)
      rw [insertEntry_of_gt (h e List.mem_cons_self), hrest]
      rfl

/-! ## Canonical entries -/

theorem canonicalItems_eq_map (items : List Value) :
    canonicalItems items = items.map canonical := by
  induction items with
  | nil => rw [canonicalItems, List.map_nil]
  | cons v items ih => rw [canonicalItems, ih, List.map_cons]

theorem canonicalEntries_eq_foldl :
    canonicalEntries entries sorted =
      entries.foldl (fun es e => insertEntry e.1 (canonical e.2) es) sorted := by
  induction entries generalizing sorted with
  | nil => rw [canonicalEntries, List.foldl_nil]
  | cons e entries ih => rw [canonicalEntries, ih, List.foldl_cons]

/-- Entries without repeated keys may be written in any order. -/
theorem canonicalEntries_perm {entries' : List (String × Value)} (h : entries.Perm entries')
    (hnodup : (entries.map (·.1)).Nodup) :
    canonicalEntries entries sorted = canonicalEntries entries' sorted := by
  rw [canonicalEntries_eq_foldl, canonicalEntries_eq_foldl]
  apply h.foldl_eq'
  intro e he f hf es
  by_cases hkey : e.1 = f.1
  · rw [List.inj_on_of_nodup_map hnodup he hf hkey]
  · exact insertEntry_comm (Ne.symm hkey)

theorem mem_canonicalEntries {e : String × Value} (h : e ∈ canonicalEntries entries sorted) :
    e ∈ sorted ∨ ∃ f ∈ entries, e.2 = canonical f.2 := by
  induction entries generalizing sorted with
  | nil =>
      rw [canonicalEntries] at h
      exact .inl h
  | cons first entries ih =>
      rw [canonicalEntries] at h
      obtain h | ⟨f, hf, hvalue⟩ := ih h
      · obtain rfl | h := mem_insertEntry h
        · exact .inr ⟨first, List.mem_cons_self, rfl⟩
        · exact .inl h
      · exact .inr ⟨f, List.mem_cons_of_mem first hf, hvalue⟩

theorem areSorted_canonicalEntries (h : AreSorted sorted) :
    AreSorted (canonicalEntries entries sorted) := by
  induction entries generalizing sorted with
  | nil =>
      rw [canonicalEntries]
      exact h
  | cons e entries ih =>
      rw [canonicalEntries]
      exact ih h.insertEntry

/-- Entries in canonical form: sorted, with values in canonical form. -/
structure AreCanonical (entries : List (String × Value)) : Prop where
  sorted : AreSorted entries
  canonical_eq : ∀ e ∈ entries, canonical e.2 = e.2

/-- Canonical entries are put in place one after the other. -/
theorem AreCanonical.canonicalEntries_append (h : AreCanonical (sorted ++ entries)) :
    canonicalEntries entries sorted = sorted ++ entries := by
  induction entries generalizing sorted with
  | nil => rw [canonicalEntries, List.append_nil]
  | cons e entries ih =>
      have hlast : ∀ f ∈ sorted, f.1 < e.1 := fun f hf =>
        (List.pairwise_append.mp h.sorted).2.2 f hf e List.mem_cons_self
      have hvalue : canonical e.2 = e.2 := h.canonical_eq e (by simp)
      have happend : sorted ++ e :: entries = (sorted ++ [e]) ++ entries := by simp
      rw [happend] at h
      rw [canonicalEntries, hvalue, insertEntry_of_forall_lt hlast, ih h, ← happend]

theorem AreCanonical.canonicalEntries_eq (h : AreCanonical entries) :
    canonicalEntries entries [] = entries :=
  @AreCanonical.canonicalEntries_append entries [] h

theorem areCanonical_canonicalEntries
    (h : ∀ e ∈ entries, canonical (canonical e.2) = canonical e.2) :
    AreCanonical (canonicalEntries entries []) := by
  refine ⟨areSorted_canonicalEntries .nil, ?_⟩
  intro e he
  obtain hnil | ⟨f, hf, hvalue⟩ := mem_canonicalEntries he
  · cases hnil
  · rw [hvalue, h f hf]

/-- A canonical form is its own canonical form. -/
theorem canonical_canonical (v : Value) : canonical (canonical v) = canonical v := by
  induction v using Value.induction with
  | null => simp [canonical]
  | bool b => simp [canonical]
  | int n => simp [canonical]
  | text s => simp [canonical]
  | unreadable => simp [canonical]
  | float x => cases x <;> simp [canonical]
  | special form v ih =>
      rw [canonical]
      exact ih
  | list items ih =>
      rw [canonical, canonical, canonicalItems_eq_map, canonicalItems_eq_map, List.map_map]
      exact congrArg Value.list (List.map_congr_left ih)
  | table entries ih =>
      rw [canonical, canonical, (areCanonical_canonicalEntries ih).canonicalEntries_eq]

end MediaPhases.Value
