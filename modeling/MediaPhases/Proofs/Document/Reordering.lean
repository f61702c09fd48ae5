import MediaPhases.Document.Json
import MediaPhases.Proofs.Document.Record
import MediaPhases.Proofs.Document.Value
import Mathlib.Data.List.Pairwise
import Mathlib.Data.List.Perm.Basic
import Mathlib.Logic.Relation

/-!
# Reordered documents

A value is reordered step by step, each step giving the entries of one table in another order.
Two readings agree when they give the same or are both refused; which fault is reported for a
document with several does depend on their order.  Readers that look at values of their own kind
do not depend on the order of entries, and neither do the ways of putting readers together, as
long as the fields of a record are put into it independently of each other.
-/

namespace MediaPhases

variable {α β : Type}

/-! ## Agreement -/

/-- Both readings give the same, or both are refused. -/
def Agree (x y : Except Fault α) : Prop :=
  ∀ a, x = .ok a ↔ y = .ok a

namespace Agree

variable {x y z : Except Fault α}

theorem refl (x : Except Fault α) : Agree x x :=
  fun _ => Iff.rfl

theorem symm (h : Agree x y) : Agree y x :=
  fun a => (h a).symm

theorem trans (h : Agree x y) (h' : Agree y z) : Agree x z :=
  fun a => (h a).trans (h' a)

theorem of_refused (hx : ∀ a, x ≠ .ok a) (hy : ∀ a, y ≠ .ok a) : Agree x y :=
  fun a => iff_of_false (hx a) (hy a)

theorem map (h : Agree x y) (f : α → β) : Agree (x.map f) (y.map f) := by
  intro b
  rw [map_eq_ok_iff, map_eq_ok_iff]
  exact exists_congr fun a => and_congr_left fun _ => h a

theorem bind {f g : α → Except Fault β} (h : Agree x y) (hf : ∀ a, Agree (f a) (g a)) :
    Agree (x >>= f) (y >>= g) := by
  intro b
  rw [bind_eq_ok_iff, bind_eq_ok_iff]
  exact exists_congr fun a => and_congr (h a) (hf a b)

end Agree

/-! ## Steps -/

/-- One table in the value, whose entries have the given property, is written with its entries in
another order. -/
inductive Value.Reorders (P : List (String × Value) → Prop) : Value → Value → Prop where
  | here {entries entries' : List (String × Value)} (hP : P entries)
      (h : entries.Perm entries') : Reorders P (.table entries) (.table entries')
  | item {before after : List Value} {v w : Value} (h : Reorders P v w) :
      Reorders P (.list (before ++ v :: after)) (.list (before ++ w :: after))
  | entry {before after : List (String × Value)} {key : String} {v w : Value}
      (h : Reorders P v w) :
      Reorders P (.table (before ++ (key, v) :: after)) (.table (before ++ (key, w) :: after))

/-- No two of the entries have one key. -/
def Value.AreDistinct (entries : List (String × Value)) : Prop :=
  (entries.map (·.1)).Nodup

/-- The second value is the first with the entries of its tables in another order, at any
depth. -/
def Value.Reordered : Value → Value → Prop :=
  Relation.ReflTransGen (Value.Reorders fun _ => True)

variable {P : List (String × Value) → Prop} {v w : Value} {d : Dialect}

namespace Value

/-- Where any table may be reordered, every step can be taken back. -/
theorem Reorders.symm (h : Reorders (fun _ => True) v w) : Reorders (fun _ => True) w v := by
  induction h with
  | here _ h => exact .here trivial h.symm
  | item _ ih => exact .item ih
  | entry _ ih => exact .entry ih

theorem Reorders.isReadable_eq (h : Reorders P v w) : v.isReadable = w.isReadable := by
  rw [Bool.eq_iff_iff]
  induction h with
  | here _ h =>
      rw [isReadable, isReadable, haveReadable_iff, haveReadable_iff]
      exact forall_congr' fun e => imp_congr_left h.mem_iff
  | item _ ih =>
      simp only [isReadable, areReadable_iff, List.forall_mem_append, List.forall_mem_cons, ih]
  | entry _ ih =>
      simp only [isReadable, haveReadable_iff, List.forall_mem_append, List.forall_mem_cons, ih]

/-- Reordering the tables of a value without repeated keys only moves entries with keys of their
own, and no keys are repeated afterwards. -/
theorem HasDistinctKeys.reorders (hv : v.HasDistinctKeys) (h : Reorders P v w) :
    Reorders AreDistinct v w ∧ w.HasDistinctKeys := by
  induction h with
  | here _ h =>
      obtain ⟨hnodup, hvalues⟩ := hasDistinctKeys_table.mp hv
      refine ⟨.here hnodup h, hasDistinctKeys_table.mpr ⟨?_, ?_⟩⟩
      · exact (h.map _).nodup_iff.mp hnodup
      · exact fun e he => hvalues e (h.mem_iff.mpr he)
  | item _ ih =>
      simp only [hasDistinctKeys_list, List.forall_mem_append, List.forall_mem_cons] at hv ⊢
      obtain ⟨hbefore, hitem, hafter⟩ := hv
      obtain ⟨hsteps, hkeys⟩ := ih hitem
      exact ⟨.item hsteps, hbefore, hkeys, hafter⟩
  | entry _ ih =>
      simp only [hasDistinctKeys_table, List.forall_mem_append, List.forall_mem_cons] at hv ⊢
      obtain ⟨hnodup, hbefore, hentry, hafter⟩ := hv
      obtain ⟨hsteps, hkeys⟩ := ih hentry
      refine ⟨.entry hsteps, ?_, hbefore, hkeys, hafter⟩
      simpa using hnodup

/-- A value without repeated keys is reordered by moving entries with keys of their own. -/
theorem HasDistinctKeys.reordered (hv : v.HasDistinctKeys) (h : Reordered v w) :
    Relation.ReflTransGen (Reorders AreDistinct) v w := by
  have hboth : Relation.ReflTransGen (Reorders AreDistinct) v w ∧ w.HasDistinctKeys := by
    induction h with
    | refl => exact ⟨.refl, hv⟩
    | tail _ hlast ih =>
        obtain ⟨hsteps, hkeys⟩ := ih
        obtain ⟨hstep, hkeys'⟩ := hkeys.reorders hlast
        exact ⟨hsteps.tail hstep, hkeys'⟩
  exact hboth.1

theorem isReadable_eq_of_steps (h : Relation.ReflTransGen (Reorders P) v w) :
    v.isReadable = w.isReadable := by
  induction h with
  | refl => rfl
  | tail _ hlast ih => exact ih.trans hlast.isReadable_eq

end Value

/-! ## Readers -/

/-- The reader does not depend on the order of entries. -/
def Reader.Unordered (P : List (String × Value) → Prop) (d : Dialect) (r : Reader α) : Prop :=
  ∀ v w, Value.Reorders P v w → Agree (r d v) (r d w)

namespace Reader

variable {r : Reader α}

theorem Unordered.agree (hr : Unordered P d r) (h : Relation.ReflTransGen (Value.Reorders P) v w) :
    Agree (r d v) (r d w) := by
  induction h with
  | refl => exact .refl _
  | tail _ hlast ih => exact ih.trans (hr _ _ hlast)

/-- A reader of neither lists nor tables. -/
theorem unordered_of_refuses (hlist : ∀ vs a, r d (.list vs) ≠ .ok a)
    (htable : ∀ entries a, r d (.table entries) ≠ .ok a) : Unordered P d r := by
  intro v w h
  cases h with
  | here _ _ => exact .of_refused (htable _) (htable _)
  | item _ => exact .of_refused (hlist _) (hlist _)
  | entry _ => exact .of_refused (htable _) (htable _)

theorem unordered_text : Unordered P d text :=
  unordered_of_refuses (fun _ _ => nofun) fun _ _ => nofun

theorem unordered_bool : Unordered P d bool :=
  unordered_of_refuses (fun _ _ => nofun) fun _ _ => nofun

theorem unordered_natBelow {limit : ℕ} {want : String} : Unordered P d (natBelow limit want) :=
  unordered_of_refuses (fun _ _ => nofun) fun _ _ => nofun

theorem Unordered.optional (hr : Unordered P d r) : Unordered P d (.optional r) := by
  intro v w h
  have hread := (hr v w h).map some
  cases h with
  | here _ _ => exact hread
  | item _ => exact hread
  | entry _ => exact hread

theorem Unordered.checked (hr : Unordered P d r) (check : α → Except Fault β) :
    Unordered P d (.checked r check) :=
  fun v w h => (hr v w h).bind fun _ => .refl _

theorem Unordered.items (hr : Unordered P d r) (h : Value.Reorders P v w)
    (before after : List Value) :
    Agree (items r d (before ++ v :: after)) (Reader.items r d (before ++ w :: after)) := by
  induction before with
  | nil => exact (hr v w h).bind fun _ => .refl _
  | cons u before ih => exact (Agree.refl (r d u)).bind fun _ => ih.bind fun _ => .refl _

theorem Unordered.listOf (hr : Unordered P d r) : Unordered P d (.listOf r) := by
  intro v w h
  cases h with
  | here _ _ => exact .of_refused nofun nofun
  | item h => exact hr.items h _ _
  | entry _ => exact .of_refused nofun nofun

end Reader

/-! ## Choices -/

/-- A choice is a table of one entry or no table at all. -/
structure Dialect.IsUnordered (P : List (String × Value) → Prop) (d : Dialect) : Prop where
  single : ∀ key v, d.choice (.table [(key, v)]) = .ok ⟨key, some v, none⟩
  several : ∀ entries c, entries.length ≠ 1 → d.choice (.table entries) = .ok c → c.leftover ≠ none
  list : ∀ vs c, d.choice (.list vs) ≠ .ok c
  noContent : ∀ v w, Value.Reorders P v w → Agree (d.noContent v) (d.noContent w)

theorem Json.isUnordered_dialect : Json.dialect.IsUnordered P where
  single _ _ := rfl
  several entries c hlength hchoice := by
    match entries, hchoice with
    | [_], _ => exact absurd rfl hlength
    | _ :: _ :: _, hchoice =>
      cases hchoice
      nofun
  list _ _ := nofun
  noContent v w h := by
    cases h with
    | here _ _ => exact .of_refused nofun nofun
    | item _ => exact .of_refused nofun nofun
    | entry _ => exact .of_refused nofun nofun

namespace Reader

variable {names : List String}
  {content : String → Option (Dialect → Option Value → Except Fault α)}

theorem choiceOf_single (hd : d.IsUnordered P) {key : String} {a : α} :
    choiceOf names content d (.table [(key, v)]) = .ok a ↔
      ∃ read, content key = some read ∧ read d (some v) = .ok a := by
  rw [choiceOf_eq_ok_iff, hd.single]
  constructor
  · rintro ⟨_, _, read, hchoice, hcontent, hread⟩
    cases hchoice
    exact ⟨read, hcontent, hread⟩
  · rintro ⟨read, hcontent, hread⟩
    exact ⟨key, some v, read, rfl, hcontent, hread⟩

theorem choiceOf_several_ne_ok (hd : d.IsUnordered P) {entries : List (String × Value)}
    (hlength : entries.length ≠ 1) (a : α) : choiceOf names content d (.table entries) ≠ .ok a := by
  intro h
  obtain ⟨_, _, _, hchoice, -⟩ := choiceOf_eq_ok_iff.mp h
  exact hd.several entries _ hlength hchoice rfl

theorem choiceOf_list_ne_ok (hd : d.IsUnordered P) (vs : List Value) (a : α) :
    choiceOf names content d (.list vs) ≠ .ok a := by
  intro h
  obtain ⟨_, _, _, hchoice, -⟩ := choiceOf_eq_ok_iff.mp h
  exact hd.list vs _ hchoice

/-- A choice does not depend on the order of entries when its contents do not. -/
theorem unordered_choiceOf (hd : d.IsUnordered P)
    (hcontent : ∀ key read, content key = some read → ∀ v w, Value.Reorders P v w →
      Agree (read d (some v)) (read d (some w))) : Unordered P d (choiceOf names content) := by
  intro v w h
  cases h with
  | @here entries entries' _ h =>
      by_cases hlength : entries.length = 1
      · obtain ⟨e, rfl⟩ := List.length_eq_one_iff.mp hlength
        obtain rfl := List.singleton_perm.mp h
        exact .refl _
      · exact .of_refused (choiceOf_several_ne_ok hd hlength)
          (choiceOf_several_ne_ok hd (h.length_eq ▸ hlength))
  | item _ => exact .of_refused (choiceOf_list_ne_ok hd _) (choiceOf_list_ne_ok hd _)
  | @entry before after key v w h =>
      by_cases hlength : before.length + after.length = 0
      · obtain ⟨hbefore, hafter⟩ := Nat.add_eq_zero_iff.mp hlength
        rw [List.length_eq_zero_iff] at hbefore hafter
        subst hbefore hafter
        intro a
        rw [List.nil_append, List.nil_append, choiceOf_single hd, choiceOf_single hd]
        exact exists_congr fun read => and_congr_right fun hread => hcontent key read hread v w h a
      · have hlength' (u : Value) : (before ++ (key, u) :: after).length ≠ 1 := by
          simp only [List.length_append, List.length_cons]
          omega
        exact .of_refused (choiceOf_several_ne_ok hd (hlength' v))
          (choiceOf_several_ne_ok hd (hlength' w))

theorem unordered_oneOf (hd : d.IsUnordered P) (named : List (String × α)) :
    Unordered P d (oneOf named) := by
  apply unordered_choiceOf hd
  intro key read hread v w h
  obtain ⟨a, -, rfl⟩ := Option.map_eq_some_iff.mp hread
  exact (hd.noContent v w h).map _

end Reader

/-! ## Records -/

/-- What the field puts into a record does not depend on the order of entries. -/
def Field.Unordered (P : List (String × Value) → Prop) (d : Dialect) (f : Field α) : Prop :=
  ∀ v w, Value.Reorders P v w → ∀ a, Agree (f.store d v a) (f.store d w a)

theorem Field.unordered_of {name : String} {presence : Presence} {r : Reader β}
    {put : β → α → α} (hr : r.Unordered P d) : (Field.of name presence r put).Unordered P d :=
  fun v w h _ => (hr v w h).map _

/-- The two fields are put into a record independently of each other. -/
def Field.Commute (d : Dialect) (f g : Field α) : Prop :=
  ∀ u v a, Agree (f.store d u a >>= g.store d v) (g.store d v a >>= f.store d u)

theorem Field.commute_of {γ : Type} {name name' : String} {presence presence' : Presence}
    {r : Reader β} {r' : Reader γ} {put : β → α → α} {put' : γ → α → α}
    (h : ∀ b c a, put' c (put b a) = put b (put' c a)) :
    Field.Commute d (.of name presence r put) (.of name' presence' r' put') := by
  intro u v a b
  simp only [bind_eq_ok_iff, store_of_eq_ok_iff]
  constructor
  · rintro ⟨_, ⟨x, hx, rfl⟩, y, hy, rfl⟩
    exact ⟨_, ⟨y, hy, rfl⟩, x, hx, (h x y a).symm⟩
  · rintro ⟨_, ⟨y, hy, rfl⟩, x, hx, rfl⟩
    exact ⟨_, ⟨x, hx, rfl⟩, y, hy, h x y a⟩

instance : Std.Symm (Field.Commute (α := α) d) where
  symm _ _ h u v a := (h v u a).symm

namespace Schema

variable {s : Schema α} {a b : α}

theorem missing?_congr {seen seen' : List String} (h : ∀ key, key ∈ seen ↔ key ∈ seen') :
    s.missing? seen = s.missing? seen' := by
  simp only [missing?, List.contains_eq_mem, h]

theorem readEntries_congr {entries : List (String × Value)} {seen seen' : List String}
    (h : ∀ key, key ∈ seen ↔ key ∈ seen') :
    s.readEntries d entries seen a = s.readEntries d entries seen' a := by
  induction entries generalizing seen seen' a with
  | nil => rw [readEntries, readEntries, missing?_congr h]
  | cons e entries ih =>
      obtain ⟨key, u⟩ := e
      have hcons : ∀ k, k ∈ key :: seen ↔ k ∈ key :: seen' := by
        intro k
        rw [List.mem_cons, List.mem_cons, h]
      have hcontains : seen.contains key = seen'.contains key := by
        simp only [List.contains_eq_mem, h]
      simp only [readEntries, hcontains, ih h, ih hcons]

/-- Entries are accepted in one order when they are in another. -/
theorem readEntries_of_perm (hcommute : s.fields.Pairwise (Field.Commute d))
    {entries entries' : List (String × Value)} (h : entries.Perm entries') {seen : List String}
    (hread : s.readEntries d entries seen a = .ok b) :
    s.readEntries d entries' seen a = .ok b := by
  induction h generalizing seen a with
  | nil => exact hread
  | cons e _ ih =>
      rw [readEntries_cons_eq_ok_iff] at hread ⊢
      obtain ⟨hfield, hopen, hread⟩ | ⟨f, a', hfield, hnew, hstore, hread⟩ := hread
      · exact .inl ⟨hfield, hopen, ih hread⟩
      · exact .inr ⟨f, a', hfield, hnew, hstore, ih hread⟩
  | trans _ _ ih ih' => exact ih' (ih hread)
  | swap e e' rest =>
      obtain ⟨key, u⟩ := e
      obtain ⟨key', u'⟩ := e'
      simp only [readEntries_cons_eq_ok_iff] at hread ⊢
      obtain ⟨hfield', hopen, hread⟩ | ⟨f', a', hfield', hnew', hstore', hread⟩ := hread
      · obtain ⟨hfield, -, hread⟩ | ⟨f, a', hfield, hnew, hstore, hread⟩ := hread
        · exact .inl ⟨hfield, hopen, .inl ⟨hfield', hopen, hread⟩⟩
        · exact .inr ⟨f, a', hfield, hnew, hstore, .inl ⟨hfield', hopen, hread⟩⟩
      · obtain ⟨hfield, hopen, hread⟩ | ⟨f, a'', hfield, hnew, hstore, hread⟩ := hread
        · exact .inl ⟨hfield, hopen, .inr ⟨f', a', hfield', hnew', hstore', hread⟩⟩
        · -- No key is accepted twice, so the entries belong to two fields, which commute.
          have hne : key ≠ key' := fun heq => hnew (heq ▸ List.mem_cons_self)
          have hfields : f' ≠ f := by
            rintro rfl
            exact hne ((field?_eq_some hfield).2.symm.trans (field?_eq_some hfield').2)
          have hcomm := hcommute.forall (field?_eq_some hfield').1 (field?_eq_some hfield).1 hfields
          have hboth := bind_eq_ok_iff.mpr ⟨a', hstore', hstore⟩
          obtain ⟨c, hc, hc'⟩ := bind_eq_ok_iff.mp ((hcomm u' u a a'').mp hboth)
          have hseen : ∀ k, k ∈ key :: key' :: seen ↔ k ∈ key' :: key :: seen := by
            intro k
            simp only [List.mem_cons]
            exact or_left_comm
          rw [readEntries_congr hseen] at hread
          refine .inr ⟨f, c, hfield, fun hmem => hnew (List.mem_cons_of_mem _ hmem), hc,
            .inr ⟨f', a'', hfield', ?_, hc', hread⟩⟩
          rintro (_ | ⟨_, hmem⟩)
          · exact hne rfl
          · exact hnew' hmem

/-- An entry with a reordered value. -/
theorem readEntries_replace (hfields : ∀ f ∈ s.fields, f.Unordered P d) (h : Value.Reorders P v w)
    {before after : List (String × Value)} {key : String} {seen : List String} :
    Agree (s.readEntries d (before ++ (key, v) :: after) seen a)
      (s.readEntries d (before ++ (key, w) :: after) seen a) := by
  induction before generalizing seen a with
  | nil =>
      intro b
      simp only [List.nil_append, readEntries_cons_eq_ok_iff]
      refine or_congr_right (exists_congr fun f => exists_congr fun a' => ?_)
      refine and_congr_right fun hfield => and_congr_right fun _ => and_congr_left fun _ => ?_
      exact hfields f (field?_eq_some hfield).1 v w h a a'
  | cons e before ih =>
      obtain ⟨k, u⟩ := e
      intro b
      simp only [List.cons_append, readEntries_cons_eq_ok_iff]
      refine or_congr ?_ (exists_congr fun f => exists_congr fun a' => ?_)
      · exact and_congr_right fun _ => and_congr_right fun _ => ih b
      · exact and_congr_right fun _ => and_congr_right fun _ => and_congr_right fun _ => ih b

theorem readItems_replace {fs : List (Field α)} (hfields : ∀ f ∈ fs, f.Unordered P d)
    (h : Value.Reorders P v w) {before after : List Value} {n : ℕ} :
    Agree (s.readItems d fs n (before ++ v :: after) a)
      (s.readItems d fs n (before ++ w :: after) a) := by
  induction fs generalizing before n a with
  | nil => cases before <;> simp only [List.nil_append, List.cons_append, readItems,
      List.length_cons, List.length_append] <;> exact .refl _
  | cons f fs ih =>
      have hrest : ∀ g ∈ fs, g.Unordered P d := fun g hg => hfields g (List.mem_cons_of_mem f hg)
      have hstep (u : Value) (vs : List Value) : s.readItems d (f :: fs) n (u :: vs) a =
          f.store d u a >>= fun a => s.readItems d fs (n + 1) vs a := by
        rw [readItems]
        cases f.store d u a <;> rfl
      cases before with
      | nil =>
          rw [List.nil_append, List.nil_append, hstep, hstep]
          exact (hfields f List.mem_cons_self v w h a).bind fun _ => .refl _
      | cons u before =>
          rw [List.cons_append, List.cons_append, hstep, hstep]
          exact (Agree.refl _).bind fun _ => ih hrest

/-- A record does not depend on the order of entries when its fields do not and are put into it
independently of each other. -/
theorem unordered_read (hfields : ∀ f ∈ s.fields, f.Unordered P d)
    (hcommute : s.fields.Pairwise (Field.Commute d)) : s.read.Unordered P d := by
  intro v w h
  cases h with
  | here _ h => exact fun b => ⟨readEntries_of_perm hcommute h, readEntries_of_perm hcommute h.symm⟩
  | item h => exact readItems_replace hfields h
  | entry h => exact readEntries_replace hfields h

end Schema

end MediaPhases
