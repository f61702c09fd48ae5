import Mathlib.Data.List.Chain
import Mathlib.Data.List.Nodup
import Mathlib.Logic.Relation

/-!
# Cycles of a relation

A cycle is written down as the list of the elements that it passes through, which ends where it
starts.  It is simple when it passes through nothing else twice.  Everything on a cycle is reached
from everything else on it, so a relation without cycles has no such list.
-/

namespace MediaPhases

open Relation

variable {α β : Type*} {r : α → α → Prop} {s : β → β → Prop}

/-- Nothing leads back to itself in one or more steps. -/
def Acyclic (r : α → α → Prop) : Prop :=
  ∀ a, ¬TransGen r a a

/-- A list in which each element leads to the next, which begins and ends with the same element
and has no other repetitions. -/
structure IsSimpleCycle (r : α → α → Prop) (path : List α) : Prop where
  two_le_length : 2 ≤ path.length
  head_eq_last : path.head? = path.getLast?
  nodup : path.dropLast.Nodup
  linked : path.IsChain r

theorem IsSimpleCycle.exists_eq
    {path : List α} (h : IsSimpleCycle r path) :
    ∃ a between, path = a :: between ++ [a] := by
  obtain ⟨a, rest, rfl⟩ :=
    List.exists_cons_of_length_pos (Nat.lt_of_lt_of_le Nat.two_pos h.two_le_length)
  have hrest : rest ≠ [] := by
    rintro rfl
    simpa using h.two_le_length
  have hlast : some (rest.getLast hrest) = some a := by
    rw [← List.getLast?_eq_some_getLast hrest, ← List.getLast?_cons_of_ne_nil hrest]
    exact h.head_eq_last.symm
  refine ⟨a, rest.dropLast, ?_⟩
  rw [List.cons_append, ← Option.some.inj hlast, List.dropLast_append_getLast hrest]

/-- Everything on a cycle is reached from everything on it. -/
theorem IsSimpleCycle.transGen
    {path : List α} (h : IsSimpleCycle r path)
    {a b : α} (ha : a ∈ path) (hb : b ∈ path) : TransGen r a b := by
  obtain ⟨c, between, rfl⟩ := h.exists_eq
  have hpairs : (c :: between ++ [c]).Pairwise (TransGen r) :=
    (h.linked.imp fun _ _ => TransGen.single).pairwise
  rw [List.pairwise_append] at hpairs
  obtain ⟨hfront, -, htoEnd⟩ := hpairs
  have hto : ∀ x ∈ c :: between ++ [c], TransGen r x c := by
    intro x hx
    rcases List.mem_append.mp hx with hx | hx
    · exact htoEnd x hx c (List.mem_singleton_self c)
    · rw [List.mem_singleton.mp hx]
      exact htoEnd c List.mem_cons_self c (List.mem_singleton_self c)
  have hfrom : ∀ x ∈ c :: between ++ [c], TransGen r c x := by
    intro x hx
    by_cases hc : x = c
    · rw [hc]
      exact hto c List.mem_cons_self
    · have hmem : x ∈ between := by simpa [hc] using hx
      exact List.rel_of_pairwise_cons hfront hmem
  exact (hto a ha).trans (hfrom b hb)

/-- A relation with a cycle is not acyclic. -/
theorem IsSimpleCycle.not_acyclic
    {path : List α} (h : IsSimpleCycle r path) : ¬Acyclic r := by
  obtain ⟨a, between, rfl⟩ := h.exists_eq
  intro hacyclic
  exact hacyclic a (h.transGen List.mem_cons_self List.mem_cons_self)

/-- If nothing leads to itself in one step, a cycle has at least two elements, the first of which
is written down twice. -/
theorem IsSimpleCycle.three_le_length
    {path : List α} (h : IsSimpleCycle r path) (hr : ∀ a, ¬r a a) :
    3 ≤ path.length := by
  obtain ⟨a, between, rfl⟩ := h.exists_eq
  cases between with
  | nil => exact absurd (List.isChain_pair.mp h.linked) (hr a)
  | cons b rest => simp

/-- A step from the end of a walk back into it closes a simple cycle, which is the part of the walk
from there on. -/
theorem isSimpleCycle_of_back_step
    [DecidableEq α] {walk : List α} {a b : α}
    (hlinked : walk.IsChain r) (hnodup : walk.Nodup)
    (hlast : walk.getLast? = some b) (hback : r b a) (ha : a ∈ walk) :
    IsSimpleCycle r (walk.dropWhile (· ≠ a) ++ [a]) := by
  obtain ⟨before, after, rfl, hbefore⟩ := List.eq_append_cons_of_mem ha
  have hdrop : (before ++ a :: after).dropWhile (· ≠ a) = a :: after := by
    rw [List.dropWhile_append_of_pos, List.dropWhile_cons_of_neg (by simp)]
    intro x hx
    simpa using fun hxa : x = a => hbefore (hxa ▸ hx)
  have hpart : a :: after <:+ before ++ a :: after := List.suffix_append _ _
  rw [hdrop]
  constructor
  case two_le_length => simp
  case head_eq_last => rw [List.getLast?_concat, List.cons_append, List.head?_cons]
  case nodup =>
    rw [List.dropLast_concat]
    exact hnodup.sublist hpart.sublist
  case linked =>
    refine (hlinked.suffix hpart).append (List.isChain_singleton a) ?_
    intro x hx y hy
    obtain rfl : a = y := by simpa using hy
    rw [List.getLast?_append_of_ne_nil _ (List.cons_ne_nil _ _)] at hlast
    obtain rfl : b = x := Option.some.inj (hlast.symm.trans hx)
    exact hback

/-- Renaming the elements of a cycle gives a cycle. -/
theorem IsSimpleCycle.map
    {path : List α} (h : IsSimpleCycle r path) {f : α → β}
    (hf : Function.Injective f) (hrs : ∀ a b, r a b → s (f a) (f b)) :
    IsSimpleCycle s (path.map f) where
  two_le_length := by simpa using h.two_le_length
  head_eq_last := by simp [h.head_eq_last]
  nodup := by
    rw [← List.map_dropLast]
    exact h.nodup.map hf
  linked := List.isChain_map_of_isChain f hrs h.linked

/-- Renaming keeps a relation acyclic when every step of the one relation comes from a step of the
other. -/
theorem Acyclic.of_map
    {f : α → β} (h : Acyclic s) (hrs : ∀ a b, r a b → s (f a) (f b)) : Acyclic r := by
  intro a ha
  exact h (f a) (ha.lift f hrs)

end MediaPhases
