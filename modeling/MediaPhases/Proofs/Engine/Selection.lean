import MediaPhases.Engine.Runner
import MediaPhases.Proofs.Graph.Prerequisites
import Mathlib.Data.List.Perm.Subperm
import Mathlib.Data.List.Sort

/-!
# The phases of a runner

A runner of a policy takes all its phases or those that were selected by name.  Either way the
phases that it goes through are phases of the policy, each at most once and in declared order.
-/

namespace MediaPhases

/-- The entries at increasing positions stand in the order of the list. -/
theorem filterMap_getElem?_sublist
    {α : Type*} {l : List α} {positions : List ℕ} (hsorted : positions.Pairwise (· < ·))
    {k : ℕ} (hk : ∀ i ∈ positions, k ≤ i) :
    (positions.filterMap (l[·]?)).Sublist (l.drop k) := by
  induction positions generalizing k with
  | nil => exact List.nil_sublist _
  | cons i rest ih =>
      obtain ⟨hfirst, hrest⟩ := List.pairwise_cons.mp hsorted
      have hdrop : (l.drop i).Sublist (l.drop k) :=
        List.drop_sublist_drop_left l (hk i List.mem_cons_self)
      have htail : (rest.filterMap (l[·]?)).Sublist (l.drop (i + 1)) := ih hrest hfirst
      cases hget : l[i]? with
      | none =>
          rw [List.filterMap_cons_none hget]
          exact (htail.trans (List.drop_sublist_drop_left l (Nat.le_succ i))).trans hdrop
      | some a =>
          obtain ⟨hi, rfl⟩ := List.getElem?_eq_some_iff.mp hget
          rw [List.filterMap_cons_some hget]
          rw [List.drop_eq_getElem_cons hi] at hdrop
          exact (htail.cons_cons _).trans hdrop

/-- A sublist of a list without repetitions is found by filtering for its entries. -/
theorem eq_filter_of_sublist
    {α : Type*} {l sub : List α} {q : α → Bool} (hsub : sub.Sublist l) (hnodup : l.Nodup)
    (hmem : ∀ a ∈ l, a ∈ sub ↔ q a = true) : sub = l.filter q := by
  have hself : sub.filter q = sub :=
    List.filter_eq_self.mpr fun a ha => (hmem a (hsub.subset ha)).mp ha
  have hfilter : sub.Sublist (l.filter q) := by
    rw [← hself]
    exact hsub.filter q
  have hsubset : l.filter q ⊆ sub := by
    intro a ha
    obtain ⟨hal, hq⟩ := List.mem_filter.mp ha
    exact (hmem a hal).mpr hq
  exact hfilter.eq_of_length_le ((hnodup.filter q).subperm hsubset).length_le

namespace Runner

/-- The runners of a policy: the one that takes all phases, and those that come of selecting
phases by name. -/
inductive IsOf (p : ValidatedPolicy) : Runner → Prop where
  | all : IsOf p { policy := p }
  | select {r s : Runner} {names : List String} {warnings : List SubsetWarning}
      (hr : IsOf p r) (h : r.select names = .ok (s, warnings)) : IsOf p s

theorem select_eq_ok
    {r s : Runner} {names : List String} {warnings : List SubsetWarning}
    (h : r.select names = .ok (s, warnings)) :
    ∃ positions, positionsOf r.policy.graph names = .ok positions ∧
      s = { r with selection := some (positions.mergeSort (· ≤ ·)).eraseDups } := by
  rw [select] at h
  cases hpositions : positionsOf r.policy.graph names with
  | error failure =>
      rw [hpositions] at h
      cases h
  | ok positions =>
      rw [hpositions] at h
      cases h
      exact ⟨positions, rfl, rfl⟩

theorem pairwise_lt_eraseDups_mergeSort (positions : List ℕ) :
    (positions.mergeSort (· ≤ ·)).eraseDups.Pairwise (· < ·) := by
  have hle : (positions.mergeSort (· ≤ ·)).eraseDups.Pairwise (· ≤ ·) :=
    (List.pairwise_mergeSort' (· ≤ ·) positions).sublist (eraseDups_sublist _)
  have hne := nodup_eraseDups (positions.mergeSort (· ≤ ·))
  exact hle.imp₂ (fun _ _ hle hne => Nat.lt_of_le_of_ne hle hne) hne

variable {p : ValidatedPolicy} {r : Runner} {names : List String}

theorem mem_positions_iff
    {g : DependencyGraph} {positions : List ℕ} (h : positionsOf g names = .ok positions) {k : ℕ} :
    k ∈ positions ↔ ∃ name ∈ names, ∃ i, g.indexOf? name = some i ∧ i.val = k := by
  induction names generalizing positions with
  | nil =>
      cases h
      simp
  | cons name rest ih =>
      rw [positionsOf] at h
      cases hindex : g.indexOf? name with
      | none =>
          rw [hindex] at h
          cases h
      | some i =>
          cases hrest : positionsOf g rest with
          | error failure =>
              rw [hindex, hrest] at h
              cases h
          | ok more =>
              rw [hindex, hrest] at h
              cases h
              simp [hindex, ih hrest, eq_comm]

theorem exists_positionsOf (hnames : ∀ name ∈ names, name ∈ p.phases.map (·.name)) :
    ∃ positions, positionsOf p.graph names = .ok positions := by
  induction names with
  | nil => exact ⟨[], rfl⟩
  | cons name rest ih =>
      obtain ⟨i, hi⟩ := ValidatedPolicy.exists_indexOf? (hnames name List.mem_cons_self)
      obtain ⟨more, hmore⟩ := ih fun other hother => hnames other (List.mem_cons_of_mem _ hother)
      refine ⟨i.val :: more, ?_⟩
      rw [positionsOf, hi, hmore]
      rfl

/-- The names of phases can be selected. -/
theorem exists_select (hnames : ∀ name ∈ names, name ∈ r.policy.phases.map (·.name)) :
    ∃ s warnings, r.select names = .ok (s, warnings) := by
  obtain ⟨positions, hpositions⟩ := exists_positionsOf hnames
  rw [select, hpositions]
  exact ⟨_, _, rfl⟩

/-- A runner with a selection goes through the phases of the policy that are named. -/
theorem phases_of_select
    {s : Runner} {warnings : List SubsetWarning} (h : r.select names = .ok (s, warnings)) :
    s.phases = r.policy.phases.filter (·.name ∈ names) := by
  obtain ⟨positions, hpositions, rfl⟩ := select_eq_ok h
  have hsub : ((positions.mergeSort (· ≤ ·)).eraseDups.filterMap
      (r.policy.phases[·]?)).Sublist r.policy.phases :=
    filterMap_getElem?_sublist (pairwise_lt_eraseDups_mergeSort positions) fun i _ => Nat.zero_le i
  change ((positions.mergeSort (· ≤ ·)).eraseDups.filterMap (r.policy.phases[·]?)) = _
  refine eq_filter_of_sublist hsub (List.Nodup.of_map _ r.policy.nodup_names) fun phase hphase => ?_
  have hmem : ∀ k, k ∈ (positions.mergeSort (· ≤ ·)).eraseDups ↔
      ∃ name ∈ names, ∃ i, r.policy.graph.indexOf? name = some i ∧ i.val = k := by
    intro k
    rw [List.mem_eraseDups, List.mem_mergeSort, mem_positions_iff hpositions]
  rw [List.mem_filterMap, decide_eq_true_iff]
  constructor
  · rintro ⟨k, hk, hget⟩
    obtain ⟨name, hname, i, hi, rfl⟩ := (hmem k).mp hk
    have hat := ValidatedPolicy.getElem?_of_indexOf? hi
    rw [hget, Option.map_some, Option.some.injEq] at hat
    rw [hat]
    exact hname
  · intro hname
    obtain ⟨i, hi⟩ := ValidatedPolicy.exists_indexOf? (List.mem_map_of_mem (f := (·.name)) hphase)
    refine ⟨i.val, (hmem i.val).mpr ⟨phase.name, hname, i, hi, rfl⟩, ?_⟩
    obtain ⟨other, hother, hsame⟩ :=
      Option.map_eq_some_iff.mp (ValidatedPolicy.getElem?_of_indexOf? hi)
    rw [hother]
    exact congrArg some
      (eq_of_name_eq r.policy.nodup_names (List.mem_of_getElem? hother) hphase hsame)

theorem IsOf.policy_eq (h : IsOf p r) : r.policy = p := by
  induction h with
  | all => rfl
  | select _ hselect ih =>
      obtain ⟨positions, -, rfl⟩ := select_eq_ok hselect
      exact ih

/-- A runner goes through phases of its policy in declared order. -/
theorem IsOf.phases_sublist (h : IsOf p r) : r.phases.Sublist p.phases := by
  cases h with
  | all => exact List.Sublist.refl _
  | select hr hselect =>
      rw [phases_of_select hselect, hr.policy_eq]
      exact List.filter_sublist

theorem IsOf.nodup_names (h : IsOf p r) : (r.phases.map (·.name)).Nodup :=
  p.nodup_names.sublist (h.phases_sublist.map _)

end Runner

end MediaPhases
