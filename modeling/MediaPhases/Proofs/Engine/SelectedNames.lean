import MediaPhases.Proofs.Engine.Warnings
import Mathlib.Data.List.Count

/-!
# Selecting by the same names

Two lists of the same names, in another order or with some names repeated, select the same phases,
since the positions of the phases are sorted and each is taken once.  What is warned of is the same
too.  The warnings themselves are made from the list of names as it was given, so they come in its
order, and a phase that is named twice is warned of twice.
-/

namespace MediaPhases

/-- When each entry is turned into a list, and what is counted occurs in that of one entry alone,
and once, it is counted as often as that entry. -/
theorem count_flatMap_eq_count {α β : Type*} [DecidableEq α] [DecidableEq β] {f : α → List β}
    {a : α} {b : β} (hone : (f a).count b = 1) (hother : ∀ x, x ≠ a → b ∉ f x) (l : List α) :
    (l.flatMap f).count b = l.count a := by
  induction l with
  | nil => rfl
  | cons x rest ih =>
      rw [List.flatMap_cons, List.count_append, ih]
      by_cases hx : x = a
      · rw [hx, hone, List.count_cons_self, Nat.add_comm]
      · rw [List.count_eq_zero.mpr (hother x hx), List.count_cons_of_ne hx, Nat.zero_add]

namespace ValidatedPolicy

variable {p : ValidatedPolicy} {names : List String}

/-- A position is chosen as often as its name is given. -/
theorem count_chosen (i : Fin p.graph.names.length) :
    (names.filterMap p.graph.indexOf?).count i = names.count (p.graph.names.get i) := by
  rw [List.count_filterMap, List.count]
  refine List.countP_congr fun name _ => ?_
  rw [beq_iff_eq, beq_iff_eq, inStep_graph.indexed, eq_comm]

/-- A phase is warned of as often as it is named. -/
theorem count_subsetWarnings {w : SubsetWarning} (hw : w ∈ p.graph.subsetWarnings names) :
    (p.graph.subsetWarnings names).count w = names.count w.phase := by
  obtain ⟨i, -, hwarned⟩ := List.mem_flatMap.mp hw
  obtain ⟨j, hj, rfl⟩ := List.mem_map.mp hwarned
  obtain ⟨all, htables⟩ := (inStep_graph (p := p)).tables
  have hedges : (p.graph.edgesOf i).Nodup := htables.nodup i
  have hget := (inStep_graph (p := p)).injective_get
  refine (count_flatMap_eq_count ?_ ?_ _).trans (count_chosen i)
  · refine List.count_eq_one_of_mem ?_ (List.mem_map_of_mem hj)
    refine (hedges.filter _).map fun d d' h => ?_
    exact hget (congrArg SubsetWarning.missing h)
  · intro other hother hmem
    obtain ⟨d, -, heq⟩ := List.mem_map.mp hmem
    exact hother (hget (congrArg SubsetWarning.phase heq))

theorem nodup_subsetWarnings (p : ValidatedPolicy) (hnames : names.Nodup) :
    (p.graph.subsetWarnings names).Nodup := by
  refine List.nodup_iff_count_le_one.mpr fun w => ?_
  by_cases hw : w ∈ p.graph.subsetWarnings names
  · rw [count_subsetWarnings hw]
    exact List.nodup_iff_count_le_one.mp hnames w.phase
  · rw [List.count_eq_zero.mpr hw]
    exact Nat.zero_le 1

end ValidatedPolicy

namespace Runner

variable {p : ValidatedPolicy} {r : Runner} {names names' : List String}

/-- The positions that are taken depend only on which are given. -/
theorem eraseDups_mergeSort_congr {positions positions' : List ℕ}
    (h : ∀ k, k ∈ positions ↔ k ∈ positions') :
    (positions.mergeSort (· ≤ ·)).eraseDups = (positions'.mergeSort (· ≤ ·)).eraseDups := by
  have hsorted := pairwise_lt_eraseDups_mergeSort positions
  refine hsorted.eq_of_mem_iff (pairwise_lt_eraseDups_mergeSort positions') fun k => ?_
  rw [List.mem_eraseDups, List.mem_eraseDups, List.mem_mergeSort, List.mem_mergeSort, h]

/-- The same names select the same phases. -/
theorem exists_select_of_sameNames
    (hnames : ∀ name ∈ names, name ∈ r.policy.phases.map (·.name))
    (hsame : ∀ name, name ∈ names ↔ name ∈ names') :
    ∃ s warnings warnings',
      r.select names = .ok (s, warnings) ∧ r.select names' = .ok (s, warnings') := by
  obtain ⟨positions, hpositions⟩ := exists_positionsOf hnames
  obtain ⟨positions', hpositions'⟩ := exists_positionsOf fun name hname =>
    hnames name ((hsame name).mpr hname)
  have hmem : ∀ k, k ∈ positions ↔ k ∈ positions' := by
    intro k
    simp only [mem_positions_iff hpositions, mem_positions_iff hpositions', hsame]
  refine ⟨{ r with selection := some (positions.mergeSort (· ≤ ·)).eraseDups },
    r.policy.graph.subsetWarnings names, r.policy.graph.subsetWarnings names', ?_, ?_⟩
  · rw [select, hpositions]
  · rw [select, hpositions', eraseDups_mergeSort_congr hmem]

/-- Two lists of the same names give the same runner, and warnings about the same prerequisites of
the same phases.  A prerequisite is missing as often as the phase that requires it is named, so
that lists without repetitions warn of it once. -/
theorem select_eq_of_sameNames
    (hr : r.IsOf p) (hnames : ∀ name ∈ names, name ∈ p.phases.map (·.name))
    (hsame : ∀ name, name ∈ names ↔ name ∈ names') :
    ∃ s warnings warnings',
      r.select names = .ok (s, warnings) ∧ r.select names' = .ok (s, warnings') ∧
        s.phases = p.phases.filter (·.name ∈ names) ∧
        (∀ w, w ∈ warnings ↔ w ∈ warnings') ∧
        (∀ w ∈ warnings,
          warnings.count w = names.count w.phase ∧ warnings'.count w = names'.count w.phase) ∧
        (names.Nodup → names'.Nodup → warnings.Nodup ∧ warnings.Perm warnings') := by
  obtain rfl := hr.policy_eq
  obtain ⟨s, warnings, warnings', hselect, hselect'⟩ := exists_select_of_sameNames hnames hsame
  have hmem : ∀ w, w ∈ warnings ↔ w ∈ warnings' := by
    intro w
    rw [mem_warnings_iff hr hselect, mem_warnings_iff hr hselect', hsame, hsame]
  have hcount : ∀ w ∈ warnings,
      warnings.count w = names.count w.phase ∧ warnings'.count w = names'.count w.phase := by
    intro w hw
    have hw' := (hmem w).mp hw
    rw [warnings_of_select hselect] at hw ⊢
    rw [warnings_of_select hselect'] at hw' ⊢
    exact ⟨ValidatedPolicy.count_subsetWarnings hw, ValidatedPolicy.count_subsetWarnings hw'⟩
  refine ⟨s, warnings, warnings', hselect, hselect', phases_of_select hselect, hmem, hcount, ?_⟩
  intro hnodup hnodup'
  have honce : warnings.Nodup := by
    rw [warnings_of_select hselect]
    exact r.policy.nodup_subsetWarnings hnodup
  have honce' : warnings'.Nodup := by
    rw [warnings_of_select hselect']
    exact r.policy.nodup_subsetWarnings hnodup'
  exact ⟨honce, (List.perm_ext_iff_of_nodup honce honce').mpr hmem⟩

/-- A phase that lists a prerequisite twice misses it once, but twice when it is named twice. -/
theorem select_mix_tag_mix :
    ∃ s warnings warnings',
      Runner.select { policy := .tangled } ["tag", "mix"] = .ok (s, warnings) ∧
        Runner.select { policy := .tangled } ["mix", "tag", "mix"] = .ok (s, warnings') ∧
        warnings.count ⟨"mix", "cut"⟩ = 1 ∧ warnings'.count ⟨"mix", "cut"⟩ = 2 := by
  have hrunner : IsOf .tangled { policy := .tangled } := .all
  have hnames : ∀ name ∈ ["tag", "mix"], name ∈ ValidatedPolicy.tangled.phases.map (·.name) := by
    simp [ValidatedPolicy.tangled]
  have hsame : ∀ name, name ∈ ["tag", "mix"] ↔ name ∈ ["mix", "tag", "mix"] := by
    simp [or_comm]
  obtain ⟨s, warnings, warnings', hselect, hselect', -, -, hcount, -⟩ :=
    select_eq_of_sameNames hrunner hnames hsame
  have hmissing : ⟨"mix", "cut"⟩ ∈ warnings := by
    refine (mem_warnings_iff hrunner hselect).mpr ⟨by simp, ?_, by simp⟩
    simp [Requires, ValidatedPolicy.tangled]
  exact ⟨s, warnings, warnings', hselect, hselect', hcount _ hmissing⟩

/-- To name a phase twice is no other selection, but its warning comes twice. -/
theorem mix_warned_of_twice :
    (∀ name, name ∈ ["mix"] ↔ name ∈ ["mix", "mix"]) ∧
      ∃ s once twice,
        Runner.select { policy := .chain } ["mix"] = .ok (s, once) ∧
          Runner.select { policy := .chain } ["mix", "mix"] = .ok (s, twice) ∧
          once = [⟨"mix", "cut"⟩] ∧ twice = [⟨"mix", "cut"⟩, ⟨"mix", "cut"⟩] ∧
          ¬once.Perm twice := by
  have hnames : ∀ name ∈ ["mix"],
      name ∈ (Runner.mk .chain none).policy.phases.map (·.name) := by
    simp [ValidatedPolicy.chain]
  have hsame : ∀ name, name ∈ ["mix"] ↔ name ∈ ["mix", "mix"] := by
    simp
  refine ⟨hsame, ?_⟩
  obtain ⟨s, once, twice, honce, htwice⟩ := exists_select_of_sameNames hnames hsame
  have honce' : once = [⟨"mix", "cut"⟩] := (warnings_of_select honce).trans (by cbv)
  have htwice' : twice = [⟨"mix", "cut"⟩, ⟨"mix", "cut"⟩] :=
    (warnings_of_select htwice).trans (by cbv)
  refine ⟨s, once, twice, honce, htwice, honce', htwice', ?_⟩
  intro hperm
  have hlength := hperm.length_eq
  rw [honce', htwice'] at hlength
  cases hlength

end Runner

end MediaPhases
