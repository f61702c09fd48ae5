import MediaPhases.Proofs.Graph.Prerequisites
import Mathlib.Data.List.FinRange
import Mathlib.Data.List.Induction
import Mathlib.Data.List.Sort

/-!
# What a graph answers

A dependency graph is asked for the position of a phase, for what a phase requires, for the phases
that require it, and for the first prerequisite that has not completed yet.  Its edges are numbers
of phases, each once, while the list of phases from which it was built has names, some of them
perhaps written twice or before the phase that they name.  The answers can be read off the list all
the same.
-/

namespace MediaPhases

/-! ## What is written twice -/

/-- The second list is what is kept of the first when it is gone through in order and only what has
not been written before is kept. -/
inductive KeepsFirst {α : Type*} : List α → List α → Prop where
  | nil : KeepsFirst [] []
  | first {written kept : List α} {a : α} (h : KeepsFirst written kept) (ha : a ∉ written) :
      KeepsFirst (written ++ [a]) (kept ++ [a])
  | again {written kept : List α} {a : α} (h : KeepsFirst written kept) (ha : a ∈ written) :
      KeepsFirst (written ++ [a]) kept

theorem keepsFirst_eraseDups {α : Type*} [BEq α] [LawfulBEq α] (l : List α) :
    KeepsFirst l l.eraseDups := by
  induction l using List.reverseRecOn with
  | nil => exact .nil
  | append_singleton front a ih =>
      rw [List.eraseDups_append]
      by_cases ha : a ∈ front
      · have hnone : [a].removeAll front = [] := by simp [List.removeAll, ha]
        rw [hnone, List.eraseDups_nil, List.append_nil]
        exact ih.again ha
      · have hone : [a].removeAll front = [a] := by simp [List.removeAll, ha]
        rw [hone]
        exact ih.first ha

namespace DependencyGraph

variable {g : DependencyGraph} {phases : List Phase}

/-! ## Prerequisites and dependents -/

section Edges

variable {a b : String}

theorem mem_prerequisites_iff_edge (h : g.InStep) :
    b ∈ g.prerequisites a ↔
      ∃ i j, g.names.get i = a ∧ g.names.get j = b ∧ Edge g.edgesOf i j := by
  rw [prerequisites]
  cases hindex : g.indexOf? a with
  | none =>
      have ha : a ∉ g.names := h.indexOf?_eq_none_iff.mp hindex
      constructor
      · intro hb
        cases hb
      · rintro ⟨i, j, rfl, -, -⟩
        exact absurd (List.get_mem _ _) ha
  | some i =>
      rw [List.mem_map]
      constructor
      · rintro ⟨j, hj, rfl⟩
        exact ⟨i, j, (h.indexed a i).mp hindex, rfl, hj⟩
      · rintro ⟨i', j, hi, rfl, hedge⟩
        rw [(h.indexed a i').mpr hi] at hindex
        cases hindex
        exact ⟨j, hedge, rfl⟩

theorem mem_dependents_iff_backEdge (h : g.InStep) :
    a ∈ g.dependents b ↔
      ∃ i j, g.names.get i = a ∧ g.names.get j = b ∧ i ∈ g.backEdgesOf j := by
  rw [dependents]
  cases hindex : g.indexOf? b with
  | none =>
      have hb : b ∉ g.names := h.indexOf?_eq_none_iff.mp hindex
      constructor
      · intro ha
        cases ha
      · rintro ⟨i, j, -, rfl, -⟩
        exact absurd (List.get_mem _ _) hb
  | some j =>
      rw [List.mem_map]
      constructor
      · rintro ⟨i, hi, rfl⟩
        exact ⟨i, j, rfl, (h.indexed b j).mp hindex, hi⟩
      · rintro ⟨i, j', rfl, hj, hi⟩
        rw [(h.indexed b j').mpr hj] at hindex
        cases hindex
        exact ⟨i, hi, rfl⟩

/-- One phase is among the dependents of another when the other is among its prerequisites, since
the loop has entered each edge in both tables. -/
theorem InStep.mem_dependents_iff (h : g.InStep) :
    a ∈ g.dependents b ↔ b ∈ g.prerequisites a := by
  obtain ⟨all, htables⟩ := h.tables
  have hconverse : ∀ i j, i ∈ g.backEdgesOf j ↔ Edge g.edgesOf i j := htables.converse
  rw [mem_dependents_iff_backEdge h, mem_prerequisites_iff_edge h]
  simp only [hconverse]

end Edges

/-- The dependents stand in the order of the names, since the loop has entered them in this
order. -/
theorem InStep.dependents_sublist (h : g.InStep) (phase : String) :
    (g.dependents phase).Sublist g.names := by
  obtain ⟨all, htables⟩ := h.tables
  rw [dependents]
  cases g.indexOf? phase with
  | none => exact List.nil_sublist _
  | some i =>
      have hincreasing : (g.backEdgesOf i).Pairwise (· < ·) := htables.increasing i
      have hsome : (g.backEdgesOf i).Sublist (List.finRange g.names.length) := by
        have hsubperm := List.subperm_of_subset hincreasing.nodup fun j _ => List.mem_finRange j
        exact List.sublist_of_subperm_of_pairwise hsubperm (hincreasing.imp le_of_lt)
          ((List.pairwise_lt_finRange _).imp le_of_lt)
      have hall : (List.finRange g.names.length).map (g.names[·]) = g.names :=
        List.map_getElem_finRange g.names
      have hnames := hsome.map (g.names[·])
      rw [hall] at hnames
      exact hnames

/-- No phase is twice among the dependents of another, since no edge has been entered twice. -/
theorem InStep.nodup_dependents (h : g.InStep) (phase : String) : (g.dependents phase).Nodup := by
  obtain ⟨all, htables⟩ := h.tables
  rw [dependents]
  cases g.indexOf? phase with
  | none => exact List.nodup_nil
  | some i =>
      have hincreasing : (g.backEdgesOf i).Pairwise (· < ·) := htables.increasing i
      exact hincreasing.nodup.map h.injective_get

/-! ## A graph and its phases -/

/-- The answers of a graph can be read off a list of phases. -/
structure AnswersFor (phases : List Phase) (g : DependencyGraph) : Prop where
  /-- The position of a name is the number of phases declared before the phase that has it. -/
  declared : ∀ before p after, phases = before ++ p :: after →
    (g.indexOf? p.name).map Fin.val = some before.length
  unknown : ∀ name, name ∉ phases.map (·.name) → g.indexOf? name = none
  prerequisites : ∀ p ∈ phases, KeepsFirst p.dependsOn (g.prerequisites p.name)
  converse : ∀ p ∈ phases, ∀ q ∈ phases,
    q.name ∈ g.dependents p.name ↔ p.name ∈ g.prerequisites q.name
  /-- The phases that require another one come in declared order. -/
  dependents : ∀ p ∈ phases, (g.dependents p.name).Sublist (phases.map (·.name))
  nodup : ∀ p ∈ phases, (g.dependents p.name).Nodup
  satisfied : ∀ t : Tracker, ∀ p ∈ phases,
    g.isSatisfied t p.name = true ↔ ∀ d ∈ p.dependsOn, t.outcome d = .completed
  /-- What is unmet is the first, in the order written, that has not completed. -/
  unmet : ∀ t : Tracker, ∀ p ∈ phases, ∀ d outcome,
    g.firstUnmet? t p.name = some (d, outcome) ↔
      (∃ front back, p.dependsOn = front ++ d :: back ∧
        (∀ x ∈ front, t.outcome x = .completed) ∧ t.outcome d ≠ .completed) ∧
      outcome = t.outcome d

/-- The position of a name in the graph of a list of phases. -/
theorem InStep.indexOf?_of_append (h : g.InStep) (hphases : g.names = phases.map (·.name))
    {before after : List Phase} {p : Phase} (hsplit : phases = before ++ p :: after) :
    (g.indexOf? p.name).map Fin.val = some before.length := by
  have hat : g.names[before.length]? = some p.name := by
    rw [hphases, hsplit, List.map_append, List.map_cons]
    simp
  obtain ⟨hlt, hget⟩ := List.getElem?_eq_some_iff.mp hat
  rw [(h.indexed p.name ⟨before.length, hlt⟩).mpr hget]
  rfl

/-- A graph that was built answers for the phases from which it was built. -/
theorem answersFor_of_build (h : build phases = .ok g) : AnswersFor phases g := by
  let checked : ValidatedPolicy := ⟨phases, g, .proceed, h⟩
  have hphases : g.names = phases.map (·.name) := ValidatedPolicy.names_graph (p := checked)
  have hinStep : g.InStep := ValidatedPolicy.inStep_graph (p := checked)
  constructor
  case declared =>
    intro before p after hsplit
    exact hinStep.indexOf?_of_append hphases hsplit
  case unknown =>
    intro name hname
    rw [hinStep.indexOf?_eq_none_iff, hphases]
    exact hname
  case prerequisites =>
    intro p hp
    have hkept : g.prerequisites p.name = p.dependsOn.eraseDups :=
      ValidatedPolicy.prerequisites_eq (p := checked) hp
    rw [hkept]
    exact keepsFirst_eraseDups p.dependsOn
  case converse => exact fun _ _ _ _ => hinStep.mem_dependents_iff
  case dependents =>
    intro p _
    rw [← hphases]
    exact hinStep.dependents_sublist p.name
  case nodup => exact fun p _ => hinStep.nodup_dependents p.name
  case satisfied =>
    intro t p hp
    rw [isSatisfied, Option.isNone_iff_eq_none]
    exact ValidatedPolicy.firstUnmet?_eq_none_iff (p := checked) hp
  case unmet =>
    intro t p hp d outcome
    exact ValidatedPolicy.firstUnmet?_eq_some_iff (p := checked) hp

/-- Three phases of which the first lists the last, the second and the last again. -/
def backToFront : List Phase := [
  { name := "cut", dependsOn := ["tag", "mix", "tag"] }, { name := "mix" },
  { name := "tag", dependsOn := ["mix", "mix"] }]

/-- While none of them has completed, what the first phase waits for is the last. -/
theorem answersFor_backToFront :
    ∃ g, build backToFront = .ok g ∧ AnswersFor backToFront g ∧
      "cut" ∈ g.dependents "tag" ∧ g.firstUnmet? {} "cut" = some ("tag", .pending) := by
  have hbuild : build backToFront = .ok (ofPhases backToFront) := by cbv
  have hanswers := answersFor_of_build hbuild
  have hunmet : (ofPhases backToFront).firstUnmet? {} "cut" = some ("tag", .pending) := by
    refine (hanswers.unmet {} _ List.mem_cons_self "tag" .pending).mpr ⟨?_, rfl⟩
    exact ⟨[], ["mix", "tag"], rfl, by simp, by decide⟩
  have hdependents : (ofPhases backToFront).dependents "tag" = ["cut"] := by cbv
  refine ⟨_, hbuild, hanswers, ?_, hunmet⟩
  rw [hdependents]
  exact List.mem_cons_self

end DependencyGraph

end MediaPhases
