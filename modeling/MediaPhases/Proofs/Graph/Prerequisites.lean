import MediaPhases.Policy.Validated
import MediaPhases.Proofs.Graph.Build
import Mathlib.Data.List.Find

/-!
# The prerequisites of a phase

In a validated policy the graph gives for each phase the prerequisites that were written, each of
them once.  None of them is unmet exactly when all that were written have completed.  A phase is
declared before another when it stands before it in the list, which orders the names.
-/

namespace MediaPhases

/-! ## Removing repetitions -/

section EraseDups

variable {α β : Type*}

theorem length_filter_lt_length_cons (p : α → Bool) (a : α) (rest : List α) :
    (rest.filter p).length < (a :: rest).length :=
  Nat.lt_succ_of_le (List.length_filter_le p rest)

theorem eraseDups_sublist [BEq α] : ∀ l : List α, l.eraseDups.Sublist l
  | [] => List.Sublist.refl _
  | a :: rest => by
      have hrest := eraseDups_sublist (rest.filter fun b => !b == a)
      rw [List.eraseDups_cons]
      exact (hrest.trans List.filter_sublist).cons_cons a
termination_by l => l.length
decreasing_by exact length_filter_lt_length_cons _ a rest

theorem nodup_eraseDups [BEq α] [LawfulBEq α] : ∀ l : List α, l.eraseDups.Nodup
  | [] => List.nodup_nil
  | a :: rest => by
      have hrest := nodup_eraseDups (rest.filter fun b => !b == a)
      rw [List.eraseDups_cons, List.nodup_cons, List.mem_eraseDups]
      exact ⟨by simp, hrest⟩
termination_by l => l.length
decreasing_by exact length_filter_lt_length_cons _ a rest

theorem map_eraseDups
    [BEq α] [LawfulBEq α] [BEq β] [LawfulBEq β] {f : α → β} (hf : Function.Injective f) :
    ∀ l : List α, l.eraseDups.map f = (l.map f).eraseDups
  | [] => rfl
  | a :: rest => by
      have hrest := map_eraseDups hf (rest.filter fun b => !b == a)
      have hsame : ((fun b => !b == f a) ∘ f) = fun b => !b == a := by
        funext b
        simp [hf.eq_iff]
      rw [List.eraseDups_cons, List.map_cons, hrest, List.map_cons, List.eraseDups_cons,
        List.filter_map, hsame]
termination_by l => l.length
decreasing_by exact length_filter_lt_length_cons _ a rest

theorem find?_eraseDups [BEq α] [LawfulBEq α] (q : α → Bool) :
    ∀ l : List α, l.eraseDups.find? q = l.find? q
  | [] => rfl
  | a :: rest => by
      have hrest := find?_eraseDups q (rest.filter fun b => !b == a)
      rw [List.eraseDups_cons, List.find?_cons, List.find?_cons, hrest, List.find?_filter]
      cases hq : q a with
      | true => rfl
      | false =>
          have hsame : (fun b => decide ((!b == a) = true ∧ q b = true)) = q := by
            funext b
            by_cases hb : b = a
            · simp [hb, hq]
            · simp [hb]
          rw [hsame]
termination_by l => l.length
decreasing_by exact length_filter_lt_length_cons _ a rest

end EraseDups

/-! ## Declared order -/

/-- The phase named `a` is declared before the phase named `b`. -/
def DeclaredBefore (phases : List Phase) (a b : String) : Prop :=
  ∃ before p after, phases = before ++ p :: after ∧ p.name = b ∧ a ∈ before.map (·.name)

theorem DeclaredBefore.of_sublist
    {phases before after : List Phase} {p : Phase} {a : String}
    (h : (before ++ p :: after).Sublist phases) (ha : a ∈ before.map (·.name)) :
    DeclaredBefore phases a p.name := by
  obtain ⟨front, back, rfl, hfront, hback⟩ := List.append_sublist_iff.mp h
  obtain ⟨between, rest, rfl⟩ := List.append_of_mem (hback.subset List.mem_cons_self)
  refine ⟨front ++ between, p, rest, by rw [List.append_assoc], rfl, ?_⟩
  rw [List.map_append]
  exact List.mem_append_left _ ((hfront.map _).subset ha)

theorem DeclaredBefore.mem_left
    {phases : List Phase} {a b : String} (h : DeclaredBefore phases a b) :
    a ∈ phases.map (·.name) := by
  obtain ⟨before, p, after, rfl, -, ha⟩ := h
  rw [List.map_append]
  exact List.mem_append_left _ ha

/-- With distinct names, being declared before is having the smaller position. -/
theorem DeclaredBefore.idxOf_lt
    {phases : List Phase} (hnames : (phases.map (·.name)).Nodup) {a b : String}
    (h : DeclaredBefore phases a b) :
    (phases.map (·.name)).idxOf a < (phases.map (·.name)).idxOf b := by
  obtain ⟨before, p, after, rfl, rfl, ha⟩ := h
  rw [List.map_append, List.map_cons] at hnames ⊢
  have hp : p.name ∉ before.map (·.name) := by
    intro hmem
    exact (List.nodup_append.mp hnames).2.2 _ hmem _ List.mem_cons_self rfl
  rw [List.idxOf_append_of_mem ha, List.idxOf_append_of_notMem hp]
  exact Nat.lt_of_lt_of_le (List.idxOf_lt_length_of_mem ha) (Nat.le_add_right _ _)

theorem DeclaredBefore.not_symm
    {phases : List Phase} (hnames : (phases.map (·.name)).Nodup) {a b : String}
    (h : DeclaredBefore phases a b) : ¬DeclaredBefore phases b a := by
  intro hba
  exact Nat.lt_asymm (h.idxOf_lt hnames) (hba.idxOf_lt hnames)

theorem DeclaredBefore.ne
    {phases : List Phase} (hnames : (phases.map (·.name)).Nodup) {a b : String}
    (h : DeclaredBefore phases a b) : a ≠ b := by
  rintro rfl
  exact Nat.lt_irrefl _ (h.idxOf_lt hnames)

theorem DeclaredBefore.total
    {phases : List Phase} {a b : String} (ha : a ∈ phases.map (·.name))
    (hb : b ∈ phases.map (·.name)) (hne : a ≠ b) :
    DeclaredBefore phases a b ∨ DeclaredBefore phases b a := by
  obtain ⟨p, hp, rfl⟩ := List.mem_map.mp ha
  obtain ⟨front, back, rfl⟩ := List.append_of_mem hp
  rw [List.map_append, List.map_cons, List.mem_append, List.mem_cons] at hb
  rcases hb with hfront | rfl | hback
  · exact Or.inr ⟨front, p, back, rfl, rfl, hfront⟩
  · exact absurd rfl hne
  · obtain ⟨q, hq, rfl⟩ := List.mem_map.mp hback
    obtain ⟨between, rest, rfl⟩ := List.append_of_mem hq
    refine Or.inl ⟨front ++ p :: between, q, rest, by simp, rfl, ?_⟩
    exact List.mem_map_of_mem List.mem_append_cons_self

namespace DependencyGraph

theorem InStep.indexOf?_eq_none_iff {g : DependencyGraph} (h : g.InStep) {name : String} :
    g.indexOf? name = none ↔ name ∉ g.names := by
  constructor
  · intro hnone hname
    obtain ⟨i, rfl⟩ := List.mem_iff_get.mp hname
    rw [(h.indexed _ i).mpr rfl] at hnone
    cases hnone
  · intro hname
    cases hindex : g.indexOf? name with
    | none => rfl
    | some i =>
        rw [← (h.indexed name i).mp hindex] at hname
        exact absurd (List.get_mem _ i) hname

/-- Different positions have different names. -/
theorem InStep.injective_get {g : DependencyGraph} (h : g.InStep) :
    Function.Injective g.names.get := by
  intro i j hij
  have hi := (h.indexed _ i).mpr hij
  rw [(h.indexed _ j).mpr rfl] at hi
  exact (Option.some.inj hi).symm

theorem InStep.prerequisites_of_notMem {g : DependencyGraph} (h : g.InStep) {name : String}
    (hname : name ∉ g.names) : g.prerequisites name = [] := by
  rw [prerequisites, h.indexOf?_eq_none_iff.mpr hname]

/-- The name at the position of a name is that name. -/
theorem InStep.map_indexOf? {g : DependencyGraph} (h : g.InStep) {name : String}
    (hname : name ∈ g.names) : (g.indexOf? name).map g.names.get = some name := by
  obtain ⟨i, rfl⟩ := List.mem_iff_get.mp hname
  rw [(h.indexed _ i).mpr rfl, Option.map_some]

/-- The prerequisites in the graph are those written, without repetitions. -/
theorem prerequisites_ofPhases
    {phases : List Phase} (hnames : (phases.map (·.name)).Nodup)
    {phase : Phase} (hphase : phase ∈ phases)
    (hreferences : ∀ d ∈ phase.dependsOn, d ∈ phases.map (·.name)) :
    (ofPhases phases).prerequisites phase.name = phase.dependsOn.eraseDups := by
  obtain ⟨k, hk, rfl⟩ := List.getElem_of_mem hphase
  have hinStep := inStep_ofPhases hnames
  let i : Fin (ofPhases phases).names.length := ⟨k, by simpa [ofPhases] using hk⟩
  have hindex : (ofPhases phases).indexOf? phases[k].name = some i :=
    (hinStep.indexed _ i).mpr (List.getElem_map _)
  have hedges : (ofPhases phases).edgesOf i =
      (phases[k].dependsOn.filterMap (ofPhases phases).indexOf?).eraseDups :=
    edgesOf_tablesFor (i := i) (List.getElem?_eq_getElem hk)
  have hwritten : (phases[k].dependsOn.filterMap (ofPhases phases).indexOf?).map
      ((ofPhases phases).names[·]) = phases[k].dependsOn := by
    rw [List.map_filterMap]
    refine (List.filterMap_congr fun d hd => ?_).trans List.filterMap_some
    exact hinStep.map_indexOf? (hreferences d hd)
  rw [prerequisites, hindex]
  change ((ofPhases phases).edgesOf i).map _ = _
  rw [hedges, map_eraseDups (names_injective hnames), hwritten]

/-- The first unmet prerequisite depends on the outcomes of the prerequisites alone. -/
theorem firstUnmet?_congr {g : DependencyGraph} {t t' : Tracker} {phase : String}
    (h : ∀ d ∈ g.prerequisites phase, t.outcome d = t'.outcome d) :
    g.firstUnmet? t phase = g.firstUnmet? t' phase := by
  have hfind : (g.prerequisites phase).find? (fun d => t.outcome d != .completed) =
      (g.prerequisites phase).find? (fun d => t'.outcome d != .completed) :=
    List.find?_congr fun d hd => by rw [h d hd]
  rw [firstUnmet?, firstUnmet?, hfind]
  refine Option.map_congr fun d hd => ?_
  rw [h d (List.mem_of_find?_eq_some hd)]

end DependencyGraph

/-! ## Validated policies -/

namespace ValidatedPolicy

variable (p : ValidatedPolicy)

theorem wellFormed : WellFormed p.phases :=
  DependencyGraph.wellFormed_of_build p.graph_eq

theorem graph_eq_ofPhases : p.graph = DependencyGraph.ofPhases p.phases :=
  ((DependencyGraph.build_eq_ok_iff.mp p.graph_eq).2.2).symm

theorem nodup_names : (p.phases.map (·.name)).Nodup :=
  DependencyGraph.nodup_names_of_distinct p.wellFormed.distinct

variable {p}

theorem not_requires_self {a : String} : ¬Requires p.phases a a :=
  fun h => p.wellFormed.acyclic a (.single h)

theorem names_graph : p.graph.names = p.phases.map (·.name) := by
  rw [p.graph_eq_ofPhases]
  rfl

/-- The index of the graph and its tables are in step. -/
theorem inStep_graph : p.graph.InStep := by
  rw [p.graph_eq_ofPhases]
  exact DependencyGraph.inStep_ofPhases p.nodup_names

/-- The position of a phase in the graph is its position in the policy. -/
theorem getElem?_of_indexOf?
    {name : String} {i : Fin p.graph.names.length} (h : p.graph.indexOf? name = some i) :
    (p.phases[i.val]?).map (·.name) = some name := by
  have hget := (p.inStep_graph.indexed name i).mp h
  have hname : p.graph.names[i.val]? = some name := by
    rw [List.getElem?_eq_getElem i.isLt]
    exact congrArg some hget
  rw [← List.getElem?_map, ← names_graph]
  exact hname

theorem exists_indexOf? {name : String} (hname : name ∈ p.phases.map (·.name)) :
    ∃ i, p.graph.indexOf? name = some i := by
  rw [← names_graph] at hname
  obtain ⟨i, hi, -⟩ := Option.map_eq_some_iff.mp
    (p.inStep_graph.map_indexOf? hname)
  exact ⟨i, hi⟩

theorem mem_names_of_mem_dependsOn {phase : Phase} (hphase : phase ∈ p.phases)
    {d : String} (hd : d ∈ phase.dependsOn) : d ∈ p.phases.map (·.name) :=
  ((DependencyGraph.references_iff p.nodup_names).mpr p.wellFormed.references phase hphase d hd).2

/-- What a run-if condition of a phase names is declared before the phase. -/
theorem declaredBefore_of_runIf {phase : Phase} (hphase : phase ∈ p.phases)
    {c : RunIf} (hc : phase.runIf = some c) : DeclaredBefore p.phases c.reference phase.name := by
  obtain ⟨before, after, hsplit⟩ := List.append_of_mem hphase
  exact ⟨before, phase, after, hsplit, rfl, p.wellFormed.backward before phase after c hsplit hc⟩

/-- What a phase requires is what it lists. -/
theorem requires_iff {phase : Phase} (hphase : phase ∈ p.phases) {d : String} :
    Requires p.phases phase.name d ↔ d ∈ phase.dependsOn := by
  constructor
  · rintro ⟨other, hother, hname, hd⟩
    rw [eq_of_name_eq p.nodup_names hother hphase hname] at hd
    exact hd
  · intro hd
    exact ⟨phase, hphase, rfl, hd⟩

/-- The prerequisites in the graph are those written, without repetitions. -/
theorem prerequisites_eq {phase : Phase} (hphase : phase ∈ p.phases) :
    p.graph.prerequisites phase.name = phase.dependsOn.eraseDups := by
  rw [p.graph_eq_ofPhases]
  exact DependencyGraph.prerequisites_ofPhases p.nodup_names hphase
    fun d hd => mem_names_of_mem_dependsOn hphase hd

theorem mem_prerequisites_iff {phase : Phase} (hphase : phase ∈ p.phases) {d : String} :
    d ∈ p.graph.prerequisites phase.name ↔ d ∈ phase.dependsOn := by
  rw [prerequisites_eq hphase, List.mem_eraseDups]

theorem firstUnmet?_eq_none_iff {phase : Phase} (hphase : phase ∈ p.phases) {t : Tracker} :
    p.graph.firstUnmet? t phase.name = none ↔
      ∀ d ∈ phase.dependsOn, t.outcome d = .completed := by
  simp [DependencyGraph.firstUnmet?, mem_prerequisites_iff hphase]

/-- The first unmet prerequisite is the first in the order written, repetitions or not. -/
theorem firstUnmet?_eq_some_iff {phase : Phase} (hphase : phase ∈ p.phases) {t : Tracker}
    {d : String} {outcome : Outcome} :
    p.graph.firstUnmet? t phase.name = some (d, outcome) ↔
      (∃ front back, phase.dependsOn = front ++ d :: back ∧
        (∀ x ∈ front, t.outcome x = .completed) ∧ t.outcome d ≠ .completed) ∧
      outcome = t.outcome d := by
  rw [DependencyGraph.firstUnmet?, prerequisites_eq hphase, find?_eraseDups,
    Option.map_eq_some_iff]
  constructor
  · rintro ⟨first, hfirst, heq⟩
    obtain ⟨rfl, rfl⟩ := Prod.mk.inj heq
    obtain ⟨hunmet, front, back, hwritten, hfront⟩ := List.find?_eq_some_iff_append.mp hfirst
    exact ⟨⟨front, back, hwritten, by simpa using hfront, by simpa using hunmet⟩, rfl⟩
  · rintro ⟨⟨front, back, hwritten, hfront, hunmet⟩, rfl⟩
    refine ⟨d, List.find?_eq_some_iff_append.mpr ⟨by simpa using hunmet, front, back, hwritten, ?_⟩,
      rfl⟩
    simpa using hfront

end ValidatedPolicy

end MediaPhases
