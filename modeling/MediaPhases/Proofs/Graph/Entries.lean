import MediaPhases.Proofs.Graph.Visits

/-!
# What visits find when they begin

Whenever the visit of a node begins, the active nodes are those of the path, each of them once, and
there is an edge from each to the next and from the last to the node.  Nothing leads out of the
finished nodes, and none of them lies on a cycle.  This holds in every state of the search, and so
in the visits, which keep up with it.
-/

namespace MediaPhases

/-- There is an edge from one node to another in a table. -/
def Leads (table : List (List ℕ)) (v w : ℕ) : Prop :=
  ∃ row, table[v]? = some row ∧ w ∈ row

/-- What holds whenever the visit of a node begins. -/
structure Visits.Entry.IsSound (table : List (List ℕ)) (e : Visits.Entry) : Prop where
  fresh : e.marks[e.node]? = some .fresh
  active_iff : ∀ v, e.marks[v]? = some .active ↔ v ∈ e.path
  nodup : e.path.Nodup
  /-- Edges lead along the path and from its end to the node. -/
  linked : (e.path ++ [e.node]).IsChain (Leads table)
  closed : ∀ v w, e.marks[v]? = some .finished → Leads table v w → e.marks[w]? = some .finished
  not_onCycle : ∀ v, e.marks[v]? = some .finished → ¬Relation.TransGen (Leads table) v v
  /-- Counted with the visits that it is within, there are no more than nodes. -/
  length_lt : e.path.length < table.length

namespace DependencyGraph

variable {g : DependencyGraph}

/-! ## Edges in numbers -/

theorem leads_table_iff (hrows : g.edges.length = g.names.length) {v w : ℕ} :
    Leads g.table v w ↔
      ∃ i j : Fin g.names.length, i.val = v ∧ j.val = w ∧ Edge g.edgesOf i j := by
  constructor
  · rintro ⟨row, hrow, hw⟩
    have hv : v < g.names.length := by
      have hlt := (List.getElem?_eq_some_iff.mp hrow).1
      rwa [table, List.length_map, hrows] at hlt
    rw [getElem?_table hrows ⟨v, hv⟩] at hrow
    cases hrow
    obtain ⟨j, hj, rfl⟩ := List.mem_map.mp hw
    exact ⟨⟨v, hv⟩, j, rfl, rfl, hj⟩
  · rintro ⟨i, j, rfl, rfl, hedge⟩
    exact ⟨_, getElem?_table hrows i, List.mem_map_of_mem hedge⟩

theorem leads_of_edge (hrows : g.edges.length = g.names.length) {i j : Fin g.names.length}
    (h : Edge g.edgesOf i j) : Leads g.table i j :=
  (leads_table_iff hrows).mpr ⟨i, j, rfl, rfl, h⟩

theorem exists_transGen_of_leads (hrows : g.edges.length = g.names.length)
    {i : Fin g.names.length} {w : ℕ} (h : Relation.TransGen (Leads g.table) i w) :
    ∃ j : Fin g.names.length, j.val = w ∧ Relation.TransGen (Edge g.edgesOf) i j := by
  induction h with
  | single hstep =>
      obtain ⟨i', j, hi, rfl, hedge⟩ := (leads_table_iff hrows).mp hstep
      obtain rfl := Fin.ext hi
      exact ⟨j, rfl, .single hedge⟩
  | tail _ hstep ih =>
      obtain ⟨k, rfl, hik⟩ := ih
      obtain ⟨k', j, hk, rfl, hedge⟩ := (leads_table_iff hrows).mp hstep
      obtain rfl := Fin.ext hk
      exact ⟨j, rfl, hik.tail hedge⟩

end DependencyGraph

/-! ## Entries of the search -/

namespace Search

open Visits (Entry)

variable {g : DependencyGraph} {s t : Search g.names.length}

theorem getElem?_marks_eq_some_iff {n : ℕ} {s : Search n} {m : Mark} {v : ℕ} :
    s.marks.toArray[v]? = some m ↔ ∃ i : Fin n, i.val = v ∧ s.mark i = m := by
  constructor
  · intro h
    have hv : v < n := by
      have hsize := (Array.getElem?_eq_some_iff.mp h).1
      rwa [Vector.size_toArray] at hsize
    rw [getElem?_marks s ⟨v, hv⟩] at h
    exact ⟨⟨v, hv⟩, rfl, Option.some.inj h⟩
  · rintro ⟨i, rfl, rfl⟩
    exact getElem?_marks s i

theorem Invariant.isSound_entry (hrows : g.edges.length = g.names.length)
    (h : Invariant g.edgesOf s) {node : Fin g.names.length} {behind : List (Frame g.names.length)}
    {roots : List (Fin g.names.length)} (henters : s.Enters node behind roots) :
    (s.entry node).IsSound g.table := by
  constructor
  case fresh =>
    rw [← henters.mark_eq]
    exact s.getElem?_marks node
  case active_iff =>
    intro v
    simp only [entry, getElem?_marks_eq_some_iff, h.active_iff, path, nodes, List.mem_map,
      List.mem_reverse, and_comm]
  case nodup => exact h.path_nodup.map Fin.val_injective
  case linked =>
    -- The path and the node are the path of the next state.
    have hstep : s.step g.edgesOf = .goOn (s.enter g.edgesOf node behind roots) := henters.step_eq
    have hlinked := (h.step hstep).path_linked
    rw [path_enter henters.nodes_eq] at hlinked
    have hleads := List.isChain_map_of_isChain (S := Leads g.table) Fin.val
      (fun _ _ => DependencyGraph.leads_of_edge hrows) hlinked
    rwa [List.map_append] at hleads
  case closed =>
    intro v w hv hvw
    obtain ⟨i, j, rfl, rfl, hedge⟩ := (DependencyGraph.leads_table_iff hrows).mp hvw
    have hdone : s.mark i = .finished := Option.some.inj ((s.getElem?_marks i).symm.trans hv)
    rw [← h.closed i hdone j hedge]
    exact s.getElem?_marks j
  case not_onCycle =>
    intro v hv hcycle
    obtain ⟨i, rfl, hdone⟩ := getElem?_marks_eq_some_iff.mp hv
    obtain ⟨j, hj, hij⟩ := DependencyGraph.exists_transGen_of_leads hrows hcycle
    obtain rfl := Fin.ext hj
    exact h.not_onCycle j hdone hij
  case length_lt =>
    have hlt := h.length_lt_of_fresh henters.mark_eq
    simpa [entry, path, DependencyGraph.table, hrows] using hlt

theorem Passes.isSound (hrows : g.edges.length = g.names.length) {entries : List Entry}
    (hpasses : Passes g.edgesOf s entries t) (h : Invariant g.edgesOf s) :
    ∀ e ∈ entries, e.IsSound g.table := by
  induction hpasses with
  | refl => simp
  | enter henters _ ih =>
      have hrest := ih (h.step henters.step_eq)
      exact List.forall_mem_cons.mpr ⟨h.isSound_entry hrows henters, hrest⟩
  | goOn hs _ _ ih => exact ih (h.step hs)

/-- When the search is done, visits see an empty path and every node finished. -/
theorem Invariant.view_of_done {n : ℕ} {edges : Fin n → List (Fin n)} {s : Search n}
    (h : Invariant edges s) (hs : s.step edges = .done) (entries : List Entry) :
    s.view entries = ⟨Array.replicate n .finished, [], entries⟩ := by
  have hmarks : s.marks = Vector.replicate n .finished := by
    apply Vector.ext
    intro i hi
    rw [Vector.getElem_replicate]
    exact h.finished_of_done hs ⟨i, hi⟩
  have hframes := (of_step_eq_done hs).1
  simp [view, path, hmarks, hframes]

end Search

/-! ## Whole runs -/

namespace DependencyGraph

variable {g : DependencyGraph} {t : Search g.names.length} {entries : List Visits.Entry}

theorem firstCycle?_of_done (hpasses : Search.Passes g.edgesOf (.initial g.names.length) entries t)
    (hdone : t.step g.edgesOf = .done) : g.firstCycle? = none := by
  rw [firstCycle?, findCycle?, hpasses.run_eq, t.run_eq, hdone]
  rfl

theorem firstCycle?_of_cycle
    (hpasses : Search.Passes g.edgesOf (.initial g.names.length) entries t)
    {found : List (Fin g.names.length)} (hcycle : t.step g.edgesOf = .cycle found) :
    g.firstCycle? = some (.cycle (found.map g.names.get)) := by
  rw [firstCycle?, findCycle?, hpasses.run_eq, t.run_eq, hcycle]
  rfl

/-- The visits of all nodes of a graph come to an end without a look-up that fails and with no more
of them within one another than there are nodes.  Those that begin are the ones in the search, and
what each of them finds is sound.  At the end either every node is finished or a cycle is reported,
as by the search. -/
theorem exists_visits_isSound (hrows : g.edges.length = g.names.length) {depth : ℕ}
    (hdepth : g.names.length ≤ depth) :
    ∃ t entries, Search.Passes g.edgesOf (.initial g.names.length) entries t ∧
      (∀ e ∈ entries, e.IsSound g.table) ∧
      (t.step g.edgesOf = .done ∧ g.firstCycle? = none ∧
          (Visits.visitAll g.names g.table depth).run (.initial g.names.length) =
            .ok () ⟨Array.replicate g.names.length .finished, [], entries⟩ ∨
        ∃ found path marks stack,
          t.step g.edgesOf = .cycle found ∧ g.firstCycle? = some (.cycle path) ∧
          (Visits.visitAll g.names g.table depth).run (.initial g.names.length) =
            .error (.defect (.cycle path)) ⟨marks, stack, entries⟩) := by
  have hinitial := Search.invariant_initial g.edgesOf
  have hall := Visits.keepsUp_visitAll hrows hdepth
  generalize (Visits.visitAll g.names g.table depth).run (.initial g.names.length) = r at hall
  cases hall with
  | @arrives t entries hpasses hframes hroots =>
      have hdone : t.step g.edgesOf = .done := Search.step_of_nil hframes hroots
      refine ⟨t, entries, hpasses, hpasses.isSound hrows hinitial, .inl ⟨hdone, ?_, ?_⟩⟩
      · exact firstCycle?_of_done hpasses hdone
      · rw [(hpasses.invariant hinitial).view_of_done hdone, List.nil_append]
  | @stops t entries found hpasses hcycle =>
      refine ⟨t, entries, hpasses, hpasses.isSound hrows hinitial, .inr ?_⟩
      exact ⟨found, _, _, _, hcycle, firstCycle?_of_cycle hpasses hcycle, rfl⟩

/-- A phase that leads to another one along two ways, and a circle of two phases that leads to
it. -/
def forkAndCircle : DependencyGraph where
  names := ["cut", "mix", "tag", "pack", "seal"]
  index := ⟨[("cut", ⟨0, by decide⟩), ("mix", ⟨1, by decide⟩), ("tag", ⟨2, by decide⟩),
    ("pack", ⟨3, by decide⟩), ("seal", ⟨4, by decide⟩)]⟩
  edges := [[⟨1, by decide⟩, ⟨2, by decide⟩], [⟨2, by decide⟩], [],
    [⟨0, by decide⟩, ⟨4, by decide⟩], [⟨3, by decide⟩]]
  backEdges := [[⟨3, by decide⟩], [⟨0, by decide⟩], [⟨0, by decide⟩, ⟨1, by decide⟩],
    [⟨4, by decide⟩], [⟨3, by decide⟩]]

/-- Every phase is visited once, the last of them within the visit of the one before it. -/
theorem visits_forkAndCircle :
    forkAndCircle.edges.length = forkAndCircle.names.length ∧
      ∃ t entries, Search.Passes forkAndCircle.edgesOf (.initial 5) entries t ∧
        (∀ e ∈ entries, e.IsSound forkAndCircle.table) ∧
        entries.map (·.path) = [[], [0], [0, 1], [], [3]] ∧
        forkAndCircle.firstCycle? = some (.cycle ["pack", "seal", "pack"]) := by
  have hrows : forkAndCircle.edges.length = forkAndCircle.names.length := rfl
  have hrun : ∃ marks stack entries,
      (Visits.visitAll forkAndCircle.names forkAndCircle.table 5).run (.initial 5) =
        .error (.defect (.cycle ["pack", "seal", "pack"])) ⟨marks, stack, entries⟩ ∧
      entries.map (·.path) = [[], [0], [0, 1], [], [3]] :=
    ⟨_, _, _, rfl, rfl⟩
  obtain ⟨marks, stack, entries, hrun, hpaths⟩ := hrun
  obtain ⟨t, entries', hpasses, hsound, ⟨-, -, hok⟩ | ⟨found, path, _, _, -, hcycle, herror⟩⟩ :=
    exists_visits_isSound hrows (Nat.le_refl 5)
  · cases hrun.symm.trans hok
  · cases hrun.symm.trans herror
    exact ⟨hrows, t, entries, hpasses, hsound, hpaths, hcycle⟩

end DependencyGraph

end MediaPhases
