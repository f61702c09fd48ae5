import MediaPhases.Proofs.Engine.Reasons
import MediaPhases.Proofs.Graph.Answers

/-!
# Warnings about a selection

A selection of phases by name fails when a name is not known.  Otherwise it warns of every selected
phase that has a prerequisite outside the selection.  The warnings are borne out by the runs: a
phase of which was warned is never handed to the executor, and a phase that is skipped for a
prerequisite still pending was warned of, unless the prerequisite is declared after it.
-/

namespace MediaPhases

/-! ## Names that are not known -/

section Names

variable {g : DependencyGraph} {p : ValidatedPolicy} {r : Runner} {names : List String}

namespace Runner

/-- A failure names one of the names that are not known, and tells which are. -/
theorem unknownPhase_of_positionsOf
    (hg : g.InStep) {failure : Failure} (h : positionsOf g names = .error failure) :
    ∃ name ∈ names, name ∉ g.names ∧ failure = .unknownPhase name g.names := by
  induction names with
  | nil => cases h
  | cons first rest ih =>
      rw [positionsOf] at h
      cases hindex : g.indexOf? first with
      | none =>
          rw [hindex] at h
          cases h
          exact ⟨first, List.mem_cons_self, hg.indexOf?_eq_none_iff.mp hindex, rfl⟩
      | some i =>
          cases hrest : positionsOf g rest with
          | error other =>
              rw [hindex, hrest] at h
              cases h
              obtain ⟨name, hname, hunknown⟩ := ih hrest
              exact ⟨name, List.mem_cons_of_mem _ hname, hunknown⟩
          | ok positions =>
              rw [hindex, hrest] at h
              cases h

theorem mem_names_of_positionsOf
    (hg : g.InStep) {positions : List ℕ} (h : positionsOf g names = .ok positions) :
    ∀ name ∈ names, name ∈ g.names := by
  intro name hname
  by_contra hunknown
  have hnone := hg.indexOf?_eq_none_iff.mpr hunknown
  induction names generalizing positions with
  | nil => cases hname
  | cons first rest ih =>
      rw [positionsOf] at h
      cases hindex : g.indexOf? first with
      | none =>
          rw [hindex] at h
          cases h
      | some i =>
          cases hrest : positionsOf g rest with
          | error failure =>
              rw [hindex, hrest] at h
              cases h
          | ok more =>
              have hne : name ≠ first := by
                rintro rfl
                rw [hnone] at hindex
                cases hindex
              exact ih hrest ((List.mem_cons.mp hname).resolve_left hne)

/-- Phases are selected unless a name is not known. -/
theorem exists_select_eq_unknownPhase_iff (hr : r.IsOf p) :
    (∃ name, r.select names = .error (.unknownPhase name (p.phases.map (·.name)))) ↔
      ∃ name ∈ names, name ∉ p.phases.map (·.name) := by
  obtain rfl := hr.policy_eq
  rw [← ValidatedPolicy.names_graph, select]
  cases hpositions : positionsOf r.policy.graph names with
  | error failure =>
      obtain ⟨name, hname, hunknown, rfl⟩ :=
        unknownPhase_of_positionsOf ValidatedPolicy.inStep_graph hpositions
      exact ⟨fun _ => ⟨name, hname, hunknown⟩, fun _ => ⟨name, rfl⟩⟩
  | ok positions =>
      have hknown := mem_names_of_positionsOf ValidatedPolicy.inStep_graph hpositions
      constructor
      · rintro ⟨name, h⟩
        cases h
      · rintro ⟨name, hname, hunknown⟩
        exact absurd (hknown name hname) hunknown

end Runner

end Names

/-! ## What is warned of -/

section Warned

variable {p : ValidatedPolicy} {r s : Runner} {names : List String} {warnings : List SubsetWarning}

/-- The positions that a selection chooses are those of its names. -/
theorem DependencyGraph.InStep.mem_chosen_iff
    {g : DependencyGraph} (h : g.InStep) {i : Fin g.names.length} :
    i ∈ names.filterMap g.indexOf? ↔ g.names.get i ∈ names := by
  rw [List.mem_filterMap]
  constructor
  · rintro ⟨name, hname, hi⟩
    rw [(h.indexed name i).mp hi]
    exact hname
  · intro hi
    exact ⟨_, hi, (h.indexed _ i).mpr rfl⟩

theorem ValidatedPolicy.mem_prerequisites_iff_requires {a d : String} :
    d ∈ p.graph.prerequisites a ↔ Requires p.phases a d := by
  by_cases ha : a ∈ p.phases.map (·.name)
  · obtain ⟨phase, hphase, rfl⟩ := List.mem_map.mp ha
    rw [mem_prerequisites_iff hphase, requires_iff hphase]
  · have hunknown : a ∉ p.graph.names := by
      rw [names_graph]
      exact ha
    rw [inStep_graph.prerequisites_of_notMem hunknown]
    constructor
    · intro hd
      cases hd
    · rintro ⟨phase, hphase, rfl, -⟩
      exact absurd (List.mem_map_of_mem hphase) ha

/-- What a phase requires is a phase. -/
theorem ValidatedPolicy.mem_names_of_requires {a d : String} (h : Requires p.phases a d) :
    d ∈ p.phases.map (·.name) := by
  obtain ⟨phase, hphase, -, hd⟩ := h
  exact mem_names_of_mem_dependsOn hphase hd

/-- A selection warns of the prerequisites of selected phases that are not selected. -/
theorem ValidatedPolicy.mem_subsetWarnings_iff {a d : String} :
    ⟨a, d⟩ ∈ p.graph.subsetWarnings names ↔ a ∈ names ∧ Requires p.phases a d ∧ d ∉ names := by
  have hchosen : ∀ {i}, i ∈ names.filterMap p.graph.indexOf? ↔ p.graph.names.get i ∈ names :=
    inStep_graph.mem_chosen_iff
  rw [← mem_prerequisites_iff_requires, DependencyGraph.mem_prerequisites_iff_edge inStep_graph]
  constructor
  · intro h
    obtain ⟨i, hi, hwarned⟩ := List.mem_flatMap.mp h
    obtain ⟨j, hj, heq⟩ := List.mem_map.mp hwarned
    cases heq
    obtain ⟨hedge, hunselected⟩ := List.mem_filter.mp hj
    rw [Bool.not_eq_true', ← Bool.not_eq_true, List.contains_iff_mem, hchosen] at hunselected
    exact ⟨hchosen.mp hi, ⟨i, j, rfl, rfl, hedge⟩, hunselected⟩
  · rintro ⟨ha, ⟨i, j, rfl, rfl, hedge⟩, hd⟩
    refine List.mem_flatMap.mpr ⟨i, hchosen.mpr ha, ?_⟩
    refine List.mem_map.mpr ⟨j, List.mem_filter.mpr ⟨hedge, ?_⟩, rfl⟩
    rw [Bool.not_eq_true', ← Bool.not_eq_true, List.contains_iff_mem, hchosen]
    exact hd

theorem Runner.warnings_of_select (h : r.select names = .ok (s, warnings)) :
    warnings = r.policy.graph.subsetWarnings names := by
  rw [select] at h
  cases hpositions : positionsOf r.policy.graph names with
  | error failure =>
      rw [hpositions] at h
      cases h
  | ok positions =>
      rw [hpositions] at h
      cases h
      rfl

theorem Runner.mem_names_of_select
    (hr : r.IsOf p) (h : r.select names = .ok (s, warnings)) {d : String}
    (hd : d ∈ p.phases.map (·.name)) : d ∈ s.phases.map (·.name) ↔ d ∈ names := by
  rw [phases_of_select h, hr.policy_eq]
  constructor
  · intro hmem
    obtain ⟨phase, hphase, rfl⟩ := List.mem_map.mp hmem
    exact of_decide_eq_true (List.mem_filter.mp hphase).2
  · intro hname
    obtain ⟨phase, hphase, rfl⟩ := List.mem_map.mp hd
    exact List.mem_map_of_mem (List.mem_filter.mpr ⟨hphase, decide_eq_true hname⟩)

/-- A selection warns of what the phases of the selected runner require and it does not go
through. -/
theorem Runner.mem_warnings_iff
    (hr : r.IsOf p) (h : r.select names = .ok (s, warnings)) {a d : String} :
    ⟨a, d⟩ ∈ warnings ↔ a ∈ names ∧ Requires p.phases a d ∧ d ∉ names := by
  rw [warnings_of_select h, hr.policy_eq]
  exact ValidatedPolicy.mem_subsetWarnings_iff

end Warned

/-! ## What becomes of the phases in question -/

/-- After some turns the other phases are pending. -/
theorem Turn.outcome_eq_pending_iff {p : ValidatedPolicy} {turns : List Turn} {d : String} :
    (trackerAfter p turns).outcome d = .pending ↔ d ∉ turns.map (·.phase.name) := by
  rw [← get?_trackerAfter_eq_none_iff (p := p)]
  constructor
  · intro hpending
    cases hget : (trackerAfter p turns).get? d with
    | none => rfl
    | some result =>
        obtain ⟨turn, -, -, rfl⟩ := exists_turn_of_get? hget
        have hfinal : (turn.result p).outcome.isFinal = true := result_isFinal
        rw [← Tracker.outcome_eq_of_get? hget, hpending] at hfinal
        cases hfinal
  · exact Tracker.outcome_eq_pending

namespace Account

variable {σ : Type} {r : Runner} {e : Executor σ} {context : FileContext} {start : σ}
  {turns : List Turn} {turn : Turn} {run : FileRun σ}

/-- A phase with a prerequisite that the runner does not go through is skipped for one. -/
theorem reason?_of_requires
    (h : Account r e context start turns run) (hr : r.IsOf r.policy) (hturn : turn ∈ turns)
    {d : String} (hrequires : Requires r.policy.phases turn.phase.name d)
    (hd : d ∉ r.phases.map (·.name)) :
    ∃ first outcome, turn.reason? = some (.dependency first outcome) := by
  obtain ⟨before, after, hsplit⟩ := List.append_of_mem hturn
  have hphase := h.mem_phases hr hturn
  have hpending : (Turn.trackerAfter r.policy before).outcome d = .pending := by
    refine Turn.outcome_eq_pending_iff.mpr fun hmem => hd ?_
    obtain ⟨other, hother, rfl⟩ := List.mem_map.mp hmem
    have hturns : other ∈ turns := by
      rw [hsplit]
      exact List.mem_append_left _ hother
    exact List.mem_map_of_mem (h.phases.subset (List.mem_map_of_mem hturns))
  rw [h.decided before turn after hsplit]
  cases hunmet : r.policy.graph.firstUnmet? (Turn.trackerAfter r.policy before) turn.phase.name with
  | none =>
      have hcompleted := (ValidatedPolicy.firstUnmet?_eq_none_iff hphase).mp hunmet d
        ((ValidatedPolicy.requires_iff hphase).mp hrequires)
      rw [hpending] at hcompleted
      cases hcompleted
  | some unmet =>
      obtain ⟨first, outcome⟩ := unmet
      exact ⟨first, outcome, Runner.skipReason?_eq_dependency_iff.mpr hunmet⟩

/-- A prerequisite that is still pending is one that the runner does not go through or comes to
only later. -/
theorem of_reason?_pending
    (h : Account r e context start turns run) (hr : r.IsOf r.policy) (hturn : turn ∈ turns)
    {d : String} (hreason : turn.reason? = some (.dependency d .pending)) :
    Requires r.policy.phases turn.phase.name d ∧
      (d ∈ r.phases.map (·.name) → DeclaredBefore r.policy.phases turn.phase.name d) := by
  obtain ⟨before, after, hsplit⟩ := List.append_of_mem hturn
  have hphase := h.mem_phases hr hturn
  rw [h.decided before turn after hsplit, Runner.skipReason?_eq_dependency_iff,
    ValidatedPolicy.firstUnmet?_eq_some_iff hphase] at hreason
  obtain ⟨⟨front, back, hwritten, -, -⟩, hpending⟩ := hreason
  have hrequires : Requires r.policy.phases turn.phase.name d := by
    rw [ValidatedPolicy.requires_iff hphase, hwritten]
    exact List.mem_append_cons_self
  refine ⟨hrequires, fun hd => ?_⟩
  have hlate : d ∉ before.map (·.phase.name) := Turn.outcome_eq_pending_iff.mp hpending.symm
  have hne : turn.phase.name ≠ d := by
    rintro rfl
    exact ValidatedPolicy.not_requires_self hrequires
  exact h.declaredBefore_of_notMem hr hsplit hd hne hlate

end Account

/-! ## Runs of a selection -/

/-- A runner goes through the named phases of a policy, and the warnings are about them. -/
structure SelectedBy
    (p : ValidatedPolicy) (names : List String) (s : Runner) (warnings : List SubsetWarning) :
    Prop where
  /-- The phases with a given name, in declared order. -/
  phases : s.phases = p.phases.filter (·.name ∈ names)
  nodup : (s.phases.map (·.name)).Nodup
  warned : ∀ phase missing, ⟨phase, missing⟩ ∈ warnings ↔
    phase ∈ names ∧ Requires p.phases phase missing ∧ missing ∉ names

/-- What happens in a run agrees with the warnings that were given before. -/
structure HeedsWarnings
    (p : ValidatedPolicy) (warnings : List SubsetWarning) (calls : List Call)
    (final : FileResult) : Prop where
  not_called : ∀ w ∈ warnings, w.phase ∉ calls.map (·.phase)
  skipped : ∀ w ∈ warnings, ∀ result ∈ final.phaseResults, result.phase = w.phase →
    result.outcome = .skipped ∧
      ∃ d outcome, result.skipReason = some (.dependency d outcome)
  pending : ∀ result ∈ final.phaseResults, ∀ d,
    result.skipReason = some (.dependency d .pending) →
      ⟨result.phase, d⟩ ∈ warnings ∨
        Requires p.phases result.phase d ∧ DeclaredBefore p.phases result.phase d

section Runs

variable {σ : Type} {p : ValidatedPolicy} {r s : Runner} {names : List String}
  {warnings : List SubsetWarning}

theorem Account.heedsWarnings
    {e : Executor σ} {context : FileContext} {start : σ} {turns : List Turn} {run : FileRun σ}
    (h : Account s e context start turns run) (hs : s.IsOf p) (hr : r.IsOf p)
    (hselect : r.select names = .ok (s, warnings)) :
    HeedsWarnings p warnings run.calls (run.result context.path) := by
  obtain rfl := hs.policy_eq
  -- A turn of a phase of which was warned consists in a skip.
  have hskip : ∀ w ∈ warnings, ∀ turn ∈ turns, turn.phase.name = w.phase →
      ∃ d outcome, turn.reason? = some (.dependency d outcome) := by
    intro w hw turn hturn hname
    obtain ⟨-, hrequires, hmissing⟩ := (Runner.mem_warnings_iff hr hselect).mp hw
    rw [← hname] at hrequires
    refine h.reason?_of_requires hs hturn hrequires fun hmem => hmissing ?_
    have hknown := ValidatedPolicy.mem_names_of_requires hrequires
    exact (Runner.mem_names_of_select hr hselect hknown).mp hmem
  constructor
  case not_called =>
    intro w hw hcalled
    rw [h.calls_eq, List.map_map] at hcalled
    obtain ⟨phase, hphase, hname⟩ := List.mem_map.mp hcalled
    obtain ⟨turn, hturn, hopen, rfl⟩ := Turn.mem_called.mp hphase
    obtain ⟨d, outcome, hreason⟩ := hskip w hw turn hturn hname
    rw [hopen] at hreason
    cases hreason
  case skipped =>
    intro w hw result hresult hname
    obtain ⟨turn, hturn, -, rfl⟩ := h.exists_turn_of_mem_results hs hresult
    rw [Turn.result_phase] at hname
    obtain ⟨d, outcome, hreason⟩ := hskip w hw turn hturn hname
    rw [Turn.result_of_reason? hreason]
    exact ⟨rfl, d, outcome, rfl⟩
  case pending =>
    intro result hresult d hpending
    obtain ⟨turn, hturn, hphase, rfl⟩ := h.exists_turn_of_mem_results hs hresult
    rw [Turn.result_phase]
    rcases Turn.skipReason_result_eq_some_iff.mp hpending with hreason | ⟨failure, -, -, heq⟩
    · obtain ⟨hrequires, hlater⟩ := h.of_reason?_pending hs hturn hreason
      have hknown := ValidatedPolicy.mem_names_of_requires hrequires
      have hmem := Runner.mem_names_of_select hr hselect hknown
      by_cases hd : d ∈ names
      · exact Or.inr ⟨hrequires, hlater (hmem.mpr hd)⟩
      · left
        refine (Runner.mem_warnings_iff hr hselect).mpr ⟨?_, hrequires, hd⟩
        have hname : turn.phase.name ∈ s.policy.phases.map (·.name) := List.mem_map_of_mem hphase
        refine (Runner.mem_names_of_select hr hselect hname).mp ?_
        exact List.mem_map_of_mem (h.phases.subset (List.mem_map_of_mem hturn))
    · cases heq

/-- A selection is refused when a name is not that of a phase.  Otherwise it goes through the named
phases and warns of each unselected prerequisite, and every run of it agrees with the warnings. -/
theorem Runner.select_heeds_warnings (hr : r.IsOf p) (names : List String) :
    ((∃ name, r.select names = .error (.unknownPhase name (p.phases.map (·.name)))) ↔
        ∃ name ∈ names, name ∉ p.phases.map (·.name)) ∧
      ((∀ name ∈ names, name ∈ p.phases.map (·.name)) →
        ∃ s warnings, r.select names = .ok (s, warnings) ∧ SelectedBy p names s warnings ∧
          ∀ (σ : Type) (e : Executor σ) (context : FileContext) (world : σ),
            let run := s.runFile e context world
            HeedsWarnings p warnings run.calls (run.result context.path)) := by
  refine ⟨exists_select_eq_unknownPhase_iff hr, fun hnames => ?_⟩
  rw [← hr.policy_eq] at hnames
  obtain ⟨s, warnings, hselect⟩ := exists_select hnames
  have hs : s.IsOf p := hr.select hselect
  refine ⟨s, warnings, hselect, ?_, ?_⟩
  · constructor
    case phases => rw [phases_of_select hselect, hr.policy_eq]
    case nodup => exact hs.nodup_names
    case warned => exact fun phase missing => mem_warnings_iff hr hselect
  · intro σ e context world run
    obtain ⟨turns, h, -⟩ := exists_account hs.nodup_names e context world
    exact h.heedsWarnings hs hr hselect

/-- With its first prerequisite left out of the selection a phase is not carried out in any run; the
other prerequisite is selected and not warned of. -/
theorem Runner.mix_not_called_without_cut :
    ∃ s warnings, Runner.select { policy := .tangled } ["tag", "mix"] = .ok (s, warnings) ∧
      ⟨"mix", "cut"⟩ ∈ warnings ∧ ⟨"mix", "tag"⟩ ∉ warnings ∧
      ∀ context, "mix" ∉ (s.runFile .patient context 0).calls.map (·.phase) := by
  obtain ⟨s, warnings, hselect, hselected, hheeds⟩ :=
    (select_heeds_warnings (.all (p := .tangled)) ["tag", "mix"]).2
      (by simp [ValidatedPolicy.tangled])
  have hcut : ⟨"mix", "cut"⟩ ∈ warnings := by
    refine (hselected.warned _ _).mpr ⟨by simp, ?_, by simp⟩
    simp [Requires, ValidatedPolicy.tangled]
  have htag : ⟨"mix", "tag"⟩ ∉ warnings := by
    intro hwarned
    have hunselected := ((hselected.warned _ _).mp hwarned).2.2
    simp at hunselected
  exact ⟨s, warnings, hselect, hcut, htag,
    fun context => (hheeds ℕ .patient context 0).not_called _ hcut⟩

end Runs

end MediaPhases
