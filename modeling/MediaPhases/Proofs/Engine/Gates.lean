import MediaPhases.Proofs.Engine.Turns

/-!
# The gates before the executor

A phase is handed to the executor when its prerequisites have completed, its skip condition does
not match and its run-if condition holds.  Each decision is taken on the results so far, in the
midst of a run.  It can be read off the finished run as well: what was known of another phase when
the turn of a phase came is its final result if that phase is declared before, and nothing if not.
-/

namespace MediaPhases

/-! ## One decision -/

/-- A run-if condition asks for a completed result, which has to tell of a modified file if the
condition says so. -/
theorem RunIf.holds_iff {c : RunIf} {t : Tracker} :
    c.holds t = true ↔
      ∃ result, t.get? c.reference = some result ∧ result.outcome = .completed ∧
        (c.requirement = .modified → result.fileModified = true) := by
  obtain ⟨requirement, reference⟩ := c
  cases requirement with
  | modified =>
      rw [holds, Tracker.wasModified_iff]
      simp
  | completed =>
      rw [holds, beq_iff_eq, Tracker.outcome_eq_completed_iff]
      simp

namespace Runner

variable {p : ValidatedPolicy} {context : FileContext} {t : Tracker} {phase : Phase}

/-- A phase is not skipped when all three gates are open. -/
theorem skipReason?_eq_none_iff (hphase : phase ∈ p.phases) :
    skipReason? p context t phase = none ↔
      (∀ d ∈ phase.dependsOn, t.outcome d = .completed) ∧
        (∀ c, phase.skipWhen = some c → c.evaluate context.media = none) ∧
        ∀ c, phase.runIf = some c → c.holds t = true := by
  rw [← ValidatedPolicy.firstUnmet?_eq_none_iff hphase, skipReason?]
  cases p.graph.firstUnmet? t phase.name with
  | some unmet => simp
  | none =>
      cases hmatch : phase.skipWhen.bind (·.evaluate context.media) with
      | some found =>
          obtain ⟨c, hc, hfound⟩ := Option.bind_eq_some_iff.mp hmatch
          simp [hc, hfound]
      | none =>
          have hopen : ∀ c, phase.skipWhen = some c → c.evaluate context.media = none :=
            Option.bind_eq_none_iff.mp hmatch
          cases hrunIf : phase.runIf with
          | none => simpa using hopen
          | some c => simpa using fun _ => hopen

/-- The reasons to skip a phase before it is handed to the executor. -/
theorem kind_of_skipReason? {reason : SkipReason}
    (h : skipReason? p context t phase = some reason) :
    reason.kind ∈ ["dependency", "condition", "run_if"] := by
  rw [skipReason?] at h
  split at h
  · cases h
    simp [SkipReason.kind]
  · split at h
    · cases h
      simp [SkipMatch.reason, SkipReason.kind]
    · split at h
      · split at h
        · cases h
        · cases h
          simp [RunIf.skipReason, SkipReason.kind]
      · cases h

end Runner

/-! ## What was known when a turn came -/

namespace Account

variable {σ : Type} {r : Runner} {e : Executor σ} {context : FileContext} {start : σ}
  {turns : List Turn} {run : FileRun σ}

/-- The result of a turn is the one found for its phase. -/
theorem get?_of_mem_turns
    (h : Account r e context start turns run) {turn : Turn} (hturn : turn ∈ turns) :
    run.tracker.get? turn.phase.name = some (turn.result r.policy) := by
  have hresult : turn.result r.policy ∈ run.tracker.results := by
    rw [h.results]
    exact List.mem_map_of_mem hturn
  have hget := h.inStep.get?_of_mem hresult
  rw [Turn.result_phase] at hget
  exact hget

/-- What the result of a run tells of a phase is what the tracker of the run tells of it. -/
theorem phase?_result
    (h : Account r e context start turns run) (name : String) :
    (run.result context.path).phase? name = run.tracker.get? name :=
  (h.inStep.get?_eq_find? name).symm

theorem outcome_result
    (h : Account r e context start turns run) (name : String) :
    (run.result context.path).outcome name = run.tracker.outcome name := by
  rw [FileResult.outcome, h.phase?_result]
  rfl

/-- A phase has one turn. -/
theorem eq_of_name_eq_turns
    (h : Account r e context start turns run) (hr : r.IsOf r.policy) {turn other : Turn}
    (hturn : turn ∈ turns) (hother : other ∈ turns)
    (hname : turn.phase.name = other.phase.name) : turn = other := by
  have hnodup : (turns.map fun turn => turn.phase.name).Nodup := by
    have hsub := (h.phases.sublist.map (·.name)).nodup hr.nodup_names
    rwa [List.map_map] at hsub
  exact List.inj_on_of_nodup_map hnodup hturn hother hname

/-- What the executor answered about the phase of a turn. -/
theorem mem_exchanges_iff
    (h : Account r e context start turns run) (hr : r.IsOf r.policy) {turn : Turn}
    (hturn : turn ∈ turns) {answer : Except Failure Output} :
    (turn.phase.call context, answer) ∈ e.exchanges run.calls start ↔
      turn.verdict = .answered answer := by
  rw [h.exchanges, List.mem_filterMap]
  constructor
  · rintro ⟨other, hother, hexchange⟩
    obtain ⟨hverdict, hcall⟩ := Turn.exchange?_eq_some_iff.mp hexchange
    have hname : turn.phase.name = other.phase.name := congrArg Call.phase hcall
    rw [h.eq_of_name_eq_turns hr hturn hother hname]
    exact hverdict
  · intro hverdict
    exact ⟨turn, hturn, Turn.exchange?_eq_some_iff.mpr ⟨hverdict, rfl⟩⟩

/-- The phases of the turns stand in declared order. -/
theorem sublist_phases
    (h : Account r e context start turns run) (hr : r.IsOf r.policy) :
    (turns.map (·.phase)).Sublist r.policy.phases :=
  h.phases.sublist.trans hr.phases_sublist

variable {before after : List Turn} {turn : Turn}

theorem mem_phases
    (h : Account r e context start turns run) (hr : r.IsOf r.policy) (hturn : turn ∈ turns) :
    turn.phase ∈ r.policy.phases :=
  (h.sublist_phases hr).subset (List.mem_map_of_mem hturn)

/-- Each result was recorded by a turn. -/
theorem exists_turn_of_mem_results
    (h : Account r e context start turns run) (hr : r.IsOf r.policy) {result : PhaseResult}
    (hresult : result ∈ run.tracker.results) :
    ∃ turn ∈ turns, turn.phase ∈ r.policy.phases ∧ turn.result r.policy = result := by
  rw [h.results] at hresult
  obtain ⟨turn, hturn, hsame⟩ := List.mem_map.mp hresult
  exact ⟨turn, hturn, h.mem_phases hr hturn, hsame⟩

/-- A phase whose turn came before is declared before. -/
theorem declaredBefore
    (h : Account r e context start turns run) (hr : r.IsOf r.policy)
    (hsplit : turns = before ++ turn :: after) {other : Turn} (hother : other ∈ before) :
    DeclaredBefore r.policy.phases other.phase.name turn.phase.name := by
  have hsub := h.sublist_phases hr
  rw [hsplit, List.map_append, List.map_cons] at hsub
  exact DeclaredBefore.of_sublist hsub (List.mem_map_of_mem (List.mem_map_of_mem hother))

/-- The phases whose turn came before are those that the runner goes through and that are declared
before. -/
theorem mem_before_iff
    (h : Account r e context start turns run) (hr : r.IsOf r.policy)
    (hsplit : turns = before ++ turn :: after) {d : String} :
    d ∈ before.map (·.phase.name) ↔
      d ∈ r.phases.map (·.name) ∧ DeclaredBefore r.policy.phases d turn.phase.name := by
  -- The runner goes through the phases that had a turn before, this one, and those behind it.
  obtain ⟨rest, hrest⟩ := h.phases
  rw [hsplit, List.map_append, List.map_cons, List.append_assoc, List.cons_append] at hrest
  constructor
  · intro hd
    obtain ⟨other, hother, rfl⟩ := List.mem_map.mp hd
    refine ⟨List.mem_map_of_mem ?_, h.declaredBefore hr hsplit hother⟩
    rw [← hrest]
    exact List.mem_append_left _ (List.mem_map_of_mem hother)
  · rintro ⟨hd, hdeclared⟩
    have hnames := r.policy.nodup_names
    have hsub := hr.phases_sublist
    rw [← hrest] at hd hsub
    rw [List.map_append, List.map_cons, List.map_map, List.mem_append, List.mem_cons] at hd
    rcases hd with hbefore | rfl | hlater
    · exact hbefore
    · exact absurd rfl (hdeclared.ne hnames)
    · obtain ⟨other, hother, rfl⟩ := List.mem_map.mp hlater
      obtain ⟨between, more, hmore⟩ := List.append_of_mem hother
      rw [hmore, ← List.cons_append, ← List.append_assoc] at hsub
      have hafter : DeclaredBefore r.policy.phases turn.phase.name other.name :=
        DeclaredBefore.of_sublist hsub
          (List.mem_map_of_mem (List.mem_append_right _ List.mem_cons_self))
      exact absurd hafter (hdeclared.not_symm hnames)

/-- A phase of the runner whose turn has not come yet is declared later. -/
theorem declaredBefore_of_notMem
    (h : Account r e context start turns run) (hr : r.IsOf r.policy)
    (hsplit : turns = before ++ turn :: after) {d : String} (hd : d ∈ r.phases.map (·.name))
    (hne : turn.phase.name ≠ d) (hlate : d ∉ before.map (·.phase.name)) :
    DeclaredBefore r.policy.phases turn.phase.name d := by
  have hturn : turn ∈ turns := by
    rw [hsplit]
    exact List.mem_append_cons_self
  have hphase := h.mem_phases hr hturn
  have hnot : ¬DeclaredBefore r.policy.phases d turn.phase.name :=
    fun hdeclared => hlate ((h.mem_before_iff hr hsplit).mpr ⟨hd, hdeclared⟩)
  have htotal := DeclaredBefore.total (List.mem_map_of_mem hphase)
    ((hr.phases_sublist.map _).subset hd) hne
  exact htotal.resolve_right hnot

/-- What was known of a phase when a turn came is its final result, if it is declared before. -/
theorem get?_before_eq_some_iff
    (h : Account r e context start turns run) (hr : r.IsOf r.policy)
    (hsplit : turns = before ++ turn :: after) {d : String} {result : PhaseResult} :
    (Turn.trackerAfter r.policy before).get? d = some result ↔
      DeclaredBefore r.policy.phases d turn.phase.name ∧
        (run.result context.path).phase? d = some result := by
  have hfinal : (run.result context.path).phase? d = ((Turn.trackerAfter r.policy before).get? d).or
      (((turn :: after).map (·.result r.policy)).find? (·.phase == d)) := by
    rw [h.phase?_result, h.tracker, Turn.get?_trackerAfter, Turn.get?_trackerAfter, hsplit,
      List.map_append, List.find?_append]
  constructor
  · intro hseen
    obtain ⟨other, hother, hname, rfl⟩ := Turn.exists_turn_of_get? hseen
    refine ⟨?_, by rw [hfinal, hseen, Option.some_or]⟩
    rw [← hname]
    exact h.declaredBefore hr hsplit hother
  · rintro ⟨hdeclared, hget⟩
    rw [hfinal, Option.or_eq_some_iff] at hget
    rcases hget with hseen | ⟨-, hlater⟩
    · exact hseen
    · -- The result would come from this turn or a later one.
      exfalso
      have hnames := r.policy.nodup_names
      have hname : result.phase = d := by simpa using List.find?_some hlater
      obtain ⟨other, hother, rfl⟩ := List.mem_map.mp (List.mem_of_find?_eq_some hlater)
      rw [Turn.result_phase] at hname
      rw [← hname] at hdeclared
      rcases List.mem_cons.mp hother with rfl | hafter
      · exact hdeclared.ne hnames rfl
      · obtain ⟨between, rest, rfl⟩ := List.append_of_mem hafter
        rw [← List.cons_append, ← List.append_assoc] at hsplit
        have hsymm := h.declaredBefore hr hsplit
          (List.mem_append_right before (List.mem_cons_self (l := between)))
        exact hdeclared.not_symm hnames hsymm

theorem outcome_before_eq_completed_iff
    (h : Account r e context start turns run) (hr : r.IsOf r.policy)
    (hsplit : turns = before ++ turn :: after) {d : String} :
    (Turn.trackerAfter r.policy before).outcome d = .completed ↔
      DeclaredBefore r.policy.phases d turn.phase.name ∧
        (run.result context.path).outcome d = .completed := by
  rw [h.outcome_result]
  simp only [Tracker.outcome_eq_completed_iff, h.get?_before_eq_some_iff hr hsplit,
    h.phase?_result]
  simp only [and_assoc, exists_and_left]

/-- The exchange with the executor in which a turn consists, and those before it. -/
theorem exists_turn_of_exchange
    (h : Account r e context start turns run)
    {earlier later : List (Call × Except Failure Output)} {call : Call}
    {answer : Except Failure Output}
    (hexchanges : e.exchanges run.calls start = earlier ++ (call, answer) :: later) :
    ∃ before turn after, turns = before ++ turn :: after ∧
      before.filterMap (·.exchange? context) = earlier ∧
      turn.exchange? context = some (call, answer) := by
  rw [h.exchanges] at hexchanges
  obtain ⟨front, back, rfl, hfront, hback⟩ := List.filterMap_eq_append_iff.mp hexchanges
  obtain ⟨passed, turn, after, rfl, hpassed, hturn, -⟩ := List.filterMap_eq_cons_iff.mp hback
  refine ⟨front ++ passed, turn, after, (List.append_assoc _ _ _).symm, ?_, hturn⟩
  have hnone : passed.filterMap (·.exchange? context) = [] :=
    List.filterMap_eq_nil_iff.mpr hpassed
  rw [List.filterMap_append, hfront, hnone, List.append_nil]

theorem calls_eq (h : Account r e context start turns run) :
    run.calls = (Turn.called turns).map (·.call context) := by
  have hcalls := Executor.map_fst_exchanges (e := e) run.calls start
  rw [h.exchanges] at hcalls
  rw [← hcalls]
  exact Turn.map_fst_exchanges turns

theorem sublist_called
    (h : Account r e context start turns run) (hr : r.IsOf r.policy) :
    (Turn.called turns).Sublist r.policy.phases :=
  (List.filter_sublist.map _).trans (h.sublist_phases hr)

theorem nodup_calls
    (h : Account r e context start turns run) (hr : r.IsOf r.policy) :
    (run.calls.map (·.phase)).Nodup := by
  rw [h.calls_eq, List.map_map]
  exact r.policy.nodup_names.sublist ((h.sublist_called hr).map _)

theorem mem_calls_iff
    (h : Account r e context start turns run) (hr : r.IsOf r.policy) {phase : Phase}
    (hphase : phase ∈ r.policy.phases) :
    phase.name ∈ run.calls.map (·.phase) ↔ phase ∈ Turn.called turns := by
  rw [h.calls_eq, List.map_map]
  constructor
  · intro hname
    obtain ⟨other, hother, hsame⟩ := List.mem_map.mp hname
    obtain rfl := eq_of_name_eq r.policy.nodup_names
      ((h.sublist_called hr).subset hother) hphase hsame
    exact hother
  · intro hmem
    exact List.mem_map_of_mem hmem

/-- A phase that was not handed to the executor was skipped at one of the gates. -/
theorem result_of_reason?_ne_none
    (h : Account r e context start turns run) (hturn : turn ∈ turns)
    (hreason : turn.reason? ≠ none) :
    (turn.result r.policy).outcome = .skipped ∧
      ∃ reason, (turn.result r.policy).skipReason = some reason ∧
        reason.kind ∈ ["dependency", "condition", "run_if"] := by
  obtain ⟨reason, hreason⟩ := Option.ne_none_iff_exists'.mp hreason
  obtain ⟨before, after, hsplit⟩ := List.append_of_mem hturn
  have hdecided := h.decided before turn after hsplit
  rw [hreason] at hdecided
  have hresult := Turn.result_of_reason? (p := r.policy) hreason
  rw [hresult]
  exact ⟨rfl, reason, rfl, Runner.kind_of_skipReason? hdecided.symm⟩

/-! ## Prerequisites -/

/-- What a phase requires has been carried out when the phase is handed to the executor. -/
theorem exists_carriedOut_of_requires
    (h : Account r e context start turns run) (hr : r.IsOf r.policy)
    (hsplit : turns = before ++ turn :: after) (hopen : turn.reason? = none) {d : String}
    (hd : Requires r.policy.phases turn.phase.name d) :
    ∃ other ∈ before, other.phase.name = d ∧ ∃ output, other.verdict = .answered (.ok output) := by
  have hturn : turn ∈ turns := by
    rw [hsplit]
    exact List.mem_append_right before List.mem_cons_self
  have hphase := h.mem_phases hr hturn
  have hdecided := h.decided before turn after hsplit
  rw [hopen] at hdecided
  obtain ⟨hprerequisites, -, -⟩ := (Runner.skipReason?_eq_none_iff hphase).mp hdecided.symm
  obtain ⟨result, hget, hcompleted⟩ := Tracker.outcome_eq_completed_iff.mp
    (hprerequisites d ((ValidatedPolicy.requires_iff hphase).mp hd))
  obtain ⟨other, hother, hname, rfl⟩ := Turn.exists_turn_of_get? hget
  exact ⟨other, hother, hname, Turn.result_completed_iff.mp hcompleted⟩

/-- So has what a phase requires through other phases, since each of these was handed to the
executor in turn. -/
theorem exists_carriedOut_of_transGen
    (h : Account r e context start turns run) (hr : r.IsOf r.policy) {a q : String}
    (hq : Relation.TransGen (Requires r.policy.phases) a q) :
    ∀ before turn after, turns = before ++ turn :: after → turn.phase.name = a →
      turn.reason? = none →
      ∃ other ∈ before, other.phase.name = q ∧
        ∃ output, other.verdict = .answered (.ok output) := by
  induction hq using Relation.TransGen.head_induction_on with
  | single hd =>
      rintro before turn after hsplit rfl hopen
      exact h.exists_carriedOut_of_requires hr hsplit hopen hd
  | head hd _ ih =>
      rintro before turn after hsplit rfl hopen
      obtain ⟨between, hbetween, hname, output, hverdict⟩ :=
        h.exists_carriedOut_of_requires hr hsplit hopen hd
      obtain ⟨front, back, rfl⟩ := List.append_of_mem hbetween
      rw [List.append_assoc, List.cons_append] at hsplit
      obtain ⟨other, hother, hdone⟩ :=
        ih front between _ hsplit hname (Turn.reason?_eq_none_iff.mpr ⟨_, hverdict⟩)
      exact ⟨other, List.mem_append_left _ hother, hdone⟩

end Account

section Runs

variable {σ : Type} {p : ValidatedPolicy} {r : Runner}

/-- When the executor is called for a phase, every phase that it requires, also through other
phases, is declared before it and belongs to the run, has been handed to the executor before and
was carried out, and has completed in the end. -/
theorem Runner.carriedOut_of_transGen_requires
    (hr : r.IsOf p) {e : Executor σ} {context : FileContext} {world : σ}
    {earlier later : List (Call × Except Failure Output)} {call : Call}
    {answer : Except Failure Output}
    (hcall : e.exchanges (r.runFile e context world).calls world =
      earlier ++ (call, answer) :: later)
    {q : String} (hq : Relation.TransGen (Requires p.phases) call.phase q) :
    DeclaredBefore p.phases q call.phase ∧
      q ∈ r.phases.map (·.name) ∧
      (∃ asked output, (asked, .ok output) ∈ earlier ∧ asked.phase = q) ∧
      ((r.runFile e context world).result context.path).outcome q = .completed := by
  obtain rfl := hr.policy_eq
  obtain ⟨turns, h, -⟩ := exists_account hr.nodup_names e context world
  obtain ⟨before, turn, after, hsplit, hearlier, hturn⟩ := h.exists_turn_of_exchange hcall
  obtain ⟨hverdict, rfl⟩ := Turn.exchange?_eq_some_iff.mp hturn
  have hopen : turn.reason? = none := Turn.reason?_eq_none_iff.mpr ⟨_, hverdict⟩
  obtain ⟨other, hother, rfl, output, hdone⟩ :=
    h.exists_carriedOut_of_transGen hr hq before turn after hsplit rfl hopen
  have hmem : other ∈ turns := by
    rw [hsplit]
    exact List.mem_append_left _ hother
  refine ⟨h.declaredBefore hr hsplit hother, ?_, ?_, ?_⟩
  · exact List.mem_map_of_mem (h.phases.subset (List.mem_map_of_mem hmem))
  · refine ⟨other.phase.call context, output, ?_, rfl⟩
    rw [← hearlier]
    exact List.mem_filterMap.mpr ⟨other, hother, Turn.exchange?_eq_some_iff.mpr ⟨hdone, rfl⟩⟩
  · have hget := h.get?_of_mem_turns hmem
    rw [h.outcome_result]
    exact (Tracker.outcome_eq_of_get? hget).trans (Turn.result_completed_iff.mpr ⟨output, hdone⟩)

/-- A chain of three phases. -/
def ValidatedPolicy.chain : ValidatedPolicy where
  phases := [
    { name := "cut" }, { name := "mix", dependsOn := ["cut"] },
    { name := "tag", dependsOn := ["mix"] }]
  graph := DependencyGraph.ofPhases [
    { name := "cut" }, { name := "mix", dependsOn := ["cut"] },
    { name := "tag", dependsOn := ["mix"] }]
  errorMode := .proceed
  graph_eq := by cbv

/-- An executor that can be called three times. -/
def Executor.patient : Executor ℕ where
  name := "patient"
  execute := fun _ count =>
    (if count < 3 then .ok {} else .error (.internal "out of patience"), count + 1)

theorem Runner.cut_carriedOut_of_tag :
    let context : FileContext := { path := "film.mkv", media := {} }
    ((Runner.runFile { policy := .chain } .patient context 0).result context.path).outcome "cut" =
      .completed := by
  intro context
  have hcall : Executor.patient.exchanges
      (Runner.runFile { policy := .chain } .patient context 0).calls 0 =
        [(⟨"cut", {}, context⟩, .ok {}), (⟨"mix", {}, context⟩, .ok {})] ++
          (⟨"tag", {}, context⟩, .ok {}) :: [] := by
    rfl
  have hmix : Requires ValidatedPolicy.chain.phases "tag" "mix" := by
    simp [Requires, ValidatedPolicy.chain]
  have hcut : Requires ValidatedPolicy.chain.phases "mix" "cut" := by
    simp [Requires, ValidatedPolicy.chain]
  exact (Runner.carriedOut_of_transGen_requires .all hcall (.head hmix (.single hcut))).2.2.2

/-! ## Admission -/

/-- Whether a phase may be handed to the executor, judged on the finished run. -/
structure Admitted (phases : List Phase) (media : MediaInfo) (final : FileResult) (phase : Phase) :
    Prop where
  prerequisites : ∀ d ∈ phase.dependsOn,
    DeclaredBefore phases d phase.name ∧ final.outcome d = .completed
  skipWhen : ∀ c, phase.skipWhen = some c → c.evaluate media = none
  runIf : ∀ c, phase.runIf = some c →
    ∃ result, final.phase? c.reference = some result ∧ result.outcome = .completed ∧
      (c.requirement = .modified → result.fileModified = true)

/-- The decision on a phase, read off the finished run. -/
theorem Account.reason?_eq_none_iff_admitted
    {e : Executor σ} {context : FileContext} {start : σ} {turns : List Turn} {run : FileRun σ}
    (h : Account r e context start turns run) (hr : r.IsOf r.policy) {turn : Turn}
    (hturn : turn ∈ turns) :
    turn.reason? = none ↔
      Admitted r.policy.phases context.media (run.result context.path) turn.phase := by
  obtain ⟨before, after, hsplit⟩ := List.append_of_mem hturn
  have hphase := h.mem_phases hr hturn
  rw [h.decided before turn after hsplit, Runner.skipReason?_eq_none_iff hphase]
  constructor
  · rintro ⟨hprerequisites, hskipWhen, hrunIf⟩
    refine ⟨?_, hskipWhen, ?_⟩
    · intro d hd
      exact (h.outcome_before_eq_completed_iff hr hsplit).mp (hprerequisites d hd)
    · intro c hc
      obtain ⟨result, hget, hresult⟩ := RunIf.holds_iff.mp (hrunIf c hc)
      exact ⟨result, ((h.get?_before_eq_some_iff hr hsplit).mp hget).2, hresult⟩
  · rintro ⟨hprerequisites, hskipWhen, hrunIf⟩
    refine ⟨?_, hskipWhen, ?_⟩
    · intro d hd
      exact (h.outcome_before_eq_completed_iff hr hsplit).mpr (hprerequisites d hd)
    · intro c hc
      obtain ⟨result, hget, hresult⟩ := hrunIf c hc
      have hdeclared := ValidatedPolicy.declaredBefore_of_runIf hphase hc
      exact RunIf.holds_iff.mpr
        ⟨result, (h.get?_before_eq_some_iff hr hsplit).mpr ⟨hdeclared, hget⟩, hresult⟩

/-- The phases that were handed to the executor, read off the finished run. -/
theorem Account.mem_called_iff_admitted
    {e : Executor σ} {context : FileContext} {start : σ} {turns : List Turn} {run : FileRun σ}
    (h : Account r e context start turns run) (hr : r.IsOf r.policy) {phase : Phase} :
    phase ∈ Turn.called turns ↔
      phase ∈ r.policy.phases ∧ phase.name ∈ run.tracker.results.map (·.phase) ∧
        Admitted r.policy.phases context.media (run.result context.path) phase := by
  rw [h.map_phase_results, Turn.mem_called]
  constructor
  · rintro ⟨turn, hturn, hopen, rfl⟩
    exact ⟨h.mem_phases hr hturn, List.mem_map_of_mem (List.mem_map_of_mem hturn),
      (h.reason?_eq_none_iff_admitted hr hturn).mp hopen⟩
  · rintro ⟨hphase, hname, hadmitted⟩
    rw [List.map_map] at hname
    obtain ⟨turn, hturn, hsame⟩ := List.mem_map.mp hname
    obtain rfl := eq_of_name_eq r.policy.nodup_names (h.mem_phases hr hturn) hphase hsame
    exact ⟨turn, hturn, (h.reason?_eq_none_iff_admitted hr hturn).mpr hadmitted, rfl⟩

/-- Judged on the finished run: of the phases that were recorded, the executor was called for
those that could be admitted, for each of them once, in declared order and with the operations of
the phase; the others were skipped at one of the gates. -/
theorem Runner.called_iff_admitted
    (hr : r.IsOf p) (e : Executor σ) (context : FileContext) (world : σ) :
    let run := r.runFile e context world
    let final := run.result context.path
    (final.phaseResults.map (·.phase)).Sublist (p.phases.map (·.name)) ∧
      (∀ phase ∈ p.phases, phase.name ∈ final.phaseResults.map (·.phase) →
        (phase.name ∈ run.calls.map (·.phase) ↔
          Admitted p.phases context.media final phase)) ∧
      (∃ called : List Phase, called.Sublist p.phases ∧
        run.calls = called.map (·.call context) ∧
        ∀ phase, phase ∈ called ↔
          phase ∈ p.phases ∧ phase.name ∈ final.phaseResults.map (·.phase) ∧
            Admitted p.phases context.media final phase) ∧
      (run.calls.map (·.phase)).Nodup ∧
      ∀ result ∈ final.phaseResults, result.phase ∉ run.calls.map (·.phase) →
        result.outcome = .skipped ∧
          ∃ reason, result.skipReason = some reason ∧
            reason.kind ∈ ["dependency", "condition", "run_if"] := by
  intro run final
  obtain rfl := hr.policy_eq
  obtain ⟨turns, h, -⟩ := exists_account hr.nodup_names e context world
  refine ⟨?_, ?_, ⟨_, h.sublist_called hr, h.calls_eq, fun phase => ?_⟩, h.nodup_calls hr, ?_⟩
  · have hrecorded : final.phaseResults.map (·.phase) = (turns.map (·.phase)).map (·.name) :=
      h.map_phase_results
    rw [hrecorded]
    exact (h.sublist_phases hr).map _
  · intro phase hphase hname
    rw [h.mem_calls_iff hr hphase, h.mem_called_iff_admitted hr]
    exact ⟨fun hmem => hmem.2.2, fun hadmitted => ⟨hphase, hname, hadmitted⟩⟩
  · exact h.mem_called_iff_admitted hr
  · intro result hresult hcalls
    have hresults : final.phaseResults = turns.map (·.result r.policy) := h.results
    rw [hresults] at hresult
    obtain ⟨turn, hturn, rfl⟩ := List.mem_map.mp hresult
    rw [Turn.result_phase, h.mem_calls_iff hr (h.mem_phases hr hturn)] at hcalls
    refine h.result_of_reason?_ne_none hturn fun hopen => hcalls ?_
    exact Turn.mem_called.mpr ⟨turn, hturn, hopen, rfl⟩

/-- In the chain a phase whose prerequisite fails is not admitted. -/
theorem Runner.tag_not_admitted :
    let context : FileContext := { path := "film.mkv", media := {} }
    let final := (Runner.runFile { policy := .chain } .patient context 2).result context.path
    ¬Admitted ValidatedPolicy.chain.phases context.media final
      { name := "tag", dependsOn := ["mix"] } := by
  intro context final
  have hcalls : (Runner.runFile { policy := .chain } .patient context 2).calls.map (·.phase) =
      ["cut", "mix"] := by
    rfl
  have hrecorded : final.phaseResults.map (·.phase) = ["cut", "mix", "tag"] := by
    rfl
  have hrunner : IsOf .chain { policy := .chain } := .all
  have hiff := (Runner.called_iff_admitted hrunner .patient context 2).2.1
    { name := "tag", dependsOn := ["mix"] } (by simp [ValidatedPolicy.chain])
    (by change "tag" ∈ final.phaseResults.map (·.phase); rw [hrecorded]; simp)
  intro hadmitted
  have hcalled := hiff.mpr hadmitted
  rw [hcalls] at hcalled
  simp at hcalled

end Runs

end MediaPhases
