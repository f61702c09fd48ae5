import MediaPhases.Proofs.Engine.Halting
import MediaPhases.Proofs.Outcome.Summary

/-!
# What a run records

In a run each phase that comes up is told and then recorded.  The tracker refuses a result whose
phase it already holds or whose outcome is not final; neither happens, because the phases of a
runner have different names.  So nothing is lost, doubled or moved: the results are those of the
first phases of the runner, and the progress, the counts and the look-ups of the finished run agree
with them.
-/

namespace MediaPhases

/-- The result of a file is an exact record of the run of a runner. -/
structure KeepsRecord
    (r : Runner) (path : String) (progress : List Progress) (final : FileResult) : Prop where
  declared : r.phases.Sublist r.policy.phases
  begins : final.phaseResults.map (·.phase) <+: r.phases.map (·.name)
  nodup : (final.phaseResults.map (·.phase)).Nodup
  complete : final.stoppedEarly = false →
    final.phaseResults.map (·.phase) = r.phases.map (·.name)
  progress : progress = final.phaseResults.mapIdx fun i result =>
    ⟨path, result.phase, i, r.phases.length⟩
  tallies : Tallies final.summary final.phaseResults
  total : final.summary.total = final.phaseResults.length
  completed_of_modified : ∀ result ∈ final.phaseResults,
    result.fileModified = true → result.outcome = .completed
  modified : final.summary.modified = final.phaseResults.countP (·.fileModified)
  found : ∀ result ∈ final.phaseResults,
    final.phase? result.phase = some result ∧ final.outcome result.phase = result.outcome
  pending : ∀ name, name ∉ final.phaseResults.map (·.phase) →
    final.phase? name = none ∧ final.outcome name = .pending

namespace Turn

variable {p : ValidatedPolicy} {turn : Turn}

/-- Only what the executor has carried out counts as modified. -/
theorem result_completed_of_modified (h : (turn.result p).fileModified = true) :
    (turn.result p).outcome = .completed := by
  obtain ⟨output, hverdict, -⟩ := result_modified_iff.mp h
  exact result_completed_iff.mpr ⟨output, hverdict⟩

end Turn

namespace Account

variable {σ : Type} {r : Runner} {e : Executor σ} {context : FileContext} {start : σ}
  {turns : List Turn} {run : FileRun σ}

/-- The phase that comes up next stands behind those that had a turn. -/
theorem next
    (h : Account r e context start turns run) {phase : Phase}
    (hphase : r.phases[turns.length]? = some phase) :
    ∃ rest, r.phases = turns.map (·.phase) ++ phase :: rest := by
  obtain ⟨rest, hrest⟩ := h.phases
  have hlength : (turns.map (·.phase)).length ≤ turns.length := by rw [List.length_map]
  rw [← hrest, List.getElem?_append_right hlength, List.length_map, Nat.sub_self] at hphase
  cases rest with
  | nil => cases hphase
  | cons first rest =>
      cases hphase
      exact ⟨rest, hrest.symm⟩

/-- The result of the phase that comes up next is not refused. -/
theorem record_next
    (h : Account r e context start turns run) (hnodup : (r.phases.map (·.name)).Nodup)
    (hgoesOn : run.halt = none) {phase : Phase} (hphase : r.phases[turns.length]? = some phase)
    (index total : ℕ) :
    (Tracker.record ((Runner.turnOf r.policy e context phase run).result r.policy)).run
        run.tracker =
      .ok () (Runner.stepPhase r.policy e context index total phase run).tracker := by
  obtain ⟨rest, hrest⟩ := h.next hphase
  have hfresh : ((Runner.turnOf r.policy e context phase run).result r.policy).phase ∉
      run.tracker.results.map (·.phase) := by
    rw [Turn.result_phase]
    exact h.fresh hnodup hrest
  have haccepted := h.inStep.run_record_of_fresh Turn.result_isFinal hfresh
  rw [Runner.stepPhase_eq hgoesOn, haccepted]
  exact congrArg (EStateM.Result.ok ()) (Tracker.recorded_of_ok haccepted).symm

theorem progress_eq (h : Account r e context start turns run) :
    run.progress = run.tracker.results.mapIdx fun i result =>
      ⟨context.path, result.phase, i, r.phases.length⟩ := by
  rw [h.progress, h.results]
  refine List.ext_getElem? fun i => ?_
  rw [List.getElem?_mapIdx, List.getElem?_mapIdx, List.getElem?_map, Option.map_map]
  exact Option.map_congr fun turn _ => by rw [Function.comp_apply, Turn.result_phase]

theorem isFinal_of_mem_results
    (h : Account r e context start turns run) {result : PhaseResult}
    (hresult : result ∈ run.tracker.results) : result.outcome.isFinal = true := by
  rw [h.results] at hresult
  obtain ⟨turn, -, rfl⟩ := List.mem_map.mp hresult
  exact Turn.result_isFinal

theorem completed_of_modified
    (h : Account r e context start turns run) {result : PhaseResult}
    (hresult : result ∈ run.tracker.results) (hmodified : result.fileModified = true) :
    result.outcome = .completed := by
  rw [h.results] at hresult
  obtain ⟨turn, -, rfl⟩ := List.mem_map.mp hresult
  exact Turn.result_completed_of_modified hmodified

theorem keepsRecord
    (h : Account r e context start turns run) (hr : r.IsOf r.policy)
    (hall : run.halt = none → turns.map (·.phase) = r.phases) :
    KeepsRecord r context.path run.progress (run.result context.path) := by
  have htallies : Tallies run.tracker.summary run.tracker.results :=
    Summary.tallies_ofResults run.tracker.results
  constructor
  case declared => exact hr.phases_sublist
  case begins =>
    change run.tracker.results.map (·.phase) <+: _
    rw [h.map_phase_results]
    exact h.phases.map (·.name)
  case nodup => exact h.inStep.nodup
  case complete =>
    intro hstopped
    have hhalt : run.halt = none :=
      Option.isNone_iff_eq_none.mp (Option.isSome_eq_false_iff.mp hstopped)
    change run.tracker.results.map (·.phase) = _
    rw [h.map_phase_results, hall hhalt]
  case progress => exact h.progress_eq
  case tallies => exact htallies
  case total => exact Summary.total_ofResults fun result => h.isFinal_of_mem_results
  case completed_of_modified => exact fun result => h.completed_of_modified
  case modified =>
    refine htallies.modified.trans (List.countP_congr fun result hresult => ?_)
    have hcompleted := h.completed_of_modified hresult
    rw [decide_eq_true_iff]
    exact ⟨And.right, fun hmodified => ⟨hcompleted hmodified, hmodified⟩⟩
  case found =>
    intro result hresult
    have hget : run.tracker.get? result.phase = some result := h.inStep.get?_of_mem hresult
    rw [h.phase?_result, h.outcome_result]
    exact ⟨hget, Tracker.outcome_eq_of_get? hget⟩
  case pending =>
    intro name hname
    have hget : run.tracker.get? name = none := h.inStep.get?_eq_none_iff.mpr hname
    rw [h.phase?_result, h.outcome_result]
    exact ⟨hget, Tracker.outcome_eq_pending hget⟩

end Account

/-! ## The states of a run -/

section Passes

variable {σ : Type} {r : Runner} {e : Executor σ} {context : FileContext} {world : σ}

/-- The states that a run comes through, each with the number of phases that it has behind it. -/
inductive Runner.Passes (r : Runner) (e : Executor σ) (context : FileContext) (world : σ) :
    ℕ → FileRun σ → Prop where
  | start : Passes r e context world 0 { world := world }
  | step {index : ℕ} {run : FileRun σ} {phase : Phase} (h : Passes r e context world index run)
      (hgoesOn : run.halt = none) (hphase : r.phases[index]? = some phase) :
      Passes r e context world (index + 1)
        (stepPhase r.policy e context index r.phases.length phase run)

namespace Runner

/-- A run ends in a state that it has come through. -/
theorem Passes.runPhases
    {done rest : List Phase} (hphases : r.phases = done ++ rest) {run : FileRun σ}
    (h : Passes r e context world done.length run) (hgoesOn : run.halt = none) :
    ∃ index, Passes r e context world index
      (Runner.runPhases r.policy e context r.phases.length done.length rest run) := by
  induction rest generalizing done run with
  | nil => exact ⟨done.length, h⟩
  | cons phase rest ih =>
      have hphase : r.phases[done.length]? = some phase := by
        rw [hphases, List.getElem?_append_right (Nat.le_refl _), Nat.sub_self]
        rfl
      have hstep := h.step hgoesOn hphase
      rw [Runner.runPhases]
      cases hnext : (stepPhase r.policy e context done.length r.phases.length phase run).halt with
      | some halt => exact ⟨_, hstep⟩
      | none =>
          have hlength : (done ++ [phase]).length = done.length + 1 := by simp
          rw [← hlength] at hstep ⊢
          refine ih ?_ hstep hnext
          rw [hphases, List.append_assoc]
          rfl

/-- A state with a number of phases behind it comes about by as many turns. -/
theorem Passes.exists_account
    (hnodup : (r.phases.map (·.name)).Nodup) {index : ℕ} {run : FileRun σ}
    (h : Passes r e context world index run) :
    ∃ turns, Account r e context world turns run ∧ turns.length = index := by
  induction h with
  | start => exact ⟨[], Account.nil, rfl⟩
  | @step index run phase _ hgoesOn hphase ih =>
      obtain ⟨turns, h, rfl⟩ := ih
      obtain ⟨rest, hrest⟩ := h.next hphase
      exact ⟨_, h.step hgoesOn hnodup hrest, by simp⟩

/-- In every run each result is recorded when its phase comes up, and the finished run tells exactly
what was recorded. -/
theorem keepsRecord_runFile
    {p : ValidatedPolicy} (hr : r.IsOf p) (e : Executor σ) (context : FileContext) (world : σ) :
    let run := r.runFile e context world
    let final := run.result context.path
    (∀ index state phase, r.Passes e context world index state → state.halt = none →
      r.phases[index]? = some phase →
        (Tracker.record ((turnOf p e context phase state).result p)).run state.tracker =
          .ok () (stepPhase p e context index r.phases.length phase state).tracker) ∧
      r.Passes e context world final.phaseResults.length run ∧
      KeepsRecord r context.path run.progress final := by
  intro run final
  obtain rfl := hr.policy_eq
  have hnodup : (r.phases.map (·.name)).Nodup := hr.nodup_names
  refine ⟨?_, ?_, ?_⟩
  · intro index state phase hpasses hgoesOn hphase
    obtain ⟨turns, h, rfl⟩ := hpasses.exists_account hnodup
    exact h.record_next hnodup hgoesOn hphase turns.length r.phases.length
  · have hstart : r.Passes e context world ([] : List Phase).length { world := world } := .start
    obtain ⟨index, hpasses⟩ := hstart.runPhases (List.nil_append _).symm rfl
    obtain ⟨turns, h, hindex⟩ := hpasses.exists_account hnodup
    have hlength : final.phaseResults.length = index := by
      rw [← hindex]
      exact (congrArg List.length h.results).trans (List.length_map _)
    rw [hlength]
    exact hpasses
  · obtain ⟨turns, h, hall⟩ := Runner.exists_account hnodup e context world
    exact h.keepsRecord hr hall

/-- A run that ends with its second phase has recorded two of three phases, and the third is
pending. -/
theorem tag_pending_after_mix :
    let context : FileContext := { path := "film.mkv", media := {} }
    let run := Runner.runFile { policy := .strict } .patient context 3
    let final := run.result context.path
    final.stoppedEarly = true ∧ final.summary = { failed := 2 } ∧
      run.progress = [⟨"film.mkv", "cut", 0, 3⟩, ⟨"film.mkv", "mix", 1, 3⟩] ∧
      final.summary.total = final.phaseResults.length ∧ final.outcome "tag" = .pending := by
  intro context run final
  have hrecord : KeepsRecord { policy := .strict } "film.mkv" run.progress final :=
    (keepsRecord_runFile .all .patient context 3).2.2
  have hnames : final.phaseResults.map (·.phase) = ["cut", "mix"] := by
    rfl
  refine ⟨rfl, rfl, rfl, hrecord.total, (hrecord.pending "tag" ?_).2⟩
  rw [hnames]
  simp

end Runner

end Passes

end MediaPhases
