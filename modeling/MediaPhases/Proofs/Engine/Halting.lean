import MediaPhases.Proofs.Engine.Gates

/-!
# How runs end

A run ends early when a phase fails under the error mode that stops.  That phase is the last one
recorded and the last one for which the executor was called.  The result of the run names it and
repeats its error; the failures before it, and all failures of a run that does not end early,
happened under the error mode that goes on.
-/

namespace MediaPhases

/-- The result of a phase that failed under an error mode. -/
def FailedUnder (p : ValidatedPolicy) (mode : ErrorMode) (result : PhaseResult) : Prop :=
  result.outcome = .failed ∧
    ∃ phase ∈ p.phases, phase.name = result.phase ∧ p.errorModeOf phase = mode

/-- The result of a file tells how its run ended, in which the executor gave certain answers. -/
structure TellsEnd
    (p : ValidatedPolicy) (exchanges : List (Call × Except Failure Output)) (final : FileResult) :
    Prop where
  success_eq_false_iff : final.success = false ↔
    ∃ last, final.phaseResults.getLast? = some last ∧ FailedUnder p .stop last
  /-- A failure other than the one that ended the run did not keep it from going on. -/
  proceeded : ∀ result ∈ final.phaseResults, result.outcome = .failed →
    ¬(final.success = false ∧ final.phaseResults.getLast? = some result) →
      FailedUnder p .proceed result
  not_skip : ∀ result ∈ final.phaseResults, ¬FailedUnder p .skip result
  stoppedEarly : final.stoppedEarly = !final.success
  of_success : final.success = true → final.failedPhase = none ∧ final.errorMessage = none
  of_halt : final.success = false →
    ∃ last error, final.phaseResults.getLast? = some last ∧ last.error = some error ∧
      final.failedPhase = some last.phase ∧ final.errorMessage = some error
  /-- The executor was not called after the call that ended the run. -/
  lastCall : ∀ last, final.success = false → final.phaseResults.getLast? = some last →
    ∃ earlier call failure, exchanges = earlier ++ [(call, .error failure)] ∧
      call.phase = last.phase ∧ last.error = some failure.message

/-! ## The end of a turn -/

namespace Turn

variable {p : ValidatedPolicy} {turn : Turn}

/-- A turn ends the run when the executor fails and the error mode stops. -/
theorem halt_eq_some_iff {halt : Halt} :
    turn.halt p = some halt ↔
      ∃ failure, turn.verdict = .answered (.error failure) ∧
        p.errorModeOf turn.phase = .stop ∧ halt = ⟨turn.phase.name, failure.message⟩ := by
  rw [Turn.halt]
  cases turn.verdict with
  | skipped reason => simp
  | answered answer =>
      cases answer with
      | ok output => simp [Runner.settle]
      | error failure => cases p.errorModeOf turn.phase <;> simp [Runner.settle, eq_comm]

/-- A phase is recorded as failed when the executor fails, unless the error mode skips. -/
theorem result_failed_iff :
    (turn.result p).outcome = .failed ↔
      ∃ failure, turn.verdict = .answered (.error failure) ∧
        p.errorModeOf turn.phase ≠ .skip ∧ (turn.result p).error = some failure.message := by
  rw [result]
  cases turn.verdict with
  | skipped reason => simp [Runner.skipped]
  | answered answer =>
      cases answer with
      | ok output => simp [Runner.settle]
      | error failure => cases p.errorModeOf turn.phase <;> simp [Runner.settle, Runner.skipped]

theorem failedUnder_result_iff {mode : ErrorMode} (hphase : turn.phase ∈ p.phases) :
    FailedUnder p mode (turn.result p) ↔
      (turn.result p).outcome = .failed ∧ p.errorModeOf turn.phase = mode := by
  refine and_congr_right fun _ => ?_
  rw [result_phase]
  constructor
  · rintro ⟨phase, hmem, hname, hmode⟩
    rw [eq_of_name_eq p.nodup_names hmem hphase hname] at hmode
    exact hmode
  · intro hmode
    exact ⟨turn.phase, hphase, rfl, hmode⟩

/-- The result of a turn that ends the run. -/
theorem result_of_halt {halt : Halt} (h : turn.halt p = some halt) :
    (turn.result p).outcome = .failed ∧ (turn.result p).phase = halt.phase ∧
      (turn.result p).error = some halt.error := by
  obtain ⟨failure, hverdict, hmode, rfl⟩ := halt_eq_some_iff.mp h
  rw [result, hverdict, hmode]
  exact ⟨rfl, rfl, rfl⟩

theorem exists_halt_iff (hphase : turn.phase ∈ p.phases) :
    (∃ halt, turn.halt p = some halt) ↔ FailedUnder p .stop (turn.result p) := by
  rw [failedUnder_result_iff hphase]
  constructor
  · rintro ⟨halt, h⟩
    obtain ⟨failure, -, hmode, -⟩ := halt_eq_some_iff.mp h
    exact ⟨(result_of_halt h).1, hmode⟩
  · rintro ⟨hfailed, hmode⟩
    obtain ⟨failure, hverdict, -, -⟩ := result_failed_iff.mp hfailed
    exact ⟨_, halt_eq_some_iff.mpr ⟨failure, hverdict, hmode, rfl⟩⟩

/-- A failure that does not end the run happened under the error mode that goes on. -/
theorem failedUnder_proceed (hphase : turn.phase ∈ p.phases)
    (hfailed : (turn.result p).outcome = .failed) (hhalt : turn.halt p = none) :
    FailedUnder p .proceed (turn.result p) := by
  obtain ⟨failure, hverdict, hskip, -⟩ := result_failed_iff.mp hfailed
  rw [failedUnder_result_iff hphase]
  refine ⟨hfailed, ?_⟩
  cases hmode : p.errorModeOf turn.phase with
  | proceed => rfl
  | skip => exact absurd hmode hskip
  | stop =>
      rw [halt_eq_some_iff.mpr ⟨failure, hverdict, hmode, rfl⟩] at hhalt
      cases hhalt

end Turn

/-! ## The end of a run -/

theorem FileRun.success_eq_false_iff {σ : Type} {run : FileRun σ} {path : String} :
    (run.result path).success = false ↔ ∃ halt, run.halt = some halt := by
  rw [FileRun.result, Option.isNone_eq_false_iff, Option.isSome_iff_exists]

theorem FileRun.failedPhase_eq_some_iff {σ : Type} {run : FileRun σ} {path name : String} :
    (run.result path).failedPhase = some name ↔ ∃ halt, run.halt = some halt ∧ halt.phase = name :=
  Option.map_eq_some_iff

namespace Account

variable {σ : Type} {r : Runner} {e : Executor σ} {context : FileContext} {start : σ}
  {turns : List Turn} {run : FileRun σ}

theorem halt_eq_some_iff (h : Account r e context start turns run) {halt : Halt} :
    run.halt = some halt ↔
      ∃ last, turns.getLast? = some last ∧ last.halt r.policy = some halt := by
  rw [h.halt, Option.bind_eq_some_iff]

theorem getLast?_results
    (h : Account r e context start turns run) {result : PhaseResult} :
    run.tracker.results.getLast? = some result ↔
      ∃ last, turns.getLast? = some last ∧ last.result r.policy = result := by
  rw [h.results, List.getLast?_map, Option.map_eq_some_iff]

/-- Only the last turn can have ended the run, and it did if the run has ended. -/
theorem halt_turn
    (h : Account r e context start turns run) {turn : Turn} (hturn : turn ∈ turns)
    {halt : Halt} (hhalt : turn.halt r.policy = some halt) :
    turns.getLast? = some turn ∧ run.halt = some halt := by
  rcases List.eq_nil_or_concat turns with rfl | ⟨front, last, rfl⟩
  · cases hturn
  · rw [List.concat_eq_append] at hturn h ⊢
    have hlast : turn = last := by
      rcases List.mem_append.mp hturn with hfront | hlast
      · have hgoesOn := h.goesOn
        rw [List.dropLast_concat] at hgoesOn
        rw [hgoesOn turn hfront] at hhalt
        cases hhalt
      · exact List.mem_singleton.mp hlast
    subst hlast
    have hget : (front ++ [turn]).getLast? = some turn := List.getLast?_concat
    exact ⟨hget, h.halt_eq_some_iff.mpr ⟨turn, hget, hhalt⟩⟩

theorem halt_eq_some_iff_exists_turn (h : Account r e context start turns run) {halt : Halt} :
    run.halt = some halt ↔ ∃ turn ∈ turns, turn.halt r.policy = some halt := by
  constructor
  · intro hhalt
    obtain ⟨last, hlast, hturn⟩ := h.halt_eq_some_iff.mp hhalt
    exact ⟨last, List.mem_of_getLast? hlast, hturn⟩
  · rintro ⟨turn, hturn, hhalt⟩
    exact (h.halt_turn hturn hhalt).2

/-- The executor was not called after it had failed in the turn that ended the run. -/
theorem exchanges_of_halt
    (h : Account r e context start turns run) {last : Turn} (hlast : turns.getLast? = some last)
    {halt : Halt} (hhalt : last.halt r.policy = some halt) :
    ∃ earlier failure,
      e.exchanges run.calls start = earlier ++ [(last.phase.call context, .error failure)] ∧
        halt.error = failure.message := by
  obtain ⟨front, rfl⟩ := List.getLast?_eq_some_iff.mp hlast
  obtain ⟨failure, hverdict, -, rfl⟩ := Turn.halt_eq_some_iff.mp hhalt
  have hexchange : last.exchange? context = some (last.phase.call context, .error failure) :=
    Turn.exchange?_eq_some_iff.mpr ⟨hverdict, rfl⟩
  refine ⟨front.filterMap (·.exchange? context), failure, ?_, rfl⟩
  rw [h.exchanges, List.filterMap_append, List.filterMap_cons_some hexchange, List.filterMap_nil]

/-- A run that has ended was ended by the last turn, whose result is the last one. -/
theorem exists_last_of_halt
    (h : Account r e context start turns run) {halt : Halt} (hhalt : run.halt = some halt) :
    ∃ last, turns.getLast? = some last ∧ last.halt r.policy = some halt ∧
      run.tracker.results.getLast? = some (last.result r.policy) := by
  obtain ⟨last, hlast, hturn⟩ := h.halt_eq_some_iff.mp hhalt
  exact ⟨last, hlast, hturn, h.getLast?_results.mpr ⟨last, hlast, rfl⟩⟩

/-- A run has ended exactly when the phase recorded last failed under the error mode that stops. -/
theorem exists_halt_iff (h : Account r e context start turns run) (hr : r.IsOf r.policy) :
    (∃ halt, run.halt = some halt) ↔
      ∃ last, run.tracker.results.getLast? = some last ∧ FailedUnder r.policy .stop last := by
  constructor
  · rintro ⟨halt, hhalt⟩
    obtain ⟨last, hlast, hturn, hresult⟩ := h.exists_last_of_halt hhalt
    have hphase := h.mem_phases hr (List.mem_of_getLast? hlast)
    exact ⟨_, hresult, (Turn.exists_halt_iff hphase).mp ⟨halt, hturn⟩⟩
  · rintro ⟨result, hresult, hfailed⟩
    obtain ⟨last, hlast, rfl⟩ := h.getLast?_results.mp hresult
    have hphase := h.mem_phases hr (List.mem_of_getLast? hlast)
    obtain ⟨halt, hturn⟩ := (Turn.exists_halt_iff hphase).mpr hfailed
    exact ⟨halt, h.halt_eq_some_iff.mpr ⟨last, hlast, hturn⟩⟩

theorem tellsEnd (h : Account r e context start turns run) (hr : r.IsOf r.policy) :
    TellsEnd r.policy (e.exchanges run.calls start) (run.result context.path) := by
  constructor
  case success_eq_false_iff =>
    rw [FileRun.success_eq_false_iff]
    exact h.exists_halt_iff hr
  case proceeded =>
    intro result hresult hfailed hother
    obtain ⟨turn, hturn, hphase, rfl⟩ := h.exists_turn_of_mem_results hr hresult
    cases hhalt : turn.halt r.policy with
    | none => exact Turn.failedUnder_proceed hphase hfailed hhalt
    | some halt =>
        obtain ⟨hlast, hrun⟩ := h.halt_turn hturn hhalt
        refine absurd ⟨FileRun.success_eq_false_iff.mpr ⟨halt, hrun⟩, ?_⟩ hother
        exact h.getLast?_results.mpr ⟨turn, hlast, rfl⟩
  case not_skip =>
    intro result hresult hskip
    obtain ⟨turn, hturn, hphase, rfl⟩ := h.exists_turn_of_mem_results hr hresult
    obtain ⟨hfailed, hmode⟩ := (Turn.failedUnder_result_iff hphase).mp hskip
    obtain ⟨failure, -, hne, -⟩ := Turn.result_failed_iff.mp hfailed
    exact hne hmode
  case stoppedEarly =>
    exact (Option.not_isNone run.halt).symm
  case of_success =>
    intro hsuccess
    have hnone : run.halt = none := Option.isNone_iff_eq_none.mp hsuccess
    simp [FileRun.result, hnone]
  case of_halt =>
    intro hsuccess
    obtain ⟨halt, hhalt⟩ := FileRun.success_eq_false_iff.mp hsuccess
    obtain ⟨last, -, hturn, hresult⟩ := h.exists_last_of_halt hhalt
    obtain ⟨-, hphase, herror⟩ := Turn.result_of_halt hturn
    refine ⟨_, halt.error, hresult, herror, ?_, ?_⟩
    · rw [FileRun.result, hhalt, hphase, Option.map_some]
    · rw [FileRun.result, hhalt]
      rfl
  case lastCall =>
    intro result hsuccess hget
    obtain ⟨halt, hhalt⟩ := FileRun.success_eq_false_iff.mp hsuccess
    obtain ⟨last, hlast, hturn, hresult⟩ := h.exists_last_of_halt hhalt
    obtain rfl := Option.some.inj (hresult.symm.trans hget)
    obtain ⟨earlier, failure, hexchanges, herror⟩ := h.exchanges_of_halt hlast hturn
    refine ⟨earlier, _, failure, hexchanges, Turn.result_phase.symm, ?_⟩
    rw [← herror]
    exact (Turn.result_of_halt hturn).2.2

end Account

section Runs

variable {σ : Type} {p : ValidatedPolicy} {r : Runner}

/-- The result of a run tells how the run ended, and after the last call nothing has happened to
the world. -/
theorem Runner.tellsEnd_runFile
    (hr : r.IsOf p) (e : Executor σ) (context : FileContext) (world : σ) :
    let run := r.runFile e context world
    TellsEnd p (e.exchanges run.calls world) (run.result context.path) ∧
      run.world = e.worldAfter run.calls world := by
  obtain rfl := hr.policy_eq
  obtain ⟨turns, h, -⟩ := exists_account hr.nodup_names e context world
  exact ⟨h.tellsEnd hr, h.world⟩

/-- Three phases under the error mode that stops, of which only the second has no other. -/
def ValidatedPolicy.strict : ValidatedPolicy where
  phases := [
    { name := "cut", onError := some .proceed }, { name := "mix" },
    { name := "tag", onError := some .skip }]
  graph := DependencyGraph.ofPhases [
    { name := "cut", onError := some .proceed }, { name := "mix" },
    { name := "tag", onError := some .skip }]
  errorMode := .stop
  graph_eq := by cbv

/-- Where every call fails, the run goes on after the first phase and ends with the second. -/
theorem Runner.strict_ends_with_mix :
    let context : FileContext := { path := "film.mkv", media := {} }
    let run := Runner.runFile { policy := .strict } .patient context 3
    let final := run.result context.path
    final.success = false ∧
      (∃ last error, final.phaseResults.getLast? = some last ∧ last.error = some error ∧
        final.failedPhase = some last.phase ∧ final.errorMessage = some error) ∧
      ∃ first, final.phase? "cut" = some first ∧ FailedUnder .strict .proceed first := by
  intro context run final
  have hends : TellsEnd .strict (Executor.patient.exchanges run.calls 3) final :=
    (tellsEnd_runFile .all .patient context 3).1
  have hresults : final.phaseResults =
      [{ phase := "cut", outcome := .failed, error := some "Internal error: out of patience" },
        { phase := "mix", outcome := .failed,
          error := some "Internal error: out of patience" }] := by
    rfl
  refine ⟨rfl, hends.of_halt rfl, _, rfl, hends.proceeded _ ?_ rfl ?_⟩
  · rw [hresults]
    exact List.mem_cons_self
  · rintro ⟨-, hlast⟩
    rw [hresults] at hlast
    simp at hlast

end Runs

end MediaPhases
